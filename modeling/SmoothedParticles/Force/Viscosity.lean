import SmoothedParticles.Pairs.NeighborList
import SmoothedParticles.Smoothing.Kernel

/-!
# Artificial viscosity

Landshoff's viscosity slows particles down that move relative to their neighbors. Between two
particles with separation `r` and relative velocity `v` the viscous term is
`Π = -q₁ c₀ h ρ (v · r) / (r² + ε h²)`, and the force is `-Vᵢ Vⱼ Π W'(r) r / |r|`.

* `ViscosityParameters.pressure`: the viscous term.
* `pairForce`: the force between two neighbors, none if they do not act on each other.
* `viscousForces`: the force on each particle, and its virial stress.
-/

namespace SmoothedParticles

/-- A viscous fluid. -/
structure ViscosityParameters (α : Type) where
  soundSpeed : α
  density : α
  /-- The linear coefficient of the viscosity. -/
  q1 : α
  smoothingLength : α
  /-- The regularization at small distances. -/
  epsilon : α
  /-- Do only particles that approach each other feel the viscosity? -/
  repulsionOnly : Bool

/-- Viscous forces and stresses, one per particle. -/
structure ViscousForces (α : Type) where
  dimension : Dimension
  forces : Array (Vec3 α)
  stress : Array (Vec3 (Vec3 α))

variable {α : Type} [Scalar α]

namespace ViscosityParameters

/-- The quantities that have to be positive, with their names. -/
def positives (p : ViscosityParameters α) : List (String × α) :=
  [("sound_speed", p.soundSpeed), ("density", p.density),
    ("smoothing_length", p.smoothingLength), ("epsilon", p.epsilon)]

/-- All quantities are positive; the coefficient can be zero too. -/
def validate (p : ViscosityParameters α) : Except (Error α) Unit :=
  match p.positives.find? fun (_, value) => !decide (Scalar.IsPositive value) with
  | some (name, value) => invalid (.viscosity name value)
  | none =>
    if 0 ≤ p.q1 ∧ Scalar.isFinite p.q1 = true then .ok ()
    else invalid (.viscosity "q1" p.q1)

/-- **The viscous term** `Π` for a product `v · r` and a distance. -/
def pressure (p : ViscosityParameters α) (product r : α) : α :=
  let h := p.smoothingLength
  let numerator := -p.q1 * p.soundSpeed * h * p.density * product
  numerator / (r * r + p.epsilon * h * h)

end ViscosityParameters

/-- Particles that feel each other's viscosity. -/
structure ViscousFluid (α : Type) [Scalar α] where
  parameters : ViscosityParameters α
  kernel : Kernel α
  velocities : Array (Vec3 α)
  volumes : Array α

namespace ViscousFluid

/-- **The force on the first particle of a pair.** A particle does not act on itself or on one at
the same place; if only repulsion counts, neither on one that it does not approach. -/
def pairForce (f : ViscousFluid α) (p : Pair α) : Option (Vec3 α) :=
  let r := p.distance
  if r == 0 then none
  else
    let separation := -p.vector
    let velocity := f.velocities.getD p.first .zero - f.velocities.getD p.second .zero
    let product := velocity.dot separation
    if f.parameters.repulsionOnly ∧ 0 ≤ product then none
    else
      let volume (i : Nat) := f.volumes.getD i 0
      let factor := -volume p.first * volume p.second * f.parameters.pressure product r *
        f.kernel.derivative r / r
      some (factor * separation)

/-- The entries of a matrix added to another one. -/
def addMatrix (a b : Vec3 (Vec3 α)) : Vec3 (Vec3 α) := .zipWith (· + ·) a b

/-- The virial of a pair with a given force, per volume of the first particle. -/
def pairStress (f : ViscousFluid α) (p : Pair α) (force : Vec3 α) : Vec3 (Vec3 α) :=
  ((-p.vector).tensor force).map (· / f.volumes.getD p.first 0)

/-- The total force and the stress of a particle with the given pairs. -/
def sumRow (f : ViscousFluid α) (row : List (Pair α)) : Vec3 α × Vec3 (Vec3 α) :=
  row.foldl (fun (force, stress) p =>
    match f.pairForce p with
    | none => (force, stress)
    | some pairForce => (force + pairForce, addMatrix stress (f.pairStress p pairForce)))
    (.zero, .replicate .zero)

end ViscousFluid

/-- The particles of a list with their velocities and volumes, if all of these fit together. -/
def checkFluid (l : NeighborList α) (k : Kernel α) (velocities : Table α) (volumes : Array α)
    (p : ViscosityParameters α) : Except (Error α) (ViscousFluid α) := do
  p.validate
  if !l.isSelf then invalid .viscosityOfCross
  let shape := (l.nQuery, l.dimension.toNat)
  if velocities.shape ≠ shape then mismatch (.velocities shape velocities.shape)
  if volumes.size ≠ l.nQuery then mismatch (.particleVolumes l.nQuery volumes.size)
  if k.dimension ≠ l.dimension then
    mismatch (.kernelOfParticles k.dimension.toNat l.dimension.toNat)
  let h := p.smoothingLength
  if 1e-12 * h < Scalar.abs (k.h - h) then invalid (.smoothingLengths k.h h)
  return ⟨p, k, velocities.points, volumes⟩

/-- **The viscous forces between the particles of a self list**, and the virial stresses. -/
def viscousForces (l : NeighborList α) (k : Kernel α) (velocities : Table α) (volumes : Array α)
    (p : ViscosityParameters α) : Except (Error α) (ViscousForces α) := do
  let fluid ← checkFluid l k velocities volumes p
  let sums := l.rows.map fluid.sumRow
  return ⟨l.dimension, sums.map Prod.fst, sums.map Prod.snd⟩

end SmoothedParticles
