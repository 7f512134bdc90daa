import SmoothedParticles.Report.Error
import SmoothedParticles.Space.Table

/-!
# Sets of particles

A `ParticleSet` holds particles in order, and beside them tables of further properties with one
row per particle. Once it has such a property, its particles are fixed.

* `ParticleSet.ofList`: the set with given particles.
* `ParticleSet.push`: one more particle.
* `ParticleSet.addProperty`: one more property.
-/

namespace SmoothedParticles

/-- A particle. In the plane, the last components of its vectors are zero. -/
structure Particle (α : Type) where
  position : Vec3 α
  velocity : Vec3 α
  density : α
  volume : α
  /-- A label for the type of the particle. -/
  kind : Int

/-- Particles in a space of two or three dimensions. -/
structure ParticleSet (α : Type) where
  dimension : Dimension
  particles : Array (Particle α)
  /-- Further properties, sorted by their names. -/
  properties : List (String × Table α)

namespace ParticleSet

variable {α : Type}

/-- The set without particles. -/
def empty (dimension : Nat) : Except (Error α) (ParticleSet α) :=
  match Dimension.ofNat? dimension with
  | some d => .ok ⟨d, #[], []⟩
  | none => invalid (.particleDimension dimension)

/-- The number of particles. -/
def size (s : ParticleSet α) : Nat := s.particles.size

/-- The particle at an index. -/
def get? (s : ParticleSet α) (i : Nat) : Option (Particle α) := s.particles[i]?

/-- The positions, one row per particle. -/
def positions (s : ParticleSet α) : Table α :=
  .ofPoints s.dimension (s.particles.map Particle.position)

/-- The velocities, one row per particle. -/
def velocities (s : ParticleSet α) : Table α :=
  .ofPoints s.dimension (s.particles.map Particle.velocity)

def densities (s : ParticleSet α) : Array α := s.particles.map Particle.density

def volumes (s : ParticleSet α) : Array α := s.particles.map Particle.volume

def kinds (s : ParticleSet α) : Array Int := s.particles.map Particle.kind

/-- The names of the further properties, in order. -/
def propertyNames (s : ParticleSet α) : List String := s.properties.map Prod.fst

/-- The further property with a name. -/
def property? (s : ParticleSet α) (name : String) : Option (Table α) := s.properties.lookup name

/-- Put a property into a sorted list, in place of the one with the same name if there is one. -/
def insertProperty (name : String) (values : Table α) :
    List (String × Table α) → List (String × Table α)
  | [] => [(name, values)]
  | (other, table) :: rest =>
    if name < other then (name, values) :: (other, table) :: rest
    else if name = other then (name, values) :: rest
    else (other, table) :: insertProperty name values rest

/-- **One more property**, with one row per particle. -/
def addProperty (s : ParticleSet α) (name : String) (values : Table α) :
    Except (Error α) (ParticleSet α) :=
  if values.size = s.size then
    .ok { s with properties := insertProperty name values s.properties }
  else mismatch (.property name values.size s.size)

variable [Scalar α]

/-- The vector with zeros on the axes that are not in use. -/
def flattened (d : Dimension) (v : Vec3 α) : Vec3 α :=
  .ofFn fun a => if a ∈ d.axes then v.get a else 0

/-- The axis not in use along which a particle has a component other than zero. -/
def offAxis? (d : Dimension) (p : Particle α) : Option Axis :=
  [Axis.x, .y, .z].find? fun a =>
    a ∉ d.axes && (p.position.get a != 0 || p.velocity.get a != 0)

/-- **One more particle** at the end, if the set has no further properties yet and the particle
lies in its space. -/
def push (s : ParticleSet α) (p : Particle α) : Except (Error α) (ParticleSet α) :=
  if ¬s.properties.isEmpty then invalid .particlesFixed
  else match offAxis? s.dimension p with
    | some a => mismatch (.flatParticle a s.dimension.toNat)
    | none =>
      let p := { p with
        position := flattened s.dimension p.position
        velocity := flattened s.dimension p.velocity }
      .ok { s with particles := s.particles.push p }

/-- **The set with given particles.** -/
def ofList (dimension : Nat) (particles : List (Particle α)) :
    Except (Error α) (ParticleSet α) := do
  particles.foldlM push (← empty dimension)

end ParticleSet

end SmoothedParticles
