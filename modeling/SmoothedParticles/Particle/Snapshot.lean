import SmoothedParticles.Force.Viscosity
import SmoothedParticles.Pairs.PeriodicList
import SmoothedParticles.Particle.Set
import SmoothedParticles.Smoothing.Interpolation

/-!
# Snapshots of a simulation

A `Snapshot` has particles inside of a box. It remembers the neighbor list of the particles, and
uses it again while the same cutoff is asked for. Operations that may change what is remembered
return the snapshot too.

* `Snapshot.list`: the neighbor list of the particles, themselves included.
* `density`, `velocityField`, `viscousForces`, `stressField`: what can be computed from it.
-/

namespace SmoothedParticles

/-- Particles inside of a box. -/
structure Snapshot (α : Type) [Scalar α] where
  box : Box α
  particles : ParticleSet α
  /-- The last neighbor list that was asked for. -/
  list? : Option (NeighborList α)

namespace Snapshot

variable {α : Type} [Scalar α]

/-- **A snapshot**, if all particles are inside of the box. -/
def make (box : Box α) (particles : ParticleSet α) : Except (Error α) (Snapshot α) := do
  let _ ← box.checkInside particles.positions
  return ⟨box, particles, none⟩

/-- The particles wrapped into a box. -/
def wrapParticles (box : Box α) (particles : ParticleSet α) : ParticleSet α :=
  { particles with
    particles := particles.particles.map fun p => { p with position := box.wrap p.position } }

/-- A snapshot of the particles wrapped into the box. -/
def wrapped (box : Box α) (particles : ParticleSet α) : Except (Error α) (Snapshot α) := do
  let _ ← box.pointsOf particles.positions
  make box (wrapParticles box particles)

/-- The periodic list of the particles from scratch, each one being its own neighbor. -/
def buildList (s : Snapshot α) (cutoff : α) : Logged α (NeighborList α) :=
  NeighborList.periodic s.box ⟨cutoff, true, 0⟩ s.particles.positions none .keepAll

/-- The list that is remembered, if it has the given cutoff. -/
def remembered? (s : Snapshot α) (cutoff : α) : Option (NeighborList α) :=
  s.list?.filter fun list => list.options.cutoff == cutoff

/-- **The periodic list of the particles**, and the snapshot that remembers it. -/
def list (s : Snapshot α) (cutoff : α) : Snapshot α × Logged α (NeighborList α) :=
  match s.remembered? cutoff with
  | some list => (s, pure list)
  | none =>
    let built := s.buildList cutoff
    match built.result with
    | .ok list => ({ s with list? := some list }, built)
    | .error _ => (s, built)

/-- Go on with the list for a kernel. -/
def withList {β : Type} (s : Snapshot α) (k : Kernel α)
    (f : NeighborList α → Logged α β) : Snapshot α × Logged α β :=
  let (s, list) := s.list k.h
  (s, list >>= f)

/-- **The density at each particle**, its own share included. -/
def density (s : Snapshot α) (k : Kernel α) : Snapshot α × Logged α (Array (Option α)) :=
  s.withList k fun list =>
    Interpolator.interpolateScalar ⟨k, .sum⟩ list s.particles.densities s.particles.volumes

/-- The particles around other points in the box. -/
def listAround (s : Snapshot α) (queries : Table α) (k : Kernel α) : Logged α (NeighborList α) :=
  NeighborList.periodic s.box (.ofCutoff k.h) queries (some s.particles.positions) .keepAll

/-- **The mean velocity around points** in the box. -/
def velocityField (s : Snapshot α) (queries : Table α) (k : Kernel α) : Logged α (Field α) := do
  let list ← s.listAround queries k
  Interpolator.interpolate ⟨k, .shepard⟩ list s.particles.velocities s.particles.volumes

/-- **The viscous forces** on all particles. -/
def viscousForces (s : Snapshot α) (k : Kernel α) (p : ViscosityParameters α) :
    Snapshot α × Logged α (ViscousForces α) :=
  s.withList k fun list =>
    SmoothedParticles.viscousForces list k s.particles.velocities s.particles.volumes p

/-- **The mean viscous stress around points** in the box. -/
def stressField (s : Snapshot α) (queries : Table α) (k : Kernel α) (p : ViscosityParameters α) :
    Snapshot α × Logged α (TensorField α) :=
  let (next, viscous) := s.viscousForces k p
  (next, do
    let viscous ← viscous
    let list ← s.listAround queries k
    let stress := Tensors.ofMatrices viscous.dimension viscous.stress
    Interpolator.interpolateTensors ⟨k, .shepard⟩ list stress s.particles.volumes)

end Snapshot

end SmoothedParticles
