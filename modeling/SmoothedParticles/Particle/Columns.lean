import SmoothedParticles.Particle.Set

/-!
# Particles in columns

Particles are kept column by column, and one more particle goes into one column after the other. A change that
fails on the way keeps what it has done until then, so nothing but the order of its checks makes the columns
belong together.

* `Table.pushRow`: one more row of a table.
* `ParticleColumns.push`, `ParticleColumns.addProperty`: the changes.
* `ParticleColumns.get?`: the particle at an index, read off all columns.
* `ParticleColumns.toSet`: the set of particles that the columns hold.
-/

namespace SmoothedParticles

/-- The table with one more row at its end, which has to be as wide as the others. -/
def Table.pushRow {α : Type} (t : Table α) (row : List α) : Except (Error α) (Table α) :=
  if h : row.length = t.columns then
    .ok ⟨t.columns, t.rows.push ⟨row.toArray, by rw [List.size_toArray, h]⟩⟩
  else mismatch .row

/-- Particles as one column per property. -/
structure ParticleColumns (α : Type) where
  positions : Table α
  velocities : Table α
  densities : Array α
  volumes : Array α
  /-- The labels for the types of the particles. -/
  kinds : Array Int
  /-- Further properties, sorted by their names. -/
  properties : List (String × Table α)

namespace ParticleColumns

variable {α : Type}

/-- A change to columns, which may fail after a part of it was done. -/
abbrev Change (α β : Type) := ExceptT (Error α) (StateM (ParticleColumns α)) β

/-- Columns without entries. -/
def empty (dimension : Nat) : Except (Error α) (ParticleColumns α) :=
  if dimension ≠ 2 ∧ dimension ≠ 3 then invalid (.particleDimension dimension)
  else .ok ⟨⟨dimension, #[]⟩, ⟨dimension, #[]⟩, #[], #[], #[], []⟩

/-- The number of coordinates of a position. -/
def dimension (s : ParticleColumns α) : Nat := s.positions.columns

/-- The number of particles. -/
def size (s : ParticleColumns α) : Nat := s.kinds.size

/-- The names of the further properties, in order. -/
def propertyNames (s : ParticleColumns α) : List String := s.properties.map Prod.fst

/-- The further property with a name. -/
def property? (s : ParticleColumns α) (name : String) : Option (Table α) := s.properties.lookup name

/-- **One more property**, with one row per particle. -/
def addProperty (name : String) (values : Table α) : Change α Unit := do
  let s ← get
  if values.size ≠ s.size then
    (mismatch (.property name values.size s.size) : Except (Error α) Unit)
  modify fun s => { s with properties := ParticleSet.insertProperty name values s.properties }

/-- The first coordinates of a vector, of which there are three. -/
def coordinates (v : Vec3 α) (dimension : Nat) : Except (Error α) (List α) :=
  if dimension ≤ 3 then .ok (v.toList.take dimension) else .error .fault

variable [Scalar α]

/-- The first axis past the dimension along which a particle has a component other than zero. -/
def strayAxis? (dimension : Nat) (p : Particle α) : Option Axis :=
  [Axis.x, .y, .z].find? fun a =>
    dimension ≤ a.toNat && (p.position.get a != 0 || p.velocity.get a != 0)

/-- **One more particle** at the end of all columns, unless there are further properties. -/
def push (p : Particle α) : Change α Unit := do
  let s ← get
  if ¬s.properties.isEmpty then (invalid .particlesFixed : Except (Error α) Unit)
  if let some a := strayAxis? s.dimension p then
    (mismatch (.flatParticle a s.dimension) : Except (Error α) Unit)
  let position ← coordinates p.position s.dimension
  let velocity ← coordinates p.velocity s.dimension
  let positions ← s.positions.pushRow position
  modify fun s => { s with positions }
  let velocities ← s.velocities.pushRow velocity
  modify fun s => { s with velocities }
  modify fun s => { s with densities := s.densities.push p.density }
  modify fun s => { s with volumes := s.volumes.push p.volume }
  modify fun s => { s with kinds := s.kinds.push p.kind }

/-- **The columns of given particles**, if all of them can be added. -/
def ofList (dimension : Nat) (particles : List (Particle α)) :
    Except (Error α) (ParticleColumns α) := do
  let (result, s) := (particles.forM push).run (← empty dimension)
  result
  return s

/-- **The particle at an index**, if there are as many. A column that is too short has no entry to read. -/
def get? (s : ParticleColumns α) (i : Nat) : Except (Error α) (Option (Particle α)) :=
  if s.size ≤ i then .ok none
  else
    match s.positions.rows[i]?, s.velocities.rows[i]?, s.densities[i]?, s.volumes[i]?, s.kinds[i]? with
    | some position, some velocity, some density, some volume, some kind =>
      .ok (some ⟨.ofList 0 position.toList, .ofList 0 velocity.toList, density, volume, kind⟩)
    | _, _, _, _, _ => .error .fault

/-- The set of the particles in the columns. -/
def toSet (s : ParticleColumns α) : Except (Error α) (ParticleSet α) := do
  let particles ← (List.range s.size).mapM s.get?
  match Dimension.ofNat? s.dimension with
  | some d => return ⟨d, (particles.filterMap id).toArray, s.properties⟩
  | none => .error .fault

end ParticleColumns

end SmoothedParticles
