import SmoothedParticles.Pairs.PeriodicList

/-!
# Elastic contacts

Two sets of elastic spheres push each other apart where they overlap, after Hertz's law
`F = 4/3 E √R d^(3/2)` for an overlap `d`.

* `ContactParameters.force`: the force for an overlap.
* `contactOf`: the contact between the two spheres of a pair.
* `contacts`: all contacts, and the forces on all spheres.
-/

namespace SmoothedParticles

/-- Two sets of equal spheres. -/
structure ContactParameters (α : Type) where
  /-- The radius of the spheres in the first set. -/
  radiusA : α
  /-- The radius of the spheres in the second set. -/
  radiusB : α
  /-- The Young's modulus of the first set. -/
  modulusA : α
  /-- The Young's modulus of the second set. -/
  modulusB : α
  /-- The Poisson's ratio of both sets. -/
  poissonRatio : α

variable {α : Type} [Scalar α]

namespace ContactParameters

/-- The quantities that have to be positive, with their names. -/
def positives (p : ContactParameters α) : List (String × α) :=
  [("radius_a", p.radiusA), ("radius_b", p.radiusB), ("modulus_a", p.modulusA),
    ("modulus_b", p.modulusB)]

/-- Radii and moduli are positive, and the Poisson's ratio is physical. -/
def validate (p : ContactParameters α) : Except (Error α) Unit :=
  match p.positives.find? fun (_, value) => !decide (Scalar.IsPositive value) with
  | some (name, value) => invalid (.contact name value)
  | none =>
    if -1 < p.poissonRatio ∧ p.poissonRatio ≤ 0.5 then .ok ()
    else invalid (.poissonRatio p.poissonRatio)

/-- The modulus `E` of the contact. -/
def effectiveModulus (p : ContactParameters α) : α :=
  let factor := 1 - p.poissonRatio * p.poissonRatio
  1 / (factor / p.modulusA + factor / p.modulusB)

/-- The radius `R` of the contact. -/
def effectiveRadius (p : ContactParameters α) : α :=
  p.radiusA * p.radiusB / (p.radiusA + p.radiusB)

/-- The distance of the centers below which spheres are in contact. -/
def contactDistance (p : ContactParameters α) : α := p.radiusA + p.radiusB

/-- **The force for an overlap.** -/
def force (p : ContactParameters α) (overlap : α) : α :=
  if overlap ≤ 0 then 0
  else 4 / 3 * p.effectiveModulus * Scalar.sqrt p.effectiveRadius * Scalar.rpow overlap 1.5

end ContactParameters

/-- Two spheres in contact. -/
structure Contact (α : Type) where
  first : Nat
  second : Nat
  /-- The sum of the radii less the distance of the centers. -/
  overlap : α
  magnitude : α
  /-- The direction of the force on the first sphere, zero if the centers coincide. -/
  direction : Vec3 α

/-- All contacts between two sets of spheres, and the total force on each sphere. -/
structure ContactForces (α : Type) where
  dimension : Dimension
  contacts : List (Contact α)
  forcesA : Array (Vec3 α)
  forcesB : Array (Vec3 α)

/-- **The contact between two neighbors.** -/
def contactOf (p : ContactParameters α) (pair : Pair α) : Contact α :=
  let overlap := p.contactDistance - pair.distance
  { first := pair.first
    second := pair.second
    overlap
    magnitude := p.force overlap
    direction := if 0 < pair.distance then -pair.vector / pair.distance else .zero }

/-- The force on the first sphere of a contact. -/
def Contact.force (c : Contact α) : Vec3 α := c.magnitude * c.direction

/-- The forces of the contacts added up on the spheres of the first set. -/
def forcesOnFirst (n : Nat) (contacts : List (Contact α)) : Array (Vec3 α) :=
  contacts.foldl (fun forces c => forces.modify c.first (· + c.force)) (.replicate n .zero)

/-- The opposite forces added up on the spheres of the second set. -/
def forcesOnSecond (n : Nat) (contacts : List (Contact α)) : Array (Vec3 α) :=
  contacts.foldl (fun forces c => forces.modify c.second (· - c.force)) (.replicate n .zero)

/-- **All contacts between two sets of spheres**, across the faces of a periodic box too. -/
def contacts (box? : Option (Box α)) (a b : Table α) (p : ContactParameters α) :
    Logged α (ContactForces α) := do
  p.validate
  let list ← NeighborList.build box? (.ofCutoff p.contactDistance) a (some b) .keepAll
  let found := list.pairs.map (contactOf p)
  return ⟨list.dimension, found, forcesOnFirst a.size found, forcesOnSecond b.size found⟩

end SmoothedParticles
