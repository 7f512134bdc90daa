import SmoothedParticles.Periodic.Wrap
import SmoothedParticles.Report.Logged

/-!
# Reuniting an object split by periodic wrapping

Points of one object that wrapping has put on opposite sides of a box are moved back together:
pass by pass, points further than half a box length from the centroid are moved one length
towards it. The outcome counts only if it is less spread out than the points were.

* `Box.gather`: one pass.
* `Box.gatherUpTo`: passes until nothing moves, up to a bound.
* `Box.reunite`: the reunited points, or the given ones.
-/

namespace SmoothedParticles

variable {α : Type} [Scalar α]

/-- The mean of points. -/
def centroid (ps : Array (Vec3 α)) : Vec3 α :=
  ps.foldl (· + ·) Vec3.zero / (Scalar.ofNat ps.size : α)

/-- The sum of the squared distances from the centroid. -/
def spread (ps : Array (Vec3 α)) : α :=
  let center := centroid ps
  ps.foldl (fun s p => s + (p - center).norm2) 0

/-- A coordinate further than half a length from the center, moved one length towards it;
`none` if it is not that far. -/
def pull? (length center x : α) : Option α :=
  let offset := x - center
  if 0.5 * length < offset then some (x - length)
  else if offset < -0.5 * length then some (x + length)
  else none

namespace Box

/-- The pull towards a center along an axis, if the axis is periodic and the point far. -/
def pullAlong? (box : Box α) (center p : Vec3 α) (a : Axis) : Option α :=
  if box.periodic.get a then pull? (box.length a) (center.get a) (p.get a) else none

/-- A point pulled towards a center along each axis. -/
def pull (box : Box α) (center p : Vec3 α) : Vec3 α :=
  .ofFn fun a => (box.pullAlong? center p a).getD (p.get a)

/-- Does the pull towards a center move a point? -/
def moves (box : Box α) (center p : Vec3 α) : Bool :=
  box.dimension.axes.any fun a => (box.pullAlong? center p a).isSome

/-- **One pass**: all points are pulled towards the centroid they have at its start. The pass is
`none` if no point moves. -/
def gather (box : Box α) (ps : Array (Vec3 α)) : Option (Array (Vec3 α)) :=
  let center := centroid ps
  if ps.any (box.moves center) then some (ps.map (box.pull center)) else none

/-- Passes until no point moves, `n` at most: the points after them, and the number of passes.
A last pass in which nothing moves counts too. -/
def gatherUpTo (box : Box α) : Nat → Array (Vec3 α) → Array (Vec3 α) × Nat
  | 0, ps => (ps, 0)
  | n + 1, ps =>
    match box.gather ps with
    | none => (ps, 1)
    | some next =>
      let (last, passes) := box.gatherUpTo n next
      (last, passes + 1)

end Box

/-- The bound on the number of passes. -/
def maxPasses : Nat := 10

/-- The outcome of a reunion. -/
structure Reunion (α : Type) where
  dimension : Dimension
  /-- The points, reunited or as they were given. -/
  points : Array (Vec3 α)
  reunited : Bool
  passes : Nat

namespace Box

/-- Reunite points, and say how the spread changed. -/
def reunitePoints (box : Box α) (ps : Array (Vec3 α)) : Logged α (Reunion α) := do
  if ps.isEmpty then
    return ⟨box.dimension, ps, false, 0⟩
  let (gathered, passes) := box.gatherUpTo maxPasses ps
  let moved := (box.gather ps).isSome
  let before := spread ps
  let after := spread gathered
  Logged.tell (.reunified passes before after)
  if moved ∧ after < before then
    return ⟨box.dimension, gathered, true, passes⟩
  Logged.tellIf moved (.reunificationRejected ps.size before after)
  return ⟨box.dimension, ps, false, passes⟩

/-- **The points of a table as one object**, if they can be brought together. This is a
heuristic: objects split evenly, or closed around the box, may stay split. -/
def reunite (box : Box α) (t : Table α) : Logged α (Reunion α) := do
  let ps ← box.pointsOf t
  box.reunitePoints ps

end Box

end SmoothedParticles
