import SmoothedParticles.Pairs.Cells

/-!
# Search for close points

* `hit?`: is a reference point close enough to a query point?
* `Search.rowOf`: the hits among some reference points.
* `search`: the hits of each query point, by all pairs if there are few and by cells otherwise.
-/

namespace SmoothedParticles

/-- A reference point found close to a query point. -/
structure Hit (α : Type) where
  second : Nat
  distance : α
  /-- The vector from the query point to the reference point. -/
  vector : Vec3 α

/-- What to look for. -/
structure Search (α : Type) where
  reference : Array (Vec3 α)
  cutoff : α
  /-- If query points and reference points are the same: is a point close to itself? -/
  identity : Option Bool
  /-- The pairs of indexes to keep. -/
  keep : Nat → Nat → Bool

namespace Search

variable {α : Type} [Scalar α]

/-- The hit of a query point on a reference point, if there is one. A point is compared with
itself by its index, and not by its position. -/
def hit? (s : Search α) (i : Nat) (p : Vec3 α) (j : Nat) (q : Vec3 α) : Option (Hit α) :=
  match s.identity, decide (i = j) with
  | some selfPairs, true => if selfPairs && s.keep i j then some ⟨j, 0, .zero⟩ else none
  | _, _ =>
    let v := q - p
    if v.norm2 < s.cutoff * s.cutoff ∧ s.keep i j = true then some ⟨j, Scalar.sqrt v.norm2, v⟩
    else none

/-- The hits among some reference points, given by their indexes. -/
def rowOf (s : Search α) (i : Nat) (p : Vec3 α) (js : List Nat) : List (Hit α) :=
  js.filterMap fun j => s.reference[j]?.bind (s.hit? i p j)

/-- The hits of a query point, by a look at all reference points. -/
def rowByPairs (s : Search α) (i : Nat) (p : Vec3 α) : List (Hit α) :=
  s.rowOf i p (List.range s.reference.size)

/-- The hits of a query point, by a look at the cells around it. -/
def rowByCells (s : Search α) (cells : Cells α) (i : Nat) (p : Vec3 α) : List (Hit α) :=
  (s.rowOf i p (cells.candidates p)).mergeSort fun a b => a.second ≤ b.second

/-- The number of pairs up to which all pairs are looked at. -/
def maxPairs : Nat := 4096

/-- **The hits of each query point**, in the order of the reference points. -/
def run (s : Search α) (d : Dimension) (query : Array (Vec3 α)) :
    Except (Error α) (Array (List (Hit α))) := do
  if query.size * s.reference.size ≤ maxPairs then
    return query.mapIdx s.rowByPairs
  let cells ← Cells.build d s.reference s.cutoff
  return query.mapIdx (s.rowByCells cells)

end Search

end SmoothedParticles
