import SmoothedParticles.Pairs.NeighborList
import SmoothedParticles.Periodic.Images

/-!
# Periodic neighbor lists

The search runs over the reference points and their images. A pair with an image is reported
with the index of the point behind it, and with the shift of the image.

* `NeighborList.periodic`: a list in a box.
* `NeighborList.build`: a list, in a box if there is one.
-/

namespace SmoothedParticles.NeighborList

variable {α : Type} [Scalar α]

/-- The order of lists of numbers, number by number. -/
def lexLE : List Int → List Int → Bool
  | [], _ => true
  | _ :: _, [] => false
  | a :: as, b :: bs => a < b || (a = b && lexLE as bs)

/-- The order of pairs within a row: by reference point, then by shift, axis by axis. -/
def precedes (p q : Pair α) : Bool :=
  let key (p : Pair α) : List Int := p.second :: p.shift.toList
  lexLE (key p) (key q)

/-- The point behind an index among `n` points followed by their images. -/
def pointBehind (images : Images α) (n j : Nat) : Nat :=
  ((images.image? n j).map Image.source).getD j

/-- The shift of an index among `n` points followed by their images. -/
def shiftOf (images : Images α) (n j : Nat) : Vec3 Int :=
  ((images.image? n j).map Image.shift).getD (.replicate 0)

/-- A hit among `n` points followed by their images, as a pair. -/
def pairOfImage (images : Images α) (n i : Nat) (h : Hit α) : Pair α :=
  ⟨i, pointBehind images n h.second, h.distance, h.vector, shiftOf images n h.second⟩

/-- What a periodic list looks for, among the reference points followed by their images. -/
def periodicSearch (options : SearchOptions α) (filter : PairFilter) (points : PointSets α)
    (images : Images α) : Search α :=
  { reference := images.extend points.reference
    cutoff := options.searchRadius
    identity := if points.reference?.isNone then some options.selfPairs else none
    keep := fun i j => filter.keep i (pointBehind images points.reference.size j) }

/-- **A list in a box.** All points have to be inside of the box, and the search radius is at
most half of each periodic length. -/
def periodic (box : Box α) (options : SearchOptions α) (query : Table α)
    (reference? : Option (Table α)) (filter : PairFilter) : Logged α (NeighborList α) := do
  options.validate
  let qs ← box.checkInside query
  PointSet.checkFinite .query qs
  let rs? ← reference?.mapM fun reference => (box.checkInside reference : Logged α _)
  let points : PointSets α := ⟨qs, rs?⟩
  let n := points.reference.size
  (filter.validate qs.size n : Except (Error α) Unit)
  let images ← box.images (reference?.getD query) (.replicate options.searchRadius)
  PointSet.checkFinite .reference (images.extend points.reference)
  let hits ← (periodicSearch options filter points images).run box.dimension qs
  let found := hits.mapIdx fun i row => (row.map (pairOfImage images n i)).mergeSort precedes
  ofFound options filter box.dimension points (some box) found

/-- **A list**, in a box if there is one. -/
def build (box? : Option (Box α)) (options : SearchOptions α) (query : Table α)
    (reference? : Option (Table α)) (filter : PairFilter) : Logged α (NeighborList α) :=
  match box? with
  | some box => periodic box options query reference? filter
  | none => direct options query reference? filter

end SmoothedParticles.NeighborList
