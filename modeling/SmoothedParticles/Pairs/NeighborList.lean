import SmoothedParticles.Pairs.Filter
import SmoothedParticles.Pairs.Options
import SmoothedParticles.Pairs.Search
import SmoothedParticles.Space.Box
import SmoothedParticles.Report.Logged

/-!
# Neighbor lists

A `NeighborList` has one row of pairs per query point, sorted by reference point. It is built
over one set of points (a self list), or between two (a cross list). A list is never changed.

* `PointSet.ofTable`: the finite points of a table.
* `NeighborList.ofFound`: a list from all pairs within the search radius.
* `NeighborList.direct`: a list without periodic boundaries.
* `minDistance`, `particleRadius`, `meanNeighbors`: figures of a list.
-/

namespace SmoothedParticles

/-- Two neighbors. -/
structure Pair (α : Type) where
  /-- The index of the query point. -/
  first : Nat
  /-- The index of the reference point. -/
  second : Nat
  distance : α
  /-- The vector from the query point to the reference point, moved by the shift. -/
  vector : Vec3 α
  /-- The number of box lengths by which the reference point is moved. -/
  shift : Vec3 Int

/-- The points of a list; the reference points of a self list are its query points. -/
structure PointSets (α : Type) where
  query : Array (Vec3 α)
  reference? : Option (Array (Vec3 α))

/-- The reference points. -/
def PointSets.reference {α : Type} (p : PointSets α) : Array (Vec3 α) := p.reference?.getD p.query

/-- All pairs within the search radius, and the points at the time of the search. -/
structure FullSearch (α : Type) where
  rows : Array (List (Pair α))
  points : PointSets α

/-- The neighbors of some query points among some reference points. -/
structure NeighborList (α : Type) [Scalar α] where
  options : SearchOptions α
  filter : PairFilter
  dimension : Dimension
  points : PointSets α
  /-- The box of a periodic list. -/
  box? : Option (Box α)
  /-- The pairs of each query point. -/
  rows : Array (List (Pair α))
  /-- The search that the rows were taken from, if there is a skin. -/
  reserve? : Option (FullSearch α)
  /-- Does the list have only some of the pairs of another one? -/
  partitioned : Bool

variable {α : Type} [Scalar α]

namespace PointSet

/-- All points of a side have to be finite. -/
def checkFinite (side : Side) (ps : Array (Vec3 α)) : Except (Error α) Unit :=
  match ps.findIdx? fun p => !p.isFinite with
  | some i => invalid (.notFinite side i)
  | none => .ok ()

/-- The points of a table with two or three columns, all of them finite. -/
def ofTable (side : Side) (t : Table α) : Except (Error α) (Dimension × Array (Vec3 α)) := do
  match Dimension.ofNat? t.columns with
  | none => mismatch (.columns side t.columns)
  | some d =>
    checkFinite side t.points
    return (d, t.points)

end PointSet

/-- The pairs that are closer than a cutoff. -/
def within (cutoff : α) (rows : Array (List (Pair α))) : Array (List (Pair α)) :=
  rows.map (·.filter fun p => p.distance < cutoff)

namespace NeighborList

/-- Has the list one set of points only? -/
def isSelf (l : NeighborList α) : Bool := l.points.reference?.isNone

/-- Has the list periodic boundaries? -/
def isPeriodic (l : NeighborList α) : Bool := l.box?.isSome

/-- Is the pair one of a point with itself, and not with another point or an own image? -/
def isSelfPair (l : NeighborList α) (p : Pair α) : Bool :=
  l.isSelf && p.first = p.second && p.shift = .replicate 0

/-- All pairs, row by row. -/
def pairs (l : NeighborList α) : List (Pair α) := l.rows.toList.flatten

/-- The number of query points. -/
def nQuery (l : NeighborList α) : Nat := l.rows.size

/-- The number of reference points. -/
def nReference (l : NeighborList α) : Nat := l.points.reference.size

/-- The positions of the query points, as a table. -/
def queryTable (l : NeighborList α) : Table α := .ofPoints l.dimension l.points.query

/-- The positions of the reference points, as a table. -/
def referenceTable (l : NeighborList α) : Table α := .ofPoints l.dimension l.points.reference

/-- The pairs of one query point. -/
def row (l : NeighborList α) (i : Nat) : Except (Error α) (List (Pair α)) :=
  match l.rows[i]? with
  | some r => .ok r
  | none => .error .fault

/-- The number of pairs. -/
def nPairs (l : NeighborList α) : Nat := l.pairs.length

/-- The number of neighbors of each query point. -/
def neighborCounts (l : NeighborList α) : List Nat := l.rows.toList.map List.length

/-- The largest number of neighbors of a query point, zero if there are none. -/
def maxNeighbors (l : NeighborList α) : Nat := l.neighborCounts.foldl max 0

/-- The mean number of neighbors of a query point, zero if there are none. -/
def meanNeighbors (l : NeighborList α) : α :=
  if l.rows.isEmpty then 0 else Scalar.ofNat l.nPairs / Scalar.ofNat l.nQuery

/-- The smallest of some distances. -/
def smallest? (ds : List α) : Option α :=
  ds.foldl (fun m d => some (m.elim d fun m => if d < m then d else m)) none

/-- **The smallest distance** between two points, not counting a point and itself. -/
def minDistance (l : NeighborList α) : Option α :=
  smallest? ((l.pairs.filter fun p => !l.isSelfPair p).map Pair.distance)

/-- The radius of particles that just touch: half of the smallest distance. -/
def particleRadius (l : NeighborList α) : Option α := l.minDistance.map (0.5 * ·)

/-- The distance below which points are suspiciously close. -/
def closeThreshold (l : NeighborList α) : α := 1e-3 * l.options.cutoff

/-- The number of pairs of suspiciously close points. -/
def closePairs (l : NeighborList α) : Nat :=
  l.pairs.countP fun p => !l.isSelfPair p && p.distance < l.closeThreshold

/-- The list that a full search gives. With a skin, the search is kept in reserve. -/
def ofRows (options : SearchOptions α) (filter : PairFilter) (dimension : Dimension)
    (points : PointSets α) (box? : Option (Box α)) (found : Array (List (Pair α))) :
    NeighborList α :=
  if 0 < options.skin then
    ⟨options, filter, dimension, points, box?, within options.cutoff found, some ⟨found, points⟩,
      false⟩
  else ⟨options, filter, dimension, points, box?, found, none, false⟩

/-- **The list from all pairs within the search radius**, which tells if points are very close. -/
def ofFound (options : SearchOptions α) (filter : PairFilter) (dimension : Dimension)
    (points : PointSets α) (box? : Option (Box α)) (found : Array (List (Pair α))) :
    Logged α (NeighborList α) := do
  let list := ofRows options filter dimension points box? found
  .tellIf (list.closePairs != 0) (.closePairs list.closePairs list.closeThreshold)
  return list

/-- A hit as a pair without a shift. -/
def pairOfHit (i : Nat) (h : Hit α) : Pair α := ⟨i, h.second, h.distance, h.vector, .replicate 0⟩

/-- The points of both sides, with the same number of dimensions. -/
def pointSets (query : Table α) (reference? : Option (Table α)) :
    Except (Error α) (Dimension × PointSets α) := do
  let (d, qs) ← PointSet.ofTable .query query
  match reference? with
  | none => return (d, ⟨qs, none⟩)
  | some reference =>
    if reference.columns ≠ query.columns then
      mismatch (.dimensions query.columns reference.columns)
    let (_, rs) ← PointSet.ofTable .reference reference
    return (d, ⟨qs, some rs⟩)

/-- What a list without periodic boundaries looks for. -/
def directSearch (options : SearchOptions α) (filter : PairFilter) (points : PointSets α) :
    Search α :=
  { reference := points.reference
    cutoff := options.searchRadius
    identity := if points.reference?.isNone then some options.selfPairs else none
    keep := filter.keep }

/-- **A list without periodic boundaries**, between two sets of points or over one. -/
def direct (options : SearchOptions α) (query : Table α) (reference? : Option (Table α))
    (filter : PairFilter) : Logged α (NeighborList α) := do
  options.validate
  let (d, points) ← pointSets query reference?
  (filter.validate points.query.size points.reference.size : Except (Error α) Unit)
  let hits ← (directSearch options filter points).run d points.query
  ofFound options filter d points none (hits.mapIdx fun i row => row.map (pairOfHit i))

/-- The same list with other pairs, a part of it. -/
def part (l : NeighborList α) (rows : Array (List (Pair α))) : NeighborList α :=
  { l with rows, reserve? := none, partitioned := true }

end NeighborList

end SmoothedParticles
