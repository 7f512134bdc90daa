import SmoothedParticles.Pairs.NeighborList

/-!
# Neighbor lists by the types of the points

* `NeighborList.partition`: the list split by the types of the two points of each pair.
* `TypePartition.get?`: the pairs of two given types.
-/

namespace SmoothedParticles

variable {α : Type} [Scalar α]

/-- A list split by types. Each part has a row per query point, as the whole list has. -/
structure TypePartition (α : Type) [Scalar α] where
  /-- The parts with at least one pair, sorted by the two types. -/
  byTypes : List ((Int × Int) × NeighborList α)
  /-- The pairs of points of the same type. -/
  same : NeighborList α
  /-- The pairs of points of different types. -/
  cross : NeighborList α

/-- The pairs of two given types, if there are any. -/
def TypePartition.get? (p : TypePartition α) (query reference : Int) : Option (NeighborList α) :=
  p.byTypes.lookup (query, reference)

namespace NeighborList

/-- The types of both points of a pair. -/
def typesOf (queryTypes referenceTypes : Array Int) (p : Pair α) : Int × Int :=
  (queryTypes.getD p.first 0, referenceTypes.getD p.second 0)

/-- The order of pairs of types. -/
def typesPrecede (s t : Int × Int) : Bool := s.1 < t.1 || (s.1 = t.1 && s.2 ≤ t.2)

/-- The part with the pairs that fulfil a condition. -/
def filterPart (l : NeighborList α) (keep : Pair α → Bool) : NeighborList α :=
  l.part (l.rows.map (·.filter keep))

/-- The list split by types, without any check. -/
def splitByTypes (l : NeighborList α) (queryTypes referenceTypes : Array Int) :
    TypePartition α :=
  let types := typesOf (α := α) queryTypes referenceTypes
  let present := (l.pairs.map types).eraseDups.mergeSort typesPrecede
  { byTypes := present.map fun t => (t, l.filterPart fun p => types p = t)
    same := l.filterPart fun p => (types p).1 = (types p).2
    cross := l.filterPart fun p => (types p).1 ≠ (types p).2 }

/-- The types of the reference points: those of the query points in a self list. -/
def referenceTypes (l : NeighborList α) (queryTypes : Array Int)
    (referenceTypes? : Option (Array Int)) : Except (Error α) (Array Int) :=
  match l.isSelf, referenceTypes? with
  | true, none => .ok queryTypes
  | true, some _ => invalid .unexpectedReferenceTypes
  | false, some types =>
    if types.size = l.nReference then .ok types
    else mismatch (.types .reference l.nReference types.size)
  | false, none => invalid .missingReferenceTypes

/-- **The list split by the types of the points**, without computing any distance. -/
def partition (l : NeighborList α) (queryTypes : Array Int)
    (referenceTypes? : Option (Array Int)) : Except (Error α) (TypePartition α) := do
  if queryTypes.size ≠ l.nQuery then mismatch (.types .query l.nQuery queryTypes.size)
  let types ← l.referenceTypes queryTypes referenceTypes?
  return l.splitByTypes queryTypes types

end NeighborList

end SmoothedParticles
