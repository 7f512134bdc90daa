import SmoothedParticles.Pairs.PeriodicList

/-!
# Updates of neighbor lists

When the points move, a list is updated: if they moved little since the last full search, the
pairs in reserve are computed again, and otherwise the list is built from scratch.

* `sampledIndexes`: the points whose displacement is measured.
* `NeighborList.baseline`: the last full search.
* `NeighborList.revalidate`: the pairs in reserve at new positions.
* `NeighborList.update`: the list at new positions, and how it came about.
-/

namespace SmoothedParticles

variable {α : Type} [Scalar α]

/-- How an update was done. -/
inductive UpdateOutcome
  /-- The known pairs were computed again. -/
  | revalidated
  /-- The list was built from scratch. -/
  | rebuilt
  deriving DecidableEq, Repr

/-- At most `samples` indexes below `n`, at equal steps from zero on. -/
def sampledIndexes (n samples : Nat) : List Nat :=
  let stride := max (n / samples) 1
  (List.range (min samples ((n + stride - 1) / stride))).map (· * stride)

namespace NeighborList

/-- The last full search; without a skin, the pairs of the list itself. -/
def baseline (l : NeighborList α) : FullSearch α := l.reserve?.getD ⟨l.rows, l.points⟩

/-- The displacement up to which the pairs of the last full search are complete. -/
def threshold (l : NeighborList α) (tolerance : α) : α :=
  if l.reserve?.isSome then Scalar.minNum tolerance (0.5 * l.options.skin) else 0

/-- The nearest image of a separation if the list is periodic. -/
def nearest (l : NeighborList α) (v : Vec3 α) : Vec3 α :=
  match l.box? with
  | some box => box.nearestImage v
  | none => v

/-- The largest displacement of some sampled points. -/
def displacement (l : NeighborList α) (old new : Array (Vec3 α)) (samples : Nat) : α :=
  (sampledIndexes new.size samples).foldl
    (fun m i => Scalar.maxNum m (l.nearest (new.getD i .zero - old.getD i .zero)).norm) 0

/-- The largest displacement of some sampled points of both sides since the last full search. -/
def totalDisplacement (l : NeighborList α) (new : PointSets α) (samples : Nat) : α :=
  let old := l.baseline.points
  let moved := l.displacement old.query new.query samples
  match old.reference?, new.reference? with
  | some oldReference, some newReference =>
    Scalar.maxNum moved (l.displacement oldReference newReference samples)
  | _, _ => moved

/-- The shift that leads from a plain separation to its nearest image. -/
def shiftBetween (box : Box α) (shift : Vec3 Int) (direct nearest : Vec3 α) : Vec3 Int :=
  .ofFn fun a =>
    if box.periodic.get a then
      Scalar.index (Scalar.round ((nearest.get a - direct.get a) / box.length a))
    else shift.get a

/-- A pair at new positions, if it is closer than the cutoff there. -/
def revalidatePair (l : NeighborList α) (new : PointSets α) (p : Pair α) : Option (Pair α) :=
  let direct := new.reference.getD p.second .zero - new.query.getD p.first .zero
  let vector := l.nearest direct
  let shift := l.box?.elim p.shift fun box => shiftBetween box p.shift direct vector
  if vector.norm < l.options.cutoff then some ⟨p.first, p.second, vector.norm, vector, shift⟩
  else none

/-- **The pairs of the last full search at new positions.** -/
def revalidate (l : NeighborList α) (new : PointSets α) : NeighborList α :=
  { l with
    points := new
    rows := l.baseline.rows.map (·.filterMap (l.revalidatePair new))
    partitioned := false }

/-- The new positions of the points of a side: as many as before, finite, and inside of the
box if there is one. -/
def movedPoints (l : NeighborList α) (side : Side) (old : Array (Vec3 α)) (new : Table α) :
    Except (Error α) (Array (Vec3 α)) := do
  let shape := (old.size, l.dimension.toNat)
  if new.shape ≠ shape then mismatch (.moved side new.shape shape)
  let (_, ps) ← PointSet.ofTable side new
  return ps

/-- The points of a table have to be inside of the box, if there is one. -/
def checkBox (l : NeighborList α) (t : Table α) : Except (Error α) Unit :=
  match l.box? with
  | some box => do let _ ← box.checkInside t
  | none => .ok ()

/-- The conditions on the arguments of an update that are not about positions. -/
def checkUpdate (l : NeighborList α) (reference? : Option (Table α)) (tolerance : α)
    (samples : Nat) : Except (Error α) Unit := do
  if ¬(0 ≤ tolerance ∧ Scalar.isFinite tolerance = true) then invalid (.tolerance tolerance)
  if samples = 0 then invalid .noSamples
  if l.partitioned then invalid .updateOfPart
  if l.isSelf ∧ reference?.isSome then invalid .unexpectedReference
  if ¬l.isSelf ∧ reference?.isNone then invalid .missingReference

/-- The new positions of both sides, checked. -/
def updatedPoints (l : NeighborList α) (query : Table α) (reference? : Option (Table α)) :
    Except (Error α) (PointSets α) := do
  let qs ← l.movedPoints .query l.points.query query
  let rs? ← reference?.mapM (l.movedPoints .reference l.points.reference)
  l.checkBox query
  reference?.forM l.checkBox
  return ⟨qs, rs?⟩

/-- **The list at new positions of the same points.** The displacement of some points since the
last full search decides if its pairs are computed again, or the list is built from scratch. -/
def update (l : NeighborList α) (query : Table α) (reference? : Option (Table α)) (tolerance : α)
    (samples : Nat) : Logged α (NeighborList α × UpdateOutcome) := do
  l.checkUpdate reference? tolerance samples
  let new ← l.updatedPoints query reference?
  let moved := l.totalDisplacement new samples
  let threshold := l.threshold tolerance
  if moved ≤ threshold then
    return (l.revalidate new, .revalidated)
  .tell (.rebuilding moved threshold)
  let list ← build l.box? l.options query reference? l.filter
  return (list, .rebuilt)

end NeighborList

end SmoothedParticles
