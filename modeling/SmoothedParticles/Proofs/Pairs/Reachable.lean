import SmoothedParticles.Proofs.Pairs.PeriodicRows
import SmoothedParticles.Proofs.Pairs.UpdateChecks
import SmoothedParticles.Pairs.Partition

/-!
# The lists that can come about

A list is built from points, updated when they move, and split by types. What the arguments of an update
and of a split have to be like, and what they return.

* `checkUpdate_ok_iff`, `updatedPoints_ok_iff`: the arguments that an update accepts.
* `update_revalidated_of_near`: **an update computes the known pairs again** if the points moved little.
* `partition_ok_iff`, `partition_self_ok_iff`: **when a list is split by types**, and into what.
* `partition_cases`: the parts of a list.
* `Reachable`: the lists that any sequence of these operations leads to.
-/

namespace SmoothedParticles.NeighborList

variable {l l' : NeighborList ℝ} {query : Table ℝ} {reference? : Option (Table ℝ)} {tolerance : ℝ}
  {samples : ℕ} {outcome : UpdateOutcome}

/-- A pair computed again is still one of the same points. -/
theorem indexes_of_revalidatePair {α : Type} [Scalar α] {l : NeighborList α} {new : PointSets α}
    {p q : Pair α} (h : l.revalidatePair new p = some q) :
    q.first = p.first ∧ q.second = p.second := by
  unfold revalidatePair at h
  obtain ⟨-, hq⟩ := Option.ite_none_right_eq_some.1 h
  rw [← Option.some.inj hq]
  exact ⟨rfl, rfl⟩

/-- The conditions of an update that are not about positions. -/
theorem checkUpdate_ok_iff : l.checkUpdate reference? tolerance samples = .ok () ↔
    0 ≤ tolerance ∧ samples ≠ 0 ∧ l.partitioned = false ∧
      (reference?.isSome = true ↔ l.points.reference?.isSome = true) := by
  rw [checkUpdate_eq_ok_iff, Scalar.zero_eq, Scalar.isFinite_eq, eq_self, and_true]

/-- A table of new positions is accepted if it has the old shape, and the points are inside of the box if
there is one. -/
theorem acceptsTable_iff {old : Array (Vec3 ℝ)} {t : Table ℝ} : l.AcceptsTable old t ↔
    t.shape = (old.size, l.dimension.toNat) ∧ ∀ box ∈ l.box?, box.Admits t := by
  constructor
  · rintro ⟨hshape, -, hin⟩
    exact ⟨hshape, fun box hb => Box.covers_iff.1 (hin box hb)⟩
  · rintro ⟨hshape, hin⟩
    exact ⟨hshape, fun p _ => p.isFinite_eq, fun box hb => Box.covers_iff.2 (hin box hb)⟩

/-- The tables of new positions that an update accepts: the shapes are the old ones, and the points
are inside of the box if there is one. -/
theorem updatedPoints_ok_iff {new : PointSets ℝ} : l.updatedPoints query reference? = .ok new ↔
    query.shape = (l.points.query.size, l.dimension.toNat) ∧
      (∀ t ∈ reference?, t.shape = (l.points.reference.size, l.dimension.toNat)) ∧
      (∀ box ∈ l.box?, box.Admits query ∧ ∀ t ∈ reference?, box.Admits t) ∧
      new = ⟨query.points, reference?.map Table.points⟩ := by
  rw [updatedPoints_eq_ok_iff, acceptsTable_iff]
  simp only [acceptsTable_iff]
  constructor
  · rintro ⟨⟨hquery, hin⟩, hreference, rfl⟩
    exact ⟨hquery, fun t ht => (hreference t ht).1,
      fun box hb => ⟨hin box hb, fun t ht => (hreference t ht).2 box hb⟩, rfl⟩
  · rintro ⟨hquery, hreference, hin, rfl⟩
    exact ⟨⟨hquery, fun box hb => (hin box hb).1⟩,
      fun t ht => ⟨hreference t ht, fun box hb => (hin box hb).2 t ht⟩, rfl⟩

/-- A bound on how far each of the sampled points moved bounds the displacement. -/
theorem displacement_le {old new : Array (Vec3 ℝ)} {c : ℝ} (hc : 0 ≤ c)
    (h : ∀ i ∈ sampledIndexes new.size samples,
      (l.nearest (new.getD i .zero - old.getD i .zero)).norm ≤ c) :
    l.displacement old new samples ≤ c := by
  -- on the samples still to come, for any bounded value so far
  have hfold : ∀ (is : List ℕ) (m : ℝ), m ≤ c →
      (∀ i ∈ is, (l.nearest (new.getD i .zero - old.getD i .zero)).norm ≤ c) →
      is.foldl (fun m i =>
        Scalar.maxNum m (l.nearest (new.getD i .zero - old.getD i .zero)).norm) m ≤ c := by
    intro is
    induction is with
    | nil => exact fun m hm _ => hm
    | cons i is ih =>
      intro m hm his
      obtain ⟨hi, his⟩ := List.forall_mem_cons.1 his
      exact ih _ (max_le hm hi) his
  refine hfold _ _ ?_ h
  rw [Scalar.zero_eq]
  exact hc

/-- If the sampled points moved little, an update computes the known pairs again. -/
theorem update_revalidated {new : PointSets ℝ}
    (hcheck : l.checkUpdate reference? tolerance samples = .ok ())
    (hnew : l.updatedPoints query reference? = .ok new)
    (hle : l.totalDisplacement new samples ≤ l.threshold tolerance) :
    (l.update query reference? tolerance samples).result = .ok (l.revalidate new, .revalidated) := by
  obtain ⟨haccepts, rfl⟩ := accepts_iff.2 ⟨hcheck, hnew⟩
  exact update_eq_ok_iff.2 ⟨haccepts, _, rfl, .inl ⟨hle, rfl⟩⟩

/-- **If no sampled point moved by more than half of the skin**, and by no more than the tolerance, an
update of a self list computes the known pairs again. -/
theorem update_revalidated_of_near {new : PointSets ℝ} {full : FullSearch ℝ}
    (hcheck : l.checkUpdate reference? tolerance samples = .ok ())
    (hnew : l.updatedPoints query reference? = .ok new) (hreserve : l.reserve? = some full)
    (hself : full.points.reference? = none) (hskin : 0 ≤ l.options.skin)
    (hnear : ∀ i ∈ sampledIndexes new.query.size samples,
      (l.nearest (new.query.getD i .zero - full.points.query.getD i .zero)).norm ≤
        min tolerance (l.options.skin / 2)) :
    (l.update query reference? tolerance samples).result = .ok (l.revalidate new, .revalidated) := by
  have hbaseline : l.baseline = full := by
    rw [baseline, hreserve, Option.getD_some]
  have hthreshold : l.threshold tolerance = min tolerance (l.options.skin / 2) := by
    rw [threshold, hreserve, Scalar.minNum_eq, div_eq_inv_mul]
    norm_num
  have hmoved : l.totalDisplacement new samples =
      l.displacement full.points.query new.query samples := by
    rw [totalDisplacement, hbaseline, hself]
  refine update_revalidated hcheck hnew ?_
  rw [hmoved, hthreshold]
  exact displacement_le (le_min (checkUpdate_ok_iff.1 hcheck).1 (by linarith)) hnear

section Parts

variable {α : Type} [Scalar α] {l : NeighborList α} {types : Array ℤ} {referenceTypes? : Option (Array ℤ)}
  {parts : TypePartition α} {p : Pair α}

theorem mem_pairs_iff :
    p ∈ l.pairs ↔ ∃ (i : ℕ) (row : List (Pair α)), l.rows[i]? = some row ∧ p ∈ row := by
  rw [pairs, List.mem_flatten]
  constructor
  · rintro ⟨row, hrow, hp⟩
    obtain ⟨i, hi⟩ := List.getElem?_of_mem hrow
    rw [Array.getElem?_toList] at hi
    exact ⟨i, row, hi, hp⟩
  · rintro ⟨i, row, hi, hp⟩
    exact ⟨row, Array.mem_toList_iff.2 (Array.mem_of_getElem? hi), hp⟩

theorem pairs_filterPart (keep : Pair α → Bool) : (l.filterPart keep).pairs = l.pairs.filter keep := by
  rw [pairs, pairs, List.filter_flatten, ← Array.toList_map]
  rfl

/-- The types of the reference points are asked for exactly if these are points of their own. -/
theorem referenceTypes_ok_iff {rtypes : Array ℤ} :
    l.referenceTypes types referenceTypes? = .ok rtypes ↔
      (referenceTypes?.isSome = true ↔ l.points.reference?.isSome = true) ∧
        (∀ r ∈ referenceTypes?, r.size = l.nReference) ∧ referenceTypes?.getD types = rtypes := by
  unfold referenceTypes isSelf
  cases l.points.reference? with
  | none => cases referenceTypes? <;> simp
  | some rs =>
    cases referenceTypes? with
    | none => simp
    | some given => by_cases hsize : given.size = l.nReference <;> simp [hsize]

/-- **When a list is split by types**, and into what. -/
theorem partition_ok_iff : l.partition types referenceTypes? = .ok parts ↔
    types.size = l.nQuery ∧
      (referenceTypes?.isSome = true ↔ l.points.reference?.isSome = true) ∧
      (∀ r ∈ referenceTypes?, r.size = l.nReference) ∧
      parts = l.splitByTypes types (referenceTypes?.getD types) := by
  unfold partition
  simp only [mismatch_bind, ite_mismatch_iff, bind_eq_ok_iff, pure_eq_ok_iff, not_not,
    referenceTypes_ok_iff]
  constructor
  · rintro ⟨hsize, _, ⟨hsides, hreference, rfl⟩, rfl⟩
    exact ⟨hsize, hsides, hreference, rfl⟩
  · rintro ⟨hsize, hsides, hreference, rfl⟩
    exact ⟨hsize, _, ⟨hsides, hreference, rfl⟩, rfl⟩

/-- A list over one set of points is split by one list of types. -/
theorem partition_self_ok_iff (hself : l.points.reference? = none) :
    l.partition types referenceTypes? = .ok parts ↔
      types.size = l.nQuery ∧ referenceTypes? = none ∧ parts = l.splitByTypes types types := by
  rw [partition_ok_iff, hself]
  refine and_congr_right fun _ => ?_
  cases referenceTypes? <;> simp

/-- **What a split by types gives**: parts of the list with some of its pairs. -/
theorem partition_cases (h : l.partition types referenceTypes? = .ok parts) :
    (∃ keep, parts.same = l.filterPart keep) ∧ (∃ keep, parts.cross = l.filterPart keep) ∧
      ∀ s t part, parts.get? s t = some part → ∃ keep, part = l.filterPart keep := by
  obtain ⟨-, -, -, rfl⟩ := partition_ok_iff.1 h
  refine ⟨⟨_, rfl⟩, ⟨_, rfl⟩, fun s t part hpart => ?_⟩
  obtain ⟨before, after, hsplit, -⟩ := List.lookup_eq_some_iff.1 hpart
  have hmem : ((s, t), part) ∈ before ++ ((s, t), part) :: after :=
    List.mem_append_right _ List.mem_cons_self
  rw [← hsplit] at hmem
  obtain ⟨_, -, heq⟩ := List.mem_map.1 hmem
  exact ⟨_, (Prod.mk.inj heq).2.symm⟩

end Parts

/-- **The lists that can come about**, by any number of operations. -/
inductive Reachable : NeighborList ℝ → Prop
  | direct {o : SearchOptions ℝ} {query : Table ℝ} {reference? : Option (Table ℝ)} {f : PairFilter}
      {l : NeighborList ℝ} :
      (NeighborList.direct o query reference? f).result = .ok l → Reachable l
  | periodic {box : Box ℝ} {o : SearchOptions ℝ} {query : Table ℝ} {reference? : Option (Table ℝ)}
      {f : PairFilter} {l : NeighborList ℝ} :
      (NeighborList.periodic box o query reference? f).result = .ok l → Reachable l
  | update {l l' : NeighborList ℝ} {query : Table ℝ} {reference? : Option (Table ℝ)} {tolerance : ℝ}
      {samples : ℕ} {outcome : UpdateOutcome} : Reachable l →
      (l.update query reference? tolerance samples).result = .ok (l', outcome) → Reachable l'
  | same {l : NeighborList ℝ} {types : Array ℤ} {referenceTypes? : Option (Array ℤ)}
      {parts : TypePartition ℝ} : Reachable l →
      l.partition types referenceTypes? = .ok parts → Reachable parts.same
  | cross {l : NeighborList ℝ} {types : Array ℤ} {referenceTypes? : Option (Array ℤ)}
      {parts : TypePartition ℝ} : Reachable l →
      l.partition types referenceTypes? = .ok parts → Reachable parts.cross
  | ofTypes {l part : NeighborList ℝ} {types : Array ℤ} {referenceTypes? : Option (Array ℤ)}
      {parts : TypePartition ℝ} {s t : ℤ} : Reachable l →
      l.partition types referenceTypes? = .ok parts → parts.get? s t = some part → Reachable part

end SmoothedParticles.NeighborList
