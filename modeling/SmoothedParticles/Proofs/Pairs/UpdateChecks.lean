import SmoothedParticles.Proofs.Pairs.Construction
import SmoothedParticles.Proofs.Space.Inside
import SmoothedParticles.Pairs.Update

/-!
# The arguments that an update accepts

An update checks its arguments before it looks at any pair. The checks in closed form, in any arithmetic:
numbers can be undefined or infinite here.

* `AcceptsTable`, `Accepts`: the tables, and all arguments, that pass the checks.
* `checkUpdate_eq_ok_iff`, `updatedPoints_eq_ok_iff`, `accepts_iff`: what the checks let pass.
* `Accepts.sizes`: the numbers of points stay what they were.
* `update_eq_ok_iff`: **when an update succeeds**, and what it does.
-/

namespace SmoothedParticles.NeighborList

variable {α : Type} [Scalar α] {l : NeighborList α} {query t : Table α} {reference? : Option (Table α)}
  {tolerance : α} {samples : ℕ} {side : Side} {old ps : Array (Vec3 α)} {new : PointSets α}

/-- **New positions that an update accepts** for the points of a side: as many as before, finite, and
inside of the box if there is one. -/
structure AcceptsTable (l : NeighborList α) (old : Array (Vec3 α)) (t : Table α) : Prop where
  shape : t.shape = (old.size, l.dimension.toNat)
  finite : ∀ p ∈ t.points, p.isFinite = true
  inside : ∀ box ∈ l.box?, box.Covers t

/-- **The arguments that an update accepts.** -/
structure Accepts (l : NeighborList α) (query : Table α) (reference? : Option (Table α)) (tolerance : α)
    (samples : ℕ) : Prop where
  tolerance : 0 ≤ tolerance ∧ Scalar.isFinite tolerance = true
  samples : samples ≠ 0
  whole : l.partitioned = false
  /-- There are new reference points exactly if the list has some of its own. -/
  sides : reference?.isSome = true ↔ l.points.reference?.isSome = true
  query : l.AcceptsTable l.points.query query
  reference : ∀ t ∈ reference?, l.AcceptsTable l.points.reference t

theorem checkUpdate_eq_ok_iff : l.checkUpdate reference? tolerance samples = .ok () ↔
    (0 ≤ tolerance ∧ Scalar.isFinite tolerance = true) ∧ samples ≠ 0 ∧ l.partitioned = false ∧
      (reference?.isSome = true ↔ l.points.reference?.isSome = true) := by
  unfold checkUpdate
  simp only [invalid_bind, ite_invalid_iff, not_not, Bool.not_eq_true, isSelf]
  cases reference? <;> cases l.points.reference? <;> simp

theorem movedPoints_eq_ok_iff : l.movedPoints side old t = .ok ps ↔
    t.shape = (old.size, l.dimension.toNat) ∧ (∀ p ∈ t.points, p.isFinite = true) ∧ t.points = ps := by
  unfold movedPoints
  simp only [mismatch_bind, ite_mismatch_iff, not_not, bind_eq_ok_iff, Prod.exists,
    PointSet.ofTable_ok_iff, pure_eq_ok_iff]
  refine and_congr_right fun hshape => ?_
  have hd : Dimension.ofNat? t.columns = some l.dimension := by
    rw [show t.columns = l.dimension.toNat from congrArg Prod.snd hshape, Dimension.ofNat?_toNat]
  rw [hd]
  constructor
  · intro h
    obtain ⟨_, _, ⟨-, hfinite, rfl⟩, h⟩ := h
    exact ⟨hfinite, h⟩
  · intro h
    exact ⟨l.dimension, ps, ⟨rfl, h⟩, rfl⟩

theorem checkBox_eq_ok_iff : l.checkBox t = .ok () ↔ ∀ box ∈ l.box?, box.Covers t := by
  unfold checkBox
  cases l.box? with
  | none => exact iff_of_true rfl forall_mem_none
  | some box =>
    simp only [bind_eq_ok_iff, Box.checkInside_eq_ok_iff, pure_eq_ok_iff, Option.mem_def,
      Option.some.injEq, forall_eq']
    constructor
    · intro h
      obtain ⟨_, ⟨ht, -⟩, -⟩ := h
      exact ht
    · intro ht
      exact ⟨t.points, ⟨ht, rfl⟩, trivial⟩

/-- **The new positions of both sides** are taken if both tables are accepted. -/
theorem updatedPoints_eq_ok_iff : l.updatedPoints query reference? = .ok new ↔
    l.AcceptsTable l.points.query query ∧
      (∀ t ∈ reference?, l.AcceptsTable l.points.reference t) ∧
      new = ⟨query.points, reference?.map Table.points⟩ := by
  have hmoved : ∀ t ps, l.movedPoints .reference l.points.reference t = .ok ps ↔
      (t.shape = (l.points.reference.size, l.dimension.toNat) ∧ ∀ p ∈ t.points, p.isFinite = true) ∧
        t.points = ps :=
    fun t ps => movedPoints_eq_ok_iff.trans and_assoc.symm
  unfold updatedPoints
  simp only [bind_eq_ok_iff, movedPoints_eq_ok_iff, option_mapM_eq_ok_iff hmoved, pure_eq_ok_iff]
  constructor
  · intro h
    obtain ⟨_, ⟨hshape, hfinite, rfl⟩, _, ⟨hreference, rfl⟩, _, hin, _, hin', rfl⟩ := h
    refine ⟨⟨hshape, hfinite, checkBox_eq_ok_iff.1 hin⟩, fun t ht => ?_, rfl⟩
    exact ⟨(hreference t ht).1, (hreference t ht).2,
      checkBox_eq_ok_iff.1 (option_forM_eq_ok_iff.1 hin' t ht)⟩
  · intro h
    obtain ⟨⟨hshape, hfinite, hin⟩, hreference, rfl⟩ := h
    have hin' : reference?.forM l.checkBox = .ok () := option_forM_eq_ok_iff.2 fun t ht =>
      checkBox_eq_ok_iff.2 (hreference t ht).inside
    exact ⟨query.points, ⟨hshape, hfinite, rfl⟩, _,
      ⟨fun t ht => ⟨(hreference t ht).shape, (hreference t ht).finite⟩, rfl⟩, (),
      checkBox_eq_ok_iff.2 hin, (), hin', rfl⟩

/-- **No points come or go** when positions are accepted. -/
theorem Accepts.sizes (h : l.Accepts query reference? tolerance samples) :
    query.points.size = l.points.query.size ∧
      (⟨query.points, reference?.map Table.points⟩ : PointSets α).reference.size =
        l.points.reference.size := by
  have hq : query.points.size = l.points.query.size := by
    rw [Table.size_points]
    exact congrArg Prod.fst h.query.shape
  refine ⟨hq, ?_⟩
  rw [PointSets.reference_map_points]
  cases reference? with
  | none =>
    have hnone : l.points.reference? = none :=
      Option.not_isSome_iff_eq_none.1 fun hsome => Bool.false_ne_true (h.sides.2 hsome)
    rw [PointSets.reference_of_none hnone]
    exact hq
  | some t =>
    rw [Option.getD_some, Table.size_points]
    exact congrArg Prod.fst (h.reference t rfl).shape

/-- Accepted points are taken by a list without periodic boundaries. -/
theorem Accepts.pointSets_eq (h : l.Accepts query reference? tolerance samples) :
    pointSets query reference? = .ok (l.dimension, ⟨query.points, reference?.map Table.points⟩) := by
  have hcolumns : query.columns = l.dimension.toNat := congrArg Prod.snd h.query.shape
  refine pointSets_ok_iff.2
    ⟨?_, fun t ht => ?_, h.query.finite, fun t ht => (h.reference t ht).finite, rfl⟩
  · rw [hcolumns, Dimension.ofNat?_toNat]
  · rw [hcolumns]
    exact congrArg Prod.snd (h.reference t ht).shape

theorem Accepts.finite_reference (h : l.Accepts query reference? tolerance samples) :
    ∀ p ∈ (⟨query.points, reference?.map Table.points⟩ : PointSets α).reference,
      p.isFinite = true := by
  rw [PointSets.reference_map_points]
  cases reference? with
  | none => exact h.query.finite
  | some t => exact (h.reference t rfl).finite

/-- The arguments are accepted exactly if all checks succeed. -/
theorem accepts_iff : l.Accepts query reference? tolerance samples ∧
      new = ⟨query.points, reference?.map Table.points⟩ ↔
    l.checkUpdate reference? tolerance samples = .ok () ∧ l.updatedPoints query reference? = .ok new := by
  rw [checkUpdate_eq_ok_iff, updatedPoints_eq_ok_iff]
  constructor
  · rintro ⟨⟨htolerance, hsamples, hwhole, hsides, hquery, hreference⟩, hnew⟩
    exact ⟨⟨htolerance, hsamples, hwhole, hsides⟩, hquery, hreference, hnew⟩
  · rintro ⟨⟨htolerance, hsamples, hwhole, hsides⟩, hquery, hreference, hnew⟩
    exact ⟨⟨htolerance, hsamples, hwhole, hsides, hquery, hreference⟩, hnew⟩

/-- **What an update does** if it accepts its arguments; otherwise it fails. -/
theorem update_eq_ok_iff {r : NeighborList α × UpdateOutcome} :
    (l.update query reference? tolerance samples).result = .ok r ↔
      l.Accepts query reference? tolerance samples ∧
        ∃ new : PointSets α, new = ⟨query.points, reference?.map Table.points⟩ ∧
          (l.totalDisplacement new samples ≤ l.threshold tolerance ∧
              r = (l.revalidate new, .revalidated) ∨
            ¬l.totalDisplacement new samples ≤ l.threshold tolerance ∧ ∃ list,
              (build l.box? l.options query reference? l.filter).result = .ok list ∧
                r = (list, .rebuilt)) := by
  rw [result_update]
  simp only [bind_eq_ok_iff]
  constructor
  · rintro ⟨_, hcheck, new, hmoved, h⟩
    obtain ⟨haccepts, hnew⟩ := accepts_iff.2 ⟨hcheck, hmoved⟩
    refine ⟨haccepts, new, hnew, ?_⟩
    split_ifs at h with hle
    · exact .inl ⟨hle, (Except.ok.inj h).symm⟩
    · obtain ⟨list, hlist, h⟩ := bind_eq_ok_iff.1 h
      exact .inr ⟨hle, list, hlist, (Except.ok.inj h).symm⟩
  · rintro ⟨haccepts, new, hnew, h⟩
    obtain ⟨hcheck, hmoved⟩ := accepts_iff.1 ⟨haccepts, hnew⟩
    refine ⟨(), hcheck, new, hmoved, ?_⟩
    rcases h with ⟨hle, rfl⟩ | ⟨hle, list, hlist, rfl⟩
    · rw [if_pos hle]
      rfl
    · rw [if_neg hle]
      exact bind_eq_ok_iff.2 ⟨list, hlist, rfl⟩

end SmoothedParticles.NeighborList
