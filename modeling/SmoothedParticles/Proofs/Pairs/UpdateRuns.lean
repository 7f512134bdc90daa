import SmoothedParticles.Proofs.Pairs.RowInvariant

/-!
# Runs of updates

A list is built from scratch, and then updated any number of times. An update that builds a list from
scratch is a full search, as the construction was. The updates in between compute known pairs again.

* `StaysWithin`: no point is further than a distance from where it was.
* `UpdateRun`: a list after some updates, and the points of the last full search.
* `mem_sampledIndexes`: with as many samples as points, all points are looked at.
* `SearchedAt`, `UpdateRun.searchedAt`: **what a list keeps of the last full search**, whatever the
  updates since then were.
* `SearchedAt.update_cases`, `SearchedAt.update_revalidated`: what the next update does.
* `SearchedAt.staysWithin_baseline`: **what an update that looks at all points makes sure of** before it
  computes known pairs again.
-/

namespace SmoothedParticles.NeighborList

/-- The nearest image of a separation; without a box, the separation itself. -/
noncomputable def nearestIn (box? : Option (Box ℝ)) (v : Vec3 ℝ) : Vec3 ℝ :=
  box?.elim v fun box => box.nearestImage v

/-- A point that has not moved is at no distance. -/
theorem norm_nearestIn_sub_self (box? : Option (Box ℝ)) (v : Vec3 ℝ) :
    (nearestIn box? (v - v)).norm = 0 := by
  have hzero : nearestIn box? (v - v) = .zero := by
    refine Vec3.ext_get fun a => ?_
    rw [Vec3.get_zero, nearestIn]
    cases box? with
    | none => rw [Option.elim_none, Vec3.get_sub, sub_self]
    | some box =>
      rw [Option.elim_some, Box.nearestImage, Vec3.get_ofFn, Vec3.get_sub, sub_self]
      split_ifs
      · simp [SmoothedParticles.nearestImage]
      · rfl
  rw [hzero, Vec3.norm_zero]

/-- Had each of the points a position before, no further away than `c`? -/
def NearOld (box? : Option (Box ℝ)) (c : ℝ) (old new : Array (Vec3 ℝ)) : Prop :=
  ∀ (i : ℕ) y, new[i]? = some y → ∃ x, old[i]? = some x ∧ (nearestIn box? (y - x)).norm ≤ c

/-- **No point of either side is further than `c`** from where it was, up to whole box lengths. -/
structure StaysWithin (box? : Option (Box ℝ)) (c : ℝ) (old new : PointSets ℝ) : Prop where
  query : NearOld box? c old.query new.query
  reference : NearOld box? c old.reference new.reference

theorem StaysWithin.mono {box? : Option (Box ℝ)} {c c' : ℝ} {old new : PointSets ℝ} (hc : c ≤ c')
    (h : StaysWithin box? c old new) : StaysWithin box? c' old new := by
  have hside : ∀ olds news, NearOld box? c olds news → NearOld box? c' olds news := by
    intro olds news h i y hy
    obtain ⟨x, hx, hle⟩ := h i y hy
    exact ⟨x, hx, hle.trans hc⟩
  exact ⟨hside _ _ h.query, hside _ _ h.reference⟩

/-- As many points as before, on as many sides. -/
structure SameShape (old new : PointSets ℝ) : Prop where
  query : new.query.size = old.query.size
  reference : new.reference.size = old.reference.size
  sides : new.reference?.isSome = old.reference?.isSome

theorem SameShape.trans {p q r : PointSets ℝ} (h : SameShape p q) (h' : SameShape q r) :
    SameShape p r :=
  ⟨h'.query.trans h.query, h'.reference.trans h.reference, h'.sides.trans h.sides⟩

/-- **A list after a run of updates**: it was built with some options in a box or without one, and then
updated any number of times. The last full search was over the points `searched`. -/
inductive UpdateRun (box? : Option (Box ℝ)) (o : SearchOptions ℝ) (f : PairFilter) :
    PointSets ℝ → NeighborList ℝ → Prop
  | built {query : Table ℝ} {reference? : Option (Table ℝ)} {l : NeighborList ℝ} :
      (build box? o query reference? f).result = .ok l → UpdateRun box? o f l.points l
  | revalidated {searched : PointSets ℝ} {l l' : NeighborList ℝ} {query : Table ℝ}
      {reference? : Option (Table ℝ)} {tolerance : ℝ} {samples : ℕ} :
      UpdateRun box? o f searched l →
      (l.update query reference? tolerance samples).result = .ok (l', .revalidated) →
      UpdateRun box? o f searched l'
  | rebuilt {searched : PointSets ℝ} {l l' : NeighborList ℝ} {query : Table ℝ}
      {reference? : Option (Table ℝ)} {tolerance : ℝ} {samples : ℕ} :
      UpdateRun box? o f searched l →
      (l.update query reference? tolerance samples).result = .ok (l', .rebuilt) →
      UpdateRun box? o f l'.points l'

section Samples

variable {n samples i : ℕ}

/-- **With as many samples as points**, all points are looked at. -/
theorem mem_sampledIndexes (hn : n ≤ samples) (hi : i < n) : i ∈ sampledIndexes n samples := by
  have hstride : max (n / samples) 1 = 1 := by
    rw [max_eq_right]
    rcases hn.lt_or_eq with h | h
    · rw [Nat.div_eq_of_lt h]
      exact zero_le_one
    · rw [h, Nat.div_self (by omega)]
  simp only [sampledIndexes, hstride, Nat.div_one, mul_one, List.map_id', List.mem_range]
  omega

theorem lt_of_mem_sampledIndexes (hi : i ∈ sampledIndexes n samples) : i < n := by
  obtain ⟨k, hk, rfl⟩ := List.mem_map.1 hi
  have hstride : 0 < max (n / samples) 1 := lt_of_lt_of_le one_pos (le_max_right _ _)
  have hk := (List.mem_range.1 hk).trans_le (min_le_right _ _)
  rw [Nat.lt_div_iff_mul_lt hstride] at hk
  omega

variable {l : NeighborList ℝ} {old new : Array (Vec3 ℝ)}

/-- The displacement is that of each of the sampled points at least. -/
theorem le_displacement (hi : i ∈ sampledIndexes new.size samples) :
    (l.nearest (new.getD i .zero - old.getD i .zero)).norm ≤ l.displacement old new samples := by
  -- on the samples, for any value so far; the maximum does not decrease
  have hfold : ∀ (is : List ℕ) (m : ℝ),
      let M := is.foldl (fun m i =>
        Scalar.maxNum m (l.nearest (new.getD i .zero - old.getD i .zero)).norm) m
      m ≤ M ∧ ∀ i ∈ is, (l.nearest (new.getD i .zero - old.getD i .zero)).norm ≤ M := by
    intro is
    induction is with
    | nil => exact fun m => ⟨le_rfl, fun i hi => absurd hi List.not_mem_nil⟩
    | cons i is ih =>
      intro m
      obtain ⟨hm, his⟩ :=
        ih (Scalar.maxNum m (l.nearest (new.getD i .zero - old.getD i .zero)).norm)
      rw [Scalar.maxNum_eq, max_le_iff] at hm
      exact ⟨hm.1, List.forall_mem_cons.2 ⟨hm.2, his⟩⟩
  exact (hfold _ _).2 i hi

theorem nearest_eq_nearestIn (l : NeighborList ℝ) : l.nearest = nearestIn l.box? := by
  funext v
  unfold nearest nearestIn
  cases l.box? <;> rfl

/-- If all points are sampled, none is further from its old position than the displacement. -/
theorem nearOld_of_sampled {c : ℝ} (hsize : new.size = old.size) (hn : new.size ≤ samples)
    (hle : l.displacement old new samples ≤ c) : NearOld l.box? c old new := by
  intro i y hy
  have hi := (Array.getElem?_eq_some_iff.1 hy).1
  have hx : old[i]? = some old[i] := Array.getElem?_eq_getElem (hsize ▸ hi)
  refine ⟨_, hx, ?_⟩
  have h := (le_displacement (mem_sampledIndexes hn hi)).trans hle
  rwa [Array.getD_eq_getD_getElem?, Array.getD_eq_getD_getElem?, hx, hy, nearest_eq_nearestIn] at h

/-- **If all points are sampled**, the displacement bounds how far each of them is from its position at
the last full search. -/
theorem staysWithin_of_sampled {points : PointSets ℝ} {c : ℝ}
    (hshape : SameShape l.baseline.points points) (hquery : points.query.size ≤ samples)
    (hreference : points.reference.size ≤ samples)
    (hle : l.totalDisplacement points samples ≤ c) :
    StaysWithin l.box? c l.baseline.points points := by
  obtain ⟨hq, hr, hsides⟩ := hshape
  unfold totalDisplacement at hle
  cases hold : l.baseline.points.reference? with
  | none =>
    have hnew : points.reference? = none := by simpa [hold] using hsides
    simp only [hold] at hle
    have h := nearOld_of_sampled hq hquery hle
    refine ⟨h, ?_⟩
    rwa [PointSets.reference_of_none hold, PointSets.reference_of_none hnew]
  | some rs =>
    obtain ⟨rs', hnew⟩ : ∃ rs', points.reference? = some rs' :=
      Option.isSome_iff_exists.1 (by rw [hsides, hold]; rfl)
    simp only [hold, hnew, Scalar.maxNum_eq, max_le_iff] at hle
    simp only [PointSets.reference, hold, hnew, Option.getD_some] at hr hreference
    refine ⟨nearOld_of_sampled hq hquery hle.1, ?_⟩
    simp only [PointSets.reference, hold, hnew, Option.getD_some]
    exact nearOld_of_sampled hr hreference hle.2

end Samples

/-- All pairs that a full search finds, in a box or without one. -/
noncomputable def foundRows (box? : Option (Box ℝ)) (o : SearchOptions ℝ) (f : PairFilter)
    (points : PointSets ℝ) : Array (List (Pair ℝ)) :=
  match box? with
  | none => directRows o f points
  | some box => points.query.mapIdx (periodicRow box o f points)

/-- **What a list keeps of its last full search**: its arguments, and with a skin also its pairs and
points. -/
structure SearchedAt (box? : Option (Box ℝ)) (o : SearchOptions ℝ) (f : PairFilter)
    (searched : PointSets ℝ) (l : NeighborList ℝ) : Prop where
  valid : o.Valid
  options : l.options = o
  filter : l.filter = f
  box : l.box? = box?
  fits : f.Fits searched.query.size searched.reference.size
  whole : l.partitioned = false
  shape : SameShape searched l.points
  reserve : l.reserve? = if 0 < o.skin then some ⟨foundRows box? o f searched, searched⟩ else none

variable {box? : Option (Box ℝ)} {o : SearchOptions ℝ} {f : PairFilter} {searched : PointSets ℝ}
  {l l' : NeighborList ℝ} {query : Table ℝ} {reference? : Option (Table ℝ)} {tolerance : ℝ}
  {samples : ℕ} {outcome : UpdateOutcome}

theorem searchedAt_ofRows {d : Dimension} (ho : o.Valid)
    (hf : f.Fits searched.query.size searched.reference.size) :
    SearchedAt box? o f searched (ofRows o f d searched box? (foundRows box? o f searched)) where
  valid := ho
  options := options_ofRows
  filter := filter_ofRows
  box := box?_ofRows
  fits := hf
  whole := partitioned_ofRows
  shape := by
    rw [points_ofRows]
    exact ⟨rfl, rfl, rfl⟩
  reserve := reserve?_ofRows

/-- **A list built from scratch** keeps the search that it was built by. -/
theorem searchedAt_build (h : (build box? o query reference? f).result = .ok l) :
    l.points = ⟨query.points, reference?.map Table.points⟩ ∧ SearchedAt box? o f l.points l := by
  cases box? with
  | none =>
    obtain ⟨ho, d, points, -, -, rfl, hf, rfl⟩ := direct_ok_iff.1 h
    refine ⟨points_ofRows, ?_⟩
    rw [points_ofRows]
    exact searchedAt_ofRows ho hf
  | some box =>
    obtain ⟨ho, -, -, -, points, rfl, hf, rfl⟩ := periodic_ok_iff.1 h
    refine ⟨points_ofRows, ?_⟩
    rw [points_ofRows]
    exact searchedAt_ofRows ho hf

theorem tolerance_nonneg_of_update
    (hupdate : (l.update query reference? tolerance samples).result = .ok (l', outcome)) :
    0 ≤ tolerance := by
  have htolerance := (update_eq_ok_iff.1 hupdate).1.tolerance.1
  rwa [Scalar.zero_eq] at htolerance

namespace SearchedAt

/-- Computing the pairs again changes nothing of what is kept. -/
theorem revalidate (h : SearchedAt box? o f searched l) {new : PointSets ℝ}
    (hnew : SameShape l.points new) : SearchedAt box? o f searched (l.revalidate new) where
  valid := h.valid
  options := h.options
  filter := h.filter
  box := h.box
  fits := h.fits
  whole := rfl
  shape := h.shape.trans hnew
  reserve := h.reserve

/-- **What the next update does** if it succeeds. -/
theorem update_cases (h : SearchedAt box? o f searched l)
    (hupdate : (l.update query reference? tolerance samples).result = .ok (l', outcome)) :
    ∃ new : PointSets ℝ, new = ⟨query.points, reference?.map Table.points⟩ ∧
      SameShape l.points new ∧ l'.points = new ∧ query.columns = l.dimension.toNat ∧
      (∀ t ∈ reference?, t.columns = query.columns) ∧
      (l' = l.revalidate new ∧ outcome = .revalidated ∧
          l.totalDisplacement new samples ≤ l.threshold tolerance ∨
        (build box? o query reference? f).result = .ok l' ∧ outcome = .rebuilt) := by
  obtain ⟨haccepts, new, rfl, hcases⟩ := update_eq_ok_iff.1 hupdate
  obtain ⟨hq, hr⟩ := haccepts.sizes
  have hcolumns : query.columns = l.dimension.toNat := congrArg Prod.snd haccepts.query.shape
  have hshape : SameShape l.points ⟨query.points, reference?.map Table.points⟩ := by
    refine ⟨hq, hr, ?_⟩
    rw [Option.isSome_map]
    exact Bool.eq_iff_iff.2 haccepts.sides
  refine ⟨_, rfl, hshape, ?_, hcolumns, fun t ht => ?_, ?_⟩
  · rcases hcases with ⟨-, heq⟩ | ⟨-, list, hbuild, heq⟩ <;> rw [(Prod.mk.inj heq).1]
    · rfl
    · exact (searchedAt_build hbuild).1
  · rw [hcolumns]
    exact congrArg Prod.snd (haccepts.reference t ht).shape
  · rcases hcases with ⟨hle, heq⟩ | ⟨-, list, hbuild, heq⟩ <;> obtain ⟨rfl, rfl⟩ := Prod.mk.inj heq
    · exact .inl ⟨rfl, rfl, hle⟩
    · rw [h.box, h.options, h.filter] at hbuild
      exact .inr ⟨hbuild, rfl⟩

/-- The displacement is measured from the points of the last full search if there is a skin, and from
those of the list itself otherwise. -/
theorem points_baseline (h : SearchedAt box? o f searched l) :
    l.baseline.points = if 0 < o.skin then searched else l.points := by
  rw [baseline, h.reserve]
  split_ifs <;> rfl

theorem threshold_eq (h : SearchedAt box? o f searched l) (htolerance : 0 ≤ tolerance) :
    l.threshold tolerance = min tolerance (o.skin / 2) := by
  have hhalf : (0.5 : ℝ) * o.skin = o.skin / 2 := by
    norm_num
    ring
  rw [threshold, h.reserve, h.options]
  by_cases hskin : 0 < o.skin
  · rw [if_pos hskin, Option.isSome_some, if_pos rfl, Scalar.minNum_eq, hhalf]
  · -- without a skin nothing may move
    have hzero : o.skin = 0 := le_antisymm (not_lt.1 hskin) h.valid.skin_nonneg
    rw [if_neg hskin, Option.isSome_none, if_neg Bool.false_ne_true, hzero, zero_div,
      min_eq_right htolerance, Scalar.zero_eq]

/-- **If an update looks at all points and computes known pairs again**, no point is further than the
threshold from where the displacement is measured. -/
theorem staysWithin_baseline (h : SearchedAt box? o f searched l)
    (hupdate : (l.update query reference? tolerance samples).result = .ok (l', .revalidated))
    (hquery : query.size ≤ samples) (hreference : ∀ t ∈ reference?, t.size ≤ samples) :
    StaysWithin box? (min tolerance (o.skin / 2)) l.baseline.points l'.points := by
  obtain ⟨new, hnew, hshape, hpoints, -, -, ⟨-, -, hle⟩ | ⟨-, hne⟩⟩ := h.update_cases hupdate
  · have hbase : SameShape l.baseline.points new := by
      rw [h.points_baseline]
      split_ifs
      · exact h.shape.trans hshape
      · exact hshape
    have hq : new.query.size ≤ samples := by
      rw [hnew, Table.size_points]
      exact hquery
    have hr : new.reference.size ≤ samples := by
      rw [hnew, PointSets.reference_map_points, Table.size_points]
      cases reference? with
      | none => exact hquery
      | some t => exact hreference t rfl
    rw [h.threshold_eq (tolerance_nonneg_of_update hupdate)] at hle
    rw [hpoints, ← h.box]
    exact staysWithin_of_sampled hbase hq hr hle
  · cases hne

/-- **If the sampled points of a self list moved little**, an update computes known pairs again. -/
theorem update_revalidated (h : SearchedAt box? o f searched l) (hself : searched.reference? = none)
    (htolerance : 0 ≤ tolerance) (hsamples : samples ≠ 0)
    (hshape : query.shape = (l.points.query.size, l.dimension.toNat))
    (hin : ∀ box ∈ box?, box.Admits query)
    (hnear : ∀ i ∈ sampledIndexes query.points.size samples,
      (nearestIn box? (query.points.getD i .zero - l.baseline.points.query.getD i .zero)).norm ≤
        min tolerance (o.skin / 2)) :
    (l.update query none tolerance samples).result =
      .ok (l.revalidate ⟨query.points, none⟩, .revalidated) := by
  have hnone : l.points.reference? = none := by
    have hsides := h.shape.sides
    rw [hself] at hsides
    exact Option.not_isSome_iff_eq_none.1 fun hsome => Bool.false_ne_true (hsides.symm.trans hsome)
  have hcheck : l.checkUpdate none tolerance samples = .ok () :=
    checkUpdate_ok_iff.2 ⟨htolerance, hsamples, h.whole, by rw [hnone]; exact Iff.rfl⟩
  have hnew : l.updatedPoints query none = .ok ⟨query.points, none⟩ := by
    refine updatedPoints_ok_iff.2 ⟨hshape, forall_mem_none, fun box hb => ⟨?_, forall_mem_none⟩, rfl⟩
    rw [h.box] at hb
    exact hin box hb
  have hbase : l.baseline.points.reference? = none := by
    rw [h.points_baseline]
    split_ifs
    · exact hself
    · exact hnone
  refine NeighborList.update_revalidated hcheck hnew ?_
  rw [h.threshold_eq htolerance, totalDisplacement, hbase]
  refine displacement_le (le_min htolerance ?_) ?_
  · exact div_nonneg h.valid.skin_nonneg zero_le_two
  · rw [nearest_eq_nearestIn, h.box]
    exact hnear

/-- **The same update once more**, with other samples. Without a skin it always computes known pairs
again, since displacements are now measured from the same positions. -/
theorem update_again (h : SearchedAt box? o f searched l) (hself : searched.reference? = none)
    (hupdate : (l.update query none tolerance samples).result = .ok (l', .revalidated))
    {samples' : ℕ} (hsamples : samples' ≠ 0)
    (hnear : 0 < o.skin → ∀ i ∈ sampledIndexes query.points.size samples',
      (nearestIn box? (query.points.getD i .zero - searched.query.getD i .zero)).norm ≤
        min tolerance (o.skin / 2)) :
    (l'.update query none tolerance samples').result =
      .ok (l'.revalidate ⟨query.points, none⟩, .revalidated) := by
  have htolerance := tolerance_nonneg_of_update hupdate
  obtain ⟨haccepts, -⟩ := update_eq_ok_iff.1 hupdate
  obtain ⟨_, rfl, hshape, -, -, -, ⟨rfl, -⟩ | ⟨-, hne⟩⟩ := h.update_cases hupdate
  · have hquery := haccepts.query.shape
    have h' := h.revalidate hshape
    refine h'.update_revalidated hself htolerance hsamples ?_ (fun box hb => ?_) ?_
    · show query.shape = (query.points.size, l.dimension.toNat)
      rw [hquery, Table.size_points]
      exact congrArg (·, l.dimension.toNat) (congrArg Prod.fst hquery).symm
    · rw [← h.box] at hb
      exact Box.covers_iff.1 (haccepts.query.inside box hb)
    · rw [h'.points_baseline]
      split_ifs with hskin
      · exact hnear hskin
      · intro i _
        show (nearestIn box? (query.points.getD i .zero - query.points.getD i .zero)).norm ≤ _
        rw [norm_nearestIn_sub_self]
        exact le_min htolerance (div_nonneg h.valid.skin_nonneg zero_le_two)
  · cases hne

end SearchedAt

/-- **Whatever the updates were**, a list keeps the last full search. -/
theorem UpdateRun.searchedAt (h : UpdateRun box? o f searched l) :
    SearchedAt box? o f searched l := by
  -- on the updates; each keeps the search or makes a new one
  induction h with
  | built h => exact (searchedAt_build h).2
  | revalidated _ h ih =>
    obtain ⟨new, -, hshape, -, -, -, ⟨rfl, -⟩ | ⟨-, hne⟩⟩ := ih.update_cases h
    · exact ih.revalidate hshape
    · cases hne
  | rebuilt _ h ih =>
    obtain ⟨new, -, -, -, -, -, ⟨-, hne, -⟩ | ⟨hbuild, -⟩⟩ := ih.update_cases h
    · cases hne
    · exact (searchedAt_build hbuild).2

end SmoothedParticles.NeighborList
