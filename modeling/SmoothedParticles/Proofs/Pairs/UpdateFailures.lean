import SmoothedParticles.Proofs.Pairs.Reachable

/-!
# When an update fails

An update fails if its arguments are not accepted. If they are, it can still fail when it builds the list
again, but not in any of the checks of the two constructors: these were done before for the same options,
filter, box and numbers of points. What is left is the search by cells, whose table has to be addressed.

* `Cells.exists_build_iff`, `Search.exists_run_iff`: when points are sorted into cells, and when a search
  succeeds.
* `Arises`, `Intact`, `Arises.intact`: **what was checked when a list was built stays true**, whatever
  happened to it.
* `exists_rebuild_iff`, `canRebuild_iff`: when a list is built again.
* `update_fails_iff`: **when an update fails**; with finite numbers and unbounded words exactly if its
  arguments are not accepted.
* `accepted_update_fails`: over doubles, a point that moves far away makes an accepted update fail.
-/

namespace SmoothedParticles

variable {α : Type} [Scalar α]

section Searching

variable {d : Dimension} {ps query : Array (Vec3 α)} {cutoff : α} {s : Search α}

/-- Can the table of cells around points be addressed? -/
def Cells.Addressable (d : Dimension) (ps : Array (Vec3 α)) (cutoff : α) : Prop :=
  let counts := (Cells.layout d ps cutoff).counts
  Scalar.indexable α (counts.x * counts.y * counts.z * Cells.cellBytes) = true

instance : Decidable (Cells.Addressable d ps cutoff) := inferInstanceAs (Decidable (_ = _))

/-- **Can points be sorted into cells?** -/
structure Cells.Feasible (d : Dimension) (ps : Array (Vec3 α)) (cutoff : α) : Prop where
  positive : Scalar.IsPositive cutoff
  finite : (Cells.wanted (Cells.extent ps cutoff) cutoff).isFinite = true
  addressable : Cells.Addressable d ps cutoff

theorem Cells.exists_build_iff :
    (∃ cells, Cells.build d ps cutoff = .ok cells) ↔ Cells.Feasible d ps cutoff := by
  unfold Cells.build
  constructor
  · rintro ⟨cells, h⟩
    dsimp only at h
    split_ifs at h with hfeasible
    exact ⟨hfeasible.1, hfeasible.2.1, hfeasible.2.2⟩
  · rintro ⟨hcutoff, hfinite, haddressable⟩
    exact ⟨_, if_pos ⟨hcutoff, hfinite, haddressable⟩⟩

/-- **Does a search succeed?** It looks at few pairs only, or its points can be sorted into cells. -/
def Search.CanRun (s : Search α) (d : Dimension) (query : Array (Vec3 α)) : Prop :=
  query.size * s.reference.size ≤ Search.maxPairs ∨ Cells.Feasible d s.reference s.cutoff

theorem Search.exists_run_iff : (∃ hits, s.run d query = .ok hits) ↔ s.CanRun d query := by
  unfold Search.run Search.CanRun
  split_ifs with hfew
  · exact iff_of_true ⟨_, rfl⟩ (.inl hfew)
  · rw [or_iff_right hfew, ← Cells.exists_build_iff]
    constructor
    · rintro ⟨hits, h⟩
      obtain ⟨cells, hcells, -⟩ := bind_eq_ok_iff.1 h
      exact ⟨cells, hcells⟩
    · rintro ⟨cells, hcells⟩
      exact ⟨_, bind_eq_ok_iff.2 ⟨cells, hcells, rfl⟩⟩

end Searching

namespace NeighborList

variable {box? : Option (Box α)} {o : SearchOptions α} {f : PairFilter} {l : NeighborList α}
  {query : Table α} {reference? : Option (Table α)} {tolerance : α} {samples : ℕ}
  {points : PointSets α}

/-- **The lists that arise** in any arithmetic: those that are built, what updates make of them, and
their parts. -/
inductive Arises : NeighborList α → Prop
  | built {box? : Option (Box α)} {o : SearchOptions α} {query : Table α}
      {reference? : Option (Table α)} {f : PairFilter} {l : NeighborList α} :
      (build box? o query reference? f).result = .ok l → Arises l
  | updated {l l' : NeighborList α} {query : Table α} {reference? : Option (Table α)} {tolerance : α}
      {samples : ℕ} {outcome : UpdateOutcome} : Arises l →
      (l.update query reference? tolerance samples).result = .ok (l', outcome) → Arises l'
  | part {l : NeighborList α} {keep : Pair α → Bool} : Arises l → Arises (l.filterPart keep)

/-- In exact arithmetic, these are among others all lists that can come about. -/
theorem Reachable.arises {l : NeighborList ℝ} (h : Reachable l) : Arises l := by
  induction h with
  | direct h => exact @Arises.built _ _ none _ _ _ _ _ h
  | periodic h => exact @Arises.built _ _ (some _) _ _ _ _ _ h
  | update _ h ih => exact ih.updated h
  | same _ h ih =>
    obtain ⟨⟨keep, hpart⟩, -, -⟩ := partition_cases h
    rw [hpart]
    exact ih.part
  | cross _ h ih =>
    obtain ⟨-, ⟨keep, hpart⟩, -⟩ := partition_cases h
    rw [hpart]
    exact ih.part
  | ofTypes _ h hget ih =>
    obtain ⟨-, -, hparts⟩ := partition_cases h
    obtain ⟨keep, rfl⟩ := hparts _ _ _ hget
    exact ih.part

/-- **What was checked when a list was built**, and stays true. -/
structure Intact (l : NeighborList α) : Prop where
  options : l.options.validate = .ok ()
  fits : l.filter.Fits l.points.query.size l.points.reference.size
  dimension : ∀ box ∈ l.box?, box.dimension = l.dimension
  cutoff : ∀ box ∈ l.box?, ∀ a ∈ box.dimension.axes,
    box.checkCutoff (.replicate l.options.searchRadius) a = .ok ()
  /-- A search by cells, which needs a positive radius, was done before or is not done at all. -/
  radius : Scalar.IsPositive l.options.searchRadius ∨ l.box? = none ∧
    l.points.query.size * l.points.reference.size ≤ Search.maxPairs

theorem isPositive_of_checkCutoff {box : Box α} {r : α}
    (h : ∀ a ∈ box.dimension.axes, box.checkCutoff (.replicate r) a = .ok ()) :
    Scalar.IsPositive r := by
  have hx : Axis.x ∈ box.dimension.axes := by
    cases box.dimension <;> exact List.mem_cons_self
  have hr := h .x hx
  simp only [Box.checkCutoff, invalid_bind, ite_invalid_iff, not_not] at hr
  exact hr.1

theorem intact_build (h : (build box? o query reference? f).result = .ok l) : Intact l := by
  cases box? with
  | none =>
    obtain ⟨ho, d, points, hits, -, hf, hhits, rfl⟩ := direct_eq_ok_iff.1 h
    refine ⟨?_, ?_, ?_, ?_, ?_⟩ <;> simp only [options_ofRows, filter_ofRows, points_ofRows, box?_ofRows]
    · exact ho
    · exact hf
    · exact forall_mem_none
    · exact forall_mem_none
    · rcases Search.exists_run_iff.1 ⟨hits, hhits⟩ with hfew | hfeasible
      · exact .inr ⟨trivial, hfew⟩
      · exact .inl hfeasible.positive
  | some box =>
    obtain ⟨ho, -, -, -, hcut, points, images, hits, -, hf, -, -, -, rfl⟩ := periodic_eq_ok_iff.1 h
    refine ⟨?_, ?_, ?_, ?_, ?_⟩ <;>
      simp only [options_ofRows, filter_ofRows, points_ofRows, box?_ofRows, dimension_ofRows,
        Option.mem_def, Option.some.injEq, forall_eq']
    · exact ho
    · exact hf
    · exact hcut
    · exact .inl (isPositive_of_checkCutoff hcut)

/-- **Whatever happened to a list**, what was checked when it was built is still true. -/
theorem Arises.intact (h : Arises l) : Intact l := by
  -- on the operations: an update keeps the options, the filter, the box and the numbers of points
  induction h with
  | built h => exact intact_build h
  | updated _ h ih =>
    obtain ⟨haccepts, _, rfl, ⟨-, heq⟩ | ⟨-, list, hbuild, heq⟩⟩ := update_eq_ok_iff.1 h <;>
      obtain ⟨rfl, rfl⟩ := Prod.mk.inj heq
    · obtain ⟨hq, hr⟩ := haccepts.sizes
      obtain ⟨hoptions, hfits, hdimension, hcutoff, hradius⟩ := ih
      rw [← hq, ← hr] at hfits hradius
      exact ⟨hoptions, hfits, hdimension, hcutoff, hradius⟩
    · exact intact_build hbuild
  | part _ ih => exact ⟨ih.options, ih.fits, ih.dimension, ih.cutoff, ih.radius⟩

/-- What a list looks for when it is built again at new positions. -/
def searchAt (l : NeighborList α) (points : PointSets α) : Search α :=
  match l.box? with
  | none => directSearch l.options l.filter points
  | some box => periodicSearch l.options l.filter points
      (box.imagesOf (.replicate l.options.searchRadius) points.reference.toList)

theorem searchAt_of_none (hbox : l.box? = none) :
    l.searchAt points = directSearch l.options l.filter points := by
  unfold searchAt
  rw [hbox]

/-- **Can the list be built again** at new positions? The points and their images are finite, and the
search succeeds. -/
structure CanRebuild (l : NeighborList α) (points : PointSets α) : Prop where
  finite : ∀ p ∈ (l.searchAt points).reference, p.isFinite = true
  search : (l.searchAt points).CanRun l.dimension points.query

/-- **An accepted list is built again** exactly if the search succeeds: all checks of the two constructors
were done before, or are those of the update. -/
theorem exists_rebuild_iff (hl : Intact l) (haccepts : l.Accepts query reference? tolerance samples) :
    (∃ list, (build l.box? l.options query reference? l.filter).result = .ok list) ↔
      l.CanRebuild ⟨query.points, reference?.map Table.points⟩ := by
  obtain ⟨hq, hr⟩ := haccepts.sizes
  have hfits := hl.fits
  rw [← hq, ← hr] at hfits
  have hsearch : l.CanRebuild ⟨query.points, reference?.map Table.points⟩ ↔
      (∀ p ∈ (l.searchAt ⟨query.points, reference?.map Table.points⟩).reference, p.isFinite = true) ∧
        ∃ hits, (l.searchAt ⟨query.points, reference?.map Table.points⟩).run l.dimension query.points =
          .ok hits :=
    ⟨fun h => ⟨h.finite, Search.exists_run_iff.2 h.search⟩,
      fun h => ⟨h.1, Search.exists_run_iff.1 h.2⟩⟩
  rw [hsearch]
  unfold searchAt
  cases hbox : l.box? with
  | none =>
    have hpoints := haccepts.pointSets_eq
    constructor
    · rintro ⟨list, h⟩
      obtain ⟨-, d, points, hits, hpoints', -, hhits, -⟩ := direct_eq_ok_iff.1 h
      obtain ⟨rfl, rfl⟩ := Prod.mk.inj (Except.ok.inj (hpoints.symm.trans hpoints'))
      exact ⟨haccepts.finite_reference, hits, hhits⟩
    · rintro ⟨-, hits, hhits⟩
      exact ⟨_, direct_eq_ok_iff.2 ⟨hl.options, _, _, hits, hpoints, hfits, hhits, rfl⟩⟩
  | some box =>
    have hdimension := hl.dimension box hbox
    constructor
    · rintro ⟨list, h⟩
      obtain ⟨-, -, -, -, -, points, images, hits, rfl, -, rfl, hfinite, hhits, -⟩ :=
        periodic_eq_ok_iff.1 h
      rw [hdimension] at hhits
      exact ⟨hfinite, hits, hhits⟩
    · rintro ⟨hfinite, hits, hhits⟩
      rw [← hdimension] at hhits
      exact ⟨_, periodic_eq_ok_iff.2 ⟨hl.options, haccepts.query.inside box hbox,
        haccepts.query.finite, fun t ht => (haccepts.reference t ht).inside box hbox,
        hl.cutoff box hbox, _, _, hits, rfl, hfits, rfl, hfinite, hhits, rfl⟩⟩

/-- **When an update succeeds**: its arguments are accepted, and it does not have to build the list again, or
can do so. -/
theorem exists_update_iff (hl : Intact l) :
    (∃ r, (l.update query reference? tolerance samples).result = .ok r) ↔
      l.Accepts query reference? tolerance samples ∧
        (l.totalDisplacement ⟨query.points, reference?.map Table.points⟩ samples ≤
            l.threshold tolerance ∨
          l.CanRebuild ⟨query.points, reference?.map Table.points⟩) := by
  constructor
  · rintro ⟨r, h⟩
    obtain ⟨haccepts, _, rfl, ⟨hle, -⟩ | ⟨-, list, hlist, -⟩⟩ := update_eq_ok_iff.1 h
    · exact ⟨haccepts, .inl hle⟩
    · exact ⟨haccepts, .inr ((exists_rebuild_iff hl haccepts).1 ⟨list, hlist⟩)⟩
  · rintro ⟨haccepts, h⟩
    by_cases hle : l.totalDisplacement ⟨query.points, reference?.map Table.points⟩ samples ≤
        l.threshold tolerance
    · exact ⟨_, update_eq_ok_iff.2 ⟨haccepts, _, rfl, .inl ⟨hle, rfl⟩⟩⟩
    · obtain ⟨list, hlist⟩ := (exists_rebuild_iff hl haccepts).2 (h.resolve_left hle)
      exact ⟨_, update_eq_ok_iff.2 ⟨haccepts, _, rfl, .inr ⟨hle, list, hlist, rfl⟩⟩⟩

/-- **If all numbers are finite**, as in exact arithmetic, a list is built again unless its table of cells
is too large: the search radius is positive if cells are needed at all. -/
theorem canRebuild_iff (hfinite : ∀ x : α, Scalar.isFinite x = true) (hl : Intact l)
    (haccepts : l.Accepts query reference? tolerance samples)
    (hpoints : points = ⟨query.points, reference?.map Table.points⟩) :
    l.CanRebuild points ↔
      points.query.size * (l.searchAt points).reference.size ≤ Search.maxPairs ∨
        Cells.Addressable l.dimension (l.searchAt points).reference l.options.searchRadius := by
  have hvector : ∀ v : Vec3 α, v.isFinite = true := fun v => List.all_eq_true.2 fun x _ => hfinite x
  have hcutoff : (l.searchAt points).cutoff = l.options.searchRadius := by
    unfold searchAt
    cases l.box? <;> rfl
  constructor
  · rintro ⟨-, hfew | hfeasible⟩
    · exact .inl hfew
    · rw [← hcutoff]
      exact .inr hfeasible.addressable
  · intro h
    refine ⟨fun p _ => hvector p, ?_⟩
    rcases h with hfew | haddressable
    · exact .inl hfew
    rcases hl.radius with hpositive | ⟨hbox, hfew⟩
    · rw [← hcutoff] at hpositive haddressable
      exact .inr ⟨hpositive, hvector _, haddressable⟩
    · -- there were few pairs when the list was built, and no points came since then
      obtain ⟨hq, hr⟩ := haccepts.sizes
      rw [← hq, ← hr] at hfew
      refine .inl ?_
      rw [searchAt_of_none hbox, hpoints]
      exact hfew

/-- **When an update fails.** Either its arguments are not accepted, or the points moved too far and the list
cannot be built again. If all numbers are finite, as in exact arithmetic, the latter is only because there are
many pairs and the table of cells is too large for a machine word; so with unbounded words an update fails
exactly if its arguments are not accepted. -/
theorem update_fails_iff {l : NeighborList α} (hl : Arises l) (query : Table α)
    (reference? : Option (Table α)) (tolerance : α) (samples : ℕ) :
    let new : PointSets α := ⟨query.points, reference?.map Table.points⟩
    ((∃ e, (l.update query reference? tolerance samples).result = .error e) ↔
        ¬l.Accepts query reference? tolerance samples ∨
          ¬l.totalDisplacement new samples ≤ l.threshold tolerance ∧ ¬l.CanRebuild new) ∧
      ((∀ x : α, Scalar.isFinite x = true) → l.Accepts query reference? tolerance samples →
        (l.CanRebuild new ↔
          new.query.size * (l.searchAt new).reference.size ≤ Search.maxPairs ∨
            Cells.Addressable l.dimension (l.searchAt new).reference l.options.searchRadius)) ∧
      ((∀ x : α, Scalar.isFinite x = true) → Scalar.wordBits α = none →
        ((∃ e, (l.update query reference? tolerance samples).result = .error e) ↔
          ¬l.Accepts query reference? tolerance samples)) := by
  intro new
  have hfails : (∃ e, (l.update query reference? tolerance samples).result = .error e) ↔
      ¬l.Accepts query reference? tolerance samples ∨
        ¬l.totalDisplacement new samples ≤ l.threshold tolerance ∧ ¬l.CanRebuild new := by
    rw [exists_error_iff, exists_update_iff hl.intact, not_and_or, not_or]
  refine ⟨hfails, fun hfinite haccepts => canRebuild_iff hfinite hl.intact haccepts rfl,
    fun hfinite hwords => ?_⟩
  rw [hfails, or_iff_left_iff_imp]
  rintro ⟨-, hnot⟩ haccepts
  -- with unbounded words, every table of cells can be addressed
  refine hnot ((canRebuild_iff hfinite hl.intact haccepts rfl).2 (.inr ?_))
  unfold Cells.Addressable Scalar.indexable
  rw [hwords]

/-- Two points that stay where they are: only the tolerance is wrong. -/
theorem update_fails_iff_tolerance :
    let t : Table ℝ := ⟨2, #[#v[0, 0], #v[1, 0]]⟩
    ∃ l, (build none ⟨2, false, 0⟩ t none .keepAll).result = .ok l ∧ Arises l ∧
      (∃ e, (l.update t none (-1) 1).result = .error e) ∧
      ¬∃ e, (l.update t none 1 1).result = .error e := by
  intro t
  have ho : (⟨2, false, 0⟩ : SearchOptions ℝ).Valid := ⟨two_pos, le_rfl⟩
  obtain ⟨l, hl⟩ : ∃ l, l = ofRows ⟨2, false, 0⟩ .keepAll .two ⟨t.points, none⟩ none
      (directRows ⟨2, false, 0⟩ .keepAll ⟨t.points, none⟩) := ⟨_, rfl⟩
  have hbuild : (build none ⟨2, false, 0⟩ t none .keepAll).result = .ok l :=
    direct_ok_iff.2 ⟨ho, .two, _, rfl, forall_mem_none, rfl, trivial, hl⟩
  have harises : Arises l := .built hbuild
  have hfails : ∀ tolerance : ℝ, (∃ e, (l.update t none tolerance 1).result = .error e) ↔
      ¬l.Accepts t none tolerance 1 :=
    fun tolerance => (update_fails_iff harises t none tolerance 1).2.2 (fun _ => Scalar.isFinite_eq) rfl
  have haccepts : l.Accepts t none 1 1 := by
    have hpoints : l.points = ⟨t.points, none⟩ := by rw [hl, points_ofRows]
    refine ⟨⟨?_, Scalar.isFinite_eq⟩, one_ne_zero, ?_, ?_, acceptsTable_iff.2 ⟨?_, ?_⟩, forall_mem_none⟩
    · rw [Scalar.zero_eq]
      exact zero_le_one
    · rw [hl, partitioned_ofRows]
    · rw [hpoints]
      exact Iff.rfl
    · rw [hpoints, t.size_points, hl, dimension_ofRows]
      rfl
    · rw [hl, box?_ofRows]
      exact forall_mem_none
  refine ⟨l, hbuild, harises, (hfails (-1)).2 fun h => ?_, fun h => (hfails 1).1 h haccepts⟩
  have htolerance := h.tolerance.1
  rw [Scalar.zero_eq] at htolerance
  norm_num at htolerance

end NeighborList

/-- Points in a row along the first axis, two lengths apart. -/
def spacedRow (n : ℕ) : Table Float :=
  ⟨2, ((List.range n).map fun i => #v[Float.ofNat (2 * i), 0]).toArray⟩

/-- The points with the first one somewhere else on the axis. -/
def spreadRow (n : ℕ) (x : Float) : Table Float :=
  ⟨2, (spacedRow n).rows.setIfInBounds 0 #v[x, 0]⟩

/-- A search within a unit length, without a skin. -/
def unitSearch : SearchOptions Float := ⟨1, false, 0⟩

theorem feasible_spacedRow :
    Cells.Feasible .two (spacedRow 65).points unitSearch.searchRadius where
  positive := by decide +kernel
  finite := by decide +kernel
  addressable := by decide +kernel

/-- Too many cells fit between points far apart. -/
theorem not_addressable_spreadRow :
    ¬Cells.Addressable .two (spreadRow 65 1e20).points unitSearch.searchRadius := by
  decide +kernel

namespace NeighborList

/-- **A point that moves far away** makes an update fail whose arguments are accepted: the search by cells
wants one cell for each length of the cutoff between the points. -/
theorem accepted_update_fails : ∃ l : NeighborList Float,
    (build none unitSearch (spacedRow 65) none .keepAll).result = .ok l ∧ Arises l ∧
      l.Accepts (spreadRow 65 1e20) none 1 1 ∧
      ∃ e, (l.update (spreadRow 65 1e20) none 1 1).result = .error e := by
  have ho : unitSearch.validate = .ok () :=
    SearchOptions.validate_eq_ok_iff.2 (by decide +kernel)
  have hskin : ¬0 < unitSearch.skin := by decide +kernel
  have hfinite : ∀ p ∈ (spacedRow 65).points, p.isFinite = true := by decide +kernel
  -- the list that is updated; what it consists of is all that is needed of it
  obtain ⟨hits, hhits⟩ :=
    (Search.exists_run_iff (s := directSearch unitSearch .keepAll ⟨(spacedRow 65).points, none⟩)).2
      (.inr feasible_spacedRow)
  obtain ⟨l, hl⟩ : ∃ l, l = ofRows unitSearch .keepAll .two ⟨(spacedRow 65).points, none⟩ none
      (hits.mapIdx fun i row => row.map (pairOfHit i)) := ⟨_, rfl⟩
  have hbuild : (build none unitSearch (spacedRow 65) none .keepAll).result = .ok l :=
    direct_eq_ok_iff.2 ⟨ho, .two, _, hits,
      pointSets_ok_iff.2 ⟨rfl, forall_mem_none, hfinite, forall_mem_none, rfl⟩, trivial, hhits, hl⟩
  have hpoints : l.points = ⟨(spacedRow 65).points, none⟩ := by rw [hl, points_ofRows]
  have hbox : l.box? = none := by rw [hl, box?_ofRows]
  have haccepts : l.Accepts (spreadRow 65 1e20) none 1 1 := by
    refine ⟨by decide +kernel, one_ne_zero, ?_, ?_, ⟨?_, by decide +kernel, ?_⟩, forall_mem_none⟩
    · rw [hl, partitioned_ofRows]
    · rw [hpoints]
      exact Iff.rfl
    · rw [hpoints, hl, dimension_ofRows]
      decide +kernel
    · rw [hbox]
      exact forall_mem_none
  -- the displacement does not depend on the rows
  have hmoved : ∀ found, ¬(ofRows unitSearch .keepAll .two ⟨(spacedRow 65).points, none⟩ none
      found).totalDisplacement ⟨(spreadRow 65 1e20).points, none⟩ 1 ≤
        (ofRows unitSearch .keepAll .two ⟨(spacedRow 65).points, none⟩ none found).threshold 1 := by
    intro found
    unfold ofRows
    rw [if_neg hskin]
    show ¬(⟨unitSearch, .keepAll, .two, ⟨(spacedRow 65).points, none⟩, none, #[], none, false⟩ :
      NeighborList Float).totalDisplacement ⟨(spreadRow 65 1e20).points, none⟩ 1 ≤ 0
    decide +kernel
  refine ⟨l, hbuild, .built hbuild, haccepts, ?_⟩
  rw [exists_error_iff, exists_update_iff (intact_build hbuild), not_and_or, not_or]
  refine .inr ⟨?_, fun h => ?_⟩
  · rw [hl]
    exact hmoved _
  · have hsearch := h.search
    rw [searchAt_of_none hbox, hl, options_ofRows, dimension_ofRows] at hsearch
    rcases hsearch with hfew | hcells
    · have hmany : ¬(spreadRow 65 1e20).points.size * (spreadRow 65 1e20).points.size ≤
          Search.maxPairs := by decide +kernel
      exact hmany hfew
    · exact not_addressable_spreadRow hcells.addressable

end NeighborList

end SmoothedParticles
