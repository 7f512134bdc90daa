import SmoothedParticles.Proofs.Pairs.FilteredSearch
import SmoothedParticles.Proofs.Pairs.RowOrder

/-!
# Filtered lists

A filter is asked about candidates during a search, in a box about the points behind the images, and again
when an update builds a list from scratch. In all cases the result is the list of all pairs without those that
the filter does not keep, in any arithmetic.

* `PairFilter.thin`, `NeighborList.thin`: rows, and a list, without the pairs that a filter does not keep.
* `build_thin`: **a list built with a filter** is the list of all pairs, thinned out.
* `Thinned`, `Thinned.update`, `Thinned.next`: an update keeps this relation, and has the same outcome.
* `between_build`: the pairs of a list are pairs of its points.
* `split_eq_filtered`: filters by groups and by marks give the parts of a split by types.
* `filtered_lists_thinned`: **filtering during the search is filtering afterwards**.
-/

namespace SmoothedParticles

variable {α : Type} [Scalar α]

/-- The rows without the pairs that a filter does not keep. -/
def PairFilter.thin (f : PairFilter) (rows : Array (List (Pair α))) : Array (List (Pair α)) :=
  rows.map (·.filter fun p => f.keep p.first p.second)

namespace NeighborList

/-- The list with a filter, and without the pairs that it does not keep. -/
def thin (l : NeighborList α) (f : PairFilter) : NeighborList α :=
  { l with
    filter := f
    rows := f.thin l.rows
    reserve? := l.reserve?.map fun full => ⟨f.thin full.rows, full.points⟩ }

variable {o : SearchOptions α} {f : PairFilter} {d : Dimension} {points : PointSets α}
  {box? : Option (Box α)} {query : Table α} {reference? : Option (Table α)}
  {l l' : NeighborList α} {tolerance : α} {samples : ℕ}

section Building

theorem within_thin (c : α) (rows : Array (List (Pair α))) :
    within c (f.thin rows) = f.thin (within c rows) := by
  unfold within PairFilter.thin
  rw [Array.map_map, Array.map_map]
  exact congrArg (rows.map ·) (funext fun row => List.filter_comm _ _ row)

theorem ofRows_thin (found : Array (List (Pair α))) :
    ofRows o f d points box? (f.thin found) = (ofRows o .keepAll d points box? found).thin f := by
  unfold ofRows
  split_ifs
  · rw [within_thin]
    rfl
  · rfl

/-- Rows made from hits by hit are thinned out by leaving out hits. -/
theorem thin_mapIdx {α : Type} {hits : Array (List (Hit α))} {g : ℕ → List (Hit α) → List (Pair α)}
    {keep : ℕ → Hit α → Bool}
    (h : ∀ i row, (g i row).filter (fun p => f.keep p.first p.second) = g i (row.filter (keep i))) :
    f.thin (hits.mapIdx g) = (hits.mapIdx fun i row => row.filter (keep i)).mapIdx g := by
  apply Array.ext_getElem?
  intro i
  simp only [PairFilter.thin, Array.getElem?_map, Array.getElem?_mapIdx, Option.map_map]
  exact congrArg (hits[i]?.map ·) (funext fun row => h i row)

/-- The list from the search that keeps fewer pairs. -/
theorem run_thin (s : Search α) (keep : ℕ → ℕ → Bool) (qs : Array (Vec3 α))
    {g : ℕ → List (Hit α) → List (Pair α)}
    (h : ∀ i row, (g i row).filter (fun p => f.keep p.first p.second) =
      g i (row.filter fun hit => keep i hit.second)) :
    ((s.restrict keep).run d qs >>= fun hits => pure (ofRows o f d points box? (hits.mapIdx g))) =
      (s.run d qs >>= fun hits => pure (ofRows o .keepAll d points box? (hits.mapIdx g))).map
        (·.thin f) := by
  rw [s.run_restrict]
  cases s.run d qs with
  | error e => rfl
  | ok hits =>
    show Except.ok (ofRows o f d points box? (Array.mapIdx g
      (hits.mapIdx fun i row => row.filter fun hit => keep i hit.second))) =
        Except.ok ((ofRows o .keepAll d points box? (hits.mapIdx g)).thin f)
    rw [← ofRows_thin, thin_mapIdx h]

/-- **Without a box**, filtering during the search leaves what filtering afterwards leaves. -/
theorem direct_thin (hf : f.Fits query.points.size (reference?.getD query).points.size) :
    (direct o query reference? f).result =
      (direct o query reference? .keepAll).result.map (·.thin f) := by
  rw [result_direct, result_direct]
  refine bind_eq_map_bind fun _ _ => bind_eq_map_bind fun ⟨d, points⟩ hpoints => ?_
  obtain ⟨-, -, -, -, rfl⟩ := pointSets_ok_iff.1 hpoints
  rw [← PointSets.reference_map_points, ← PairFilter.validate_ok_iff (α := α)] at hf
  dsimp only
  rw [hf]
  have hrow : ∀ (i : ℕ) (row : List (Hit α)),
      (row.map (pairOfHit i)).filter (fun p => f.keep p.first p.second) =
        (row.filter fun hit => f.keep i hit.second).map (pairOfHit i) :=
    fun i row => List.filter_map
  exact run_thin (directSearch o .keepAll _) f.keep query.points hrow

/-- **In a box** too: the filter is asked about the points behind the images. -/
theorem periodic_thin {box : Box α}
    (hf : f.Fits query.points.size (reference?.getD query).points.size) :
    (periodic box o query reference? f).result =
      (periodic box o query reference? .keepAll).result.map (·.thin f) := by
  rw [result_periodic, result_periodic]
  refine bind_eq_map_bind fun _ _ => bind_eq_map_bind fun qs hqs => bind_eq_map_bind fun _ _ =>
    bind_eq_map_bind fun rs? hrs => ?_
  obtain ⟨-, rfl⟩ := Box.checkInside_eq_ok_iff.1 hqs
  obtain ⟨-, rfl⟩ := (option_mapM_eq_ok_iff fun t ps => Box.checkInside_eq_ok_iff).1 hrs
  rw [← PointSets.reference_map_points, ← PairFilter.validate_ok_iff (α := α)] at hf
  dsimp only
  rw [hf]
  refine bind_eq_map_bind fun _ _ => bind_eq_map_bind fun images _ => bind_eq_map_bind fun _ _ => ?_
  -- the pairs of a row are sorted, which does not depend on the filter
  have hrow : ∀ (n i : ℕ) (row : List (Hit α)),
      ((row.map (pairOfImage images n i)).mergeSort precedes).filter
          (fun p => f.keep p.first p.second) =
        ((row.filter fun hit => f.keep i (pointBehind images n hit.second)).map
          (pairOfImage images n i)).mergeSort precedes := by
    intro n i row
    rw [@filter_mergeSort _ precedes _ (fun _ _ _ => lexLE_trans) fun _ _ => lexLE_total _ _,
      List.filter_map]
    rfl
  exact run_thin (periodicSearch o .keepAll _ images)
    (fun i j => f.keep i (pointBehind images _ j)) query.points (hrow _)

/-- **Filtering during the search** leaves what filtering afterwards leaves. -/
theorem build_thin (hf : f.Fits query.points.size (reference?.getD query).points.size) :
    (build box? o query reference? f).result =
      (build box? o query reference? .keepAll).result.map (·.thin f) := by
  cases box? with
  | none => exact direct_thin hf
  | some box => exact periodic_thin hf

end Building

section Updates

theorem baseline_thin : (l.thin f).baseline = ⟨f.thin l.baseline.rows, l.baseline.points⟩ := by
  unfold baseline thin
  cases l.reserve? <;> rfl

/-- A filter does not see how far the points moved. -/
theorem totalDisplacement_thin {new : PointSets α} :
    (l.thin f).totalDisplacement new samples = l.totalDisplacement new samples := by
  unfold totalDisplacement
  rw [baseline_thin]
  rfl

theorem threshold_thin : (l.thin f).threshold tolerance = l.threshold tolerance := by
  unfold threshold thin
  cases l.reserve? <;> rfl

/-- Computing the pairs of a row again and leaving out pairs by their indexes commute. -/
theorem filterMap_revalidatePair_filter {new : PointSets α} (row : List (Pair α)) :
    (row.filter fun p => f.keep p.first p.second).filterMap (l.revalidatePair new) =
      (row.filterMap (l.revalidatePair new)).filter fun q => f.keep q.first q.second := by
  have hpair : ∀ p, (if f.keep p.first p.second = true then l.revalidatePair new p else none) =
      (l.revalidatePair new p).filter fun q => f.keep q.first q.second := by
    intro p
    cases hq : l.revalidatePair new p with
    | none => rw [ite_self, Option.filter_none]
    | some q =>
      obtain ⟨hfirst, hsecond⟩ := indexes_of_revalidatePair hq
      rw [Option.filter_some, hfirst, hsecond]
  rw [List.filterMap_filter, List.filter_filterMap]
  exact congrArg (row.filterMap ·) (funext hpair)

theorem revalidate_thin {new : PointSets α} :
    (l.thin f).revalidate new = (l.revalidate new).thin f := by
  have hrows : (f.thin l.baseline.rows).map (·.filterMap (l.revalidatePair new)) =
      f.thin (l.baseline.rows.map (·.filterMap (l.revalidatePair new))) := by
    unfold PairFilter.thin
    rw [Array.map_map, Array.map_map]
    exact congrArg (l.baseline.rows.map ·) (funext filterMap_revalidatePair_filter)
  unfold revalidate
  rw [baseline_thin]
  exact congrArg (fun rows => ({ l.thin f with points := new, rows, partitioned := false } :
    NeighborList α)) hrows

/-- **A list with a filter, and the same list without.** -/
structure Thinned (f : PairFilter) (l l' : NeighborList α) : Prop where
  whole : l.filter = .keepAll
  fits : f.Fits l.points.query.size l.points.reference.size
  eq : l' = l.thin f

/-- **An update of both lists** has the same outcome, and the same pairs but for the filter. -/
theorem Thinned.update (h : Thinned f l l') :
    (l'.update query reference? tolerance samples).result =
      (l.update query reference? tolerance samples).result.map fun r => (r.1.thin f, r.2) := by
  obtain ⟨hwhole, hfits, rfl⟩ := h
  rw [result_update, result_update]
  refine bind_eq_map_bind fun _ hcheck => bind_eq_map_bind fun new hnew => ?_
  obtain ⟨haccepts, rfl⟩ := accepts_iff.2 ⟨hcheck, hnew⟩
  obtain ⟨hq, hr⟩ := haccepts.sizes
  rw [totalDisplacement_thin, threshold_thin]
  split_ifs
  · rw [revalidate_thin]
    rfl
  · -- both lists are built again, one of them with the filter
    have hfits : f.Fits query.points.size (reference?.getD query).points.size := by
      rw [hq, ← PointSets.reference_map_points, hr]
      exact hfits
    show ((build l.box? l.options query reference? f).result >>= _) = _
    rw [build_thin hfits, hwhole]
    cases (build l.box? l.options query reference? .keepAll).result <;> rfl

/-- What a list is built from, it has. -/
theorem fields_of_build (h : (build box? o query reference? f).result = .ok l) :
    l.filter = f ∧ l.points = ⟨query.points, reference?.map Table.points⟩ ∧
      f.Fits l.points.query.size l.points.reference.size := by
  cases box? with
  | none =>
    obtain ⟨-, d, points, hits, hpoints, hf, -, rfl⟩ := direct_eq_ok_iff.1 h
    obtain ⟨-, -, -, -, rfl⟩ := pointSets_ok_iff.1 hpoints
    rw [filter_ofRows, points_ofRows]
    exact ⟨rfl, rfl, hf⟩
  | some box =>
    obtain ⟨-, -, -, -, -, points, images, hits, rfl, hf, -, -, -, rfl⟩ := periodic_eq_ok_iff.1 h
    rw [filter_ofRows, points_ofRows]
    exact ⟨rfl, rfl, hf⟩

/-- **The relation is kept** by an update of both lists. -/
theorem Thinned.next {next : NeighborList α × UpdateOutcome} (h : Thinned f l l')
    (hupdate : (l.update query reference? tolerance samples).result = .ok next) :
    Thinned f next.1 (next.1.thin f) := by
  obtain ⟨haccepts, _, rfl, hcases⟩ := update_eq_ok_iff.1 hupdate
  obtain ⟨hq, hr⟩ := haccepts.sizes
  have hfits := h.fits
  rw [← hq, ← hr] at hfits
  rcases hcases with ⟨-, rfl⟩ | ⟨-, list, hlist, rfl⟩
  · exact ⟨h.whole, hfits, rfl⟩
  · obtain ⟨hfilter, hpoints, -⟩ := fields_of_build hlist
    refine ⟨hfilter.trans h.whole, ?_, rfl⟩
    rw [hpoints]
    exact hfits

end Updates

section Labels

/-- Rows of pairs between some numbers of points. -/
structure Between (n m : ℕ) (rows : Array (List (Pair α))) : Prop where
  size : rows.size = n
  bounds : ∀ row ∈ rows, ∀ p ∈ row, p.first < n ∧ p.second < m

/-- **The pairs of a list** are pairs of its points. -/
theorem between_build (h : (build box? o query reference? f).result = .ok l) :
    Between l.points.query.size l.points.reference.size l.rows := by
  have hrows := (ordered_build h).rows
  refine ⟨hrows.size, fun row hrow p hp => ?_⟩
  obtain ⟨i, hi, rfl⟩ := Array.getElem_of_mem hrow
  obtain ⟨hfirst, hsecond⟩ := hrows.indexed i _ (Array.getElem?_eq_getElem hi) p hp
  exact ⟨hrows.size ▸ hfirst ▸ hi, hsecond⟩

/-- Do two kinds of labels tell the same points apart? -/
structure SameLabels {β γ : Type} (labels : Array β) (types : Array γ) : Prop where
  size : labels.size = types.size
  agree : ∀ i j : ℕ, labels[i]? = labels[j]? ↔ types[i]? = types[j]?

theorem SameLabels.getD_iff {β γ : Type} {labels : Array β} {types : Array γ}
    (h : SameLabels labels types) {i j : ℕ} (hi : i < types.size) (hj : j < types.size) (b : β) (c : γ) :
    labels.getD i b = labels.getD j b ↔ types.getD i c = types.getD j c := by
  have hi' : i < labels.size := by rwa [h.size]
  have hj' : j < labels.size := by rwa [h.size]
  have hagree := h.agree i j
  simp only [Array.getD_eq_getD_getElem?, Array.getElem?_eq_getElem, hi, hj, hi', hj',
    Option.getD_some, Option.some.injEq] at hagree ⊢
  exact hagree

variable {types : Array ℤ}

/-- **Points of different groups** are those of different types. -/
theorem thin_distinctGroups {groups : Array ℕ} (h : SameLabels groups types)
    (hrows : Between types.size types.size l.rows) :
    (PairFilter.distinctGroups groups groups).thin l.rows = (l.splitByTypes types types).cross.rows := by
  refine Array.map_congr_left fun row hrow => List.filter_congr fun p hp => ?_
  obtain ⟨hfirst, hsecond⟩ := hrows.bounds row hrow p hp
  rw [Bool.eq_iff_iff, decide_eq_true_eq]
  exact bne_iff_ne.trans (not_congr (h.getD_iff hfirst hsecond 0 0))

/-- **Points with the same mark** are those of the same type. -/
theorem thin_mask {marks : Array Bool} (h : SameLabels marks types)
    (hrows : Between types.size types.size l.rows) :
    (PairFilter.mask marks marks .equal).thin l.rows = (l.splitByTypes types types).same.rows := by
  refine Array.map_congr_left fun row hrow => List.filter_congr fun p hp => ?_
  obtain ⟨hfirst, hsecond⟩ := hrows.bounds row hrow p hp
  rw [Bool.eq_iff_iff, decide_eq_true_eq]
  exact beq_iff_eq.trans (h.getD_iff hfirst hsecond false 0)

/-- **Lists over one set of points, split by types**, have the rows that a filter leaves from the start. -/
theorem split_eq_filtered (hl : (build box? o query none .keepAll).result = .ok l)
    (htypes : types.size = query.size) :
    ∃ parts, l.partition types none = .ok parts ∧
      (∀ groups : Array ℕ, SameLabels groups types →
        (build box? o query none (.distinctGroups groups groups)).result.map NeighborList.rows =
          .ok parts.cross.rows) ∧
      ∀ marks : Array Bool, SameLabels marks types →
        (build box? o query none (.mask marks marks .equal)).result.map NeighborList.rows =
          .ok parts.same.rows := by
  obtain ⟨-, hpoints, -⟩ := fields_of_build hl
  have hrows := between_build hl
  have hself : l.points.reference? = none := by
    rw [hpoints]
    rfl
  have hsize : l.points.query.size = types.size := by
    rw [hpoints, htypes]
    exact query.size_points
  rw [PointSets.reference_of_none hself, hsize] at hrows
  have hn : types.size = query.points.size := by rw [htypes, query.size_points]
  refine ⟨_, (partition_self_ok_iff hself).2 ⟨hrows.size.symm, rfl, rfl⟩, fun groups h => ?_,
    fun marks h => ?_⟩
  · have hf : (PairFilter.distinctGroups groups groups).Fits query.points.size query.points.size :=
      ⟨h.size.trans hn, h.size.trans hn⟩
    rw [build_thin hf, hl, ← thin_distinctGroups h hrows]
    rfl
  · have hf : (PairFilter.mask marks marks .equal).Fits query.points.size query.points.size :=
      ⟨h.size.trans hn, h.size.trans hn⟩
    rw [build_thin hf, hl, ← thin_mask h hrows]
    rfl

end Labels

/-- **Filtering during the search is filtering afterwards.** With a filter that has one entry per point, a
list is built exactly if the list of all pairs is, and it is that list without the pairs that the filter does
not keep, in the same order and with the same data. Any update of both has the same outcome and leaves them
related in the same way. Over one set of points, the pairs of different groups and those with the same mark
are the parts into which the list of all pairs is split. -/
theorem filtered_lists_thinned (box? : Option (Box α)) (o : SearchOptions α) (query : Table α)
    (reference? : Option (Table α)) (f : PairFilter)
    (hf : (f.validate query.points.size (reference?.getD query).points.size :
      Except (Error α) Unit) = .ok ()) :
    (build box? o query reference? f).result =
        (build box? o query reference? .keepAll).result.map (·.thin f) ∧
      (∀ l, (build box? o query reference? .keepAll).result = .ok l → Thinned f l (l.thin f)) ∧
      (∀ l l' : NeighborList α, Thinned f l l' → ∀ newQuery newReference? tolerance samples,
        (l'.update newQuery newReference? tolerance samples).result =
            (l.update newQuery newReference? tolerance samples).result.map
              (fun r => (r.1.thin f, r.2)) ∧
          ∀ next, (l.update newQuery newReference? tolerance samples).result = .ok next →
            Thinned f next.1 (next.1.thin f)) ∧
      ∀ l, (build box? o query none .keepAll).result = .ok l → ∀ types : Array ℤ,
        types.size = query.size → ∃ parts, l.partition types none = .ok parts ∧
          (∀ groups : Array ℕ, SameLabels groups types →
            (build box? o query none (.distinctGroups groups groups)).result.map NeighborList.rows =
              .ok parts.cross.rows) ∧
          ∀ marks : Array Bool, SameLabels marks types →
            (build box? o query none (.mask marks marks .equal)).result.map NeighborList.rows =
              .ok parts.same.rows := by
  refine ⟨build_thin (PairFilter.validate_ok_iff.1 hf), fun l hl => ?_, fun l l' h _ _ _ _ => ?_,
    fun l hl types htypes => split_eq_filtered hl htypes⟩
  · obtain ⟨hfilter, hpoints, -⟩ := fields_of_build hl
    refine ⟨hfilter, ?_, rfl⟩
    rw [hpoints, PointSets.reference_map_points]
    exact PairFilter.validate_ok_iff.1 hf
  · exact ⟨h.update, fun next hnext => h.next hnext⟩

/-- Two points, of which only the first one may see the other one. -/
theorem filtered_lists_thinned_two :
    let t : Table ℝ := ⟨2, #[#v[0, 0], #v[1, 0]]⟩
    let f : PairFilter := .mask #[true, false] #[true, true] .both
    ∃ l l', (build none ⟨2, false, 0⟩ t none .keepAll).result = .ok l ∧
      (build none ⟨2, false, 0⟩ t none f).result = .ok l' ∧ Thinned f l l' ∧
      l.rows.map List.length = #[1, 1] ∧ l'.rows.map List.length = #[1, 0] := by
  intro t f
  have hpoints : t.points = #[⟨0, 0, 0⟩, ⟨1, 0, 0⟩] := by
    simp [t, Table.points, Vec3.ofList]
  have hnear : ((⟨1, 0, 0⟩ : Vec3 ℝ) - ⟨0, 0, 0⟩).norm < 2 := by
    rw [Vec3.norm_lt_iff two_pos, Vec3.norm2_sub_plane]
    norm_num
  obtain ⟨l, hl, -, -, hrows⟩ :=
    exists_direct_two (o := ⟨2, false, 0⟩) ⟨two_pos, le_rfl⟩ rfl rfl hpoints hnear
  have hf : (f.validate t.points.size ((none : Option (Table ℝ)).getD t).points.size :
      Except (Error ℝ) Unit) = .ok () := by
    rw [Option.getD_none, hpoints]
    rfl
  obtain ⟨hbuild, hthinned, -⟩ := filtered_lists_thinned none ⟨2, false, 0⟩ t none f hf
  have hl : (build none ⟨2, false, 0⟩ t none .keepAll).result = .ok l := hl
  refine ⟨l, l.thin f, hl, ?_, hthinned l hl, ?_, ?_⟩
  · rw [hbuild, hl]
    rfl
  · rw [hrows]
    simp
  · show (f.thin l.rows).map List.length = _
    rw [hrows]
    simp [f, PairFilter.thin, PairFilter.keep, MaskRelation.holds, pairTo]

end NeighborList

end SmoothedParticles
