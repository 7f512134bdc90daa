import SmoothedParticles.Proofs.Pairs.UpdateRuns

/-!
# Lists with a skin

With a skin, a full search finds more pairs than those within the cutoff. While no point is further than
half of the skin from where it was then, every pair within the cutoff is one of them.

* `norm_lt_of_staysWithin`: two points within the cutoff were within the search radius.
* `filterMap_revalidatePair`: a row computed again is a row of a list built from scratch.
* `revalidate_rows`: **known pairs computed again** are the rows of a list built from scratch.
* `skin_rows_exact`: **after any run of updates**, the next one gives the rows of a list built from
  scratch.
-/

namespace SmoothedParticles.NeighborList

variable {o : SearchOptions ℝ} {f : PairFilter} {searched new : PointSets ℝ} {l l' : NeighborList ℝ}
  {query : Table ℝ} {reference? : Option (Table ℝ)} {tolerance : ℝ} {samples : ℕ}
  {outcome : UpdateOutcome} {i j : ℕ} {x y x' y' : Vec3 ℝ} {s : Vec3 ℤ}

/-- A pair computed again, without a box. -/
theorem revalidatePair_direct (hbox : l.box? = none) (hx : new.query[i]? = some x')
    (hy : new.reference[j]? = some y') : l.revalidatePair new (pairTo i x j y s) =
      if (y' - x').norm < l.options.cutoff then some (pairTo i x' j y' s) else none := by
  have hnearest : ∀ v, l.nearest v = v := by
    intro v
    rw [nearest, hbox]
  simp only [revalidatePair, pairTo, Array.getD_eq_getD_getElem?, hx, hy, Option.getD_some, hnearest,
    hbox, Option.elim_none]

/-- **Two points within the cutoff** were within the search radius, if each of them is no further than
half of the skin from where it was. -/
theorem norm_lt_of_staysWithin (hx : (x' - x).norm ≤ o.skin / 2) (hy : (y' - y).norm ≤ o.skin / 2)
    (h : (y' - x').norm < o.cutoff) : (y - x).norm < o.searchRadius :=
  calc (y - x).norm ≤ (y' - x').norm + (x' - x).norm + (y' - y).norm := Vec3.norm_sub_le x y x' y'
    _ < o.cutoff + o.skin / 2 + o.skin / 2 := by linarith
    _ = o.searchRadius := by rw [SearchOptions.searchRadius, add_assoc, add_halves]

theorem reference?_eq_none_iff (hshape : SameShape searched new) :
    new.reference? = none ↔ searched.reference? = none := by
  rw [← Option.not_isSome_iff_eq_none, ← Option.not_isSome_iff_eq_none, hshape.sides]

/-- **A row computed again** is that of a list built from scratch. -/
theorem filterMap_revalidatePair (h : SearchedAt none o f searched l)
    (hshape : SameShape searched new) (hnear : StaysWithin none (o.skin / 2) searched new)
    (hx : searched.query[i]? = some x) (hx' : new.query[i]? = some x') :
    (((directSearch o f searched).rowByPairs i x).map (pairOfHit i)).filterMap
        (l.revalidatePair new) =
      (((directSearch o f new).rowByPairs i x').map (pairOfHit i)).filter
        fun p => p.distance < o.cutoff := by
  have hcutoff : l.options.cutoff = o.cutoff := by rw [h.options]
  have hself := reference?_eq_none_iff hshape
  have hmoved : (x' - x).norm ≤ o.skin / 2 := by
    obtain ⟨u, hu, hle⟩ := hnear.query i x' hx'
    rwa [Option.some.inj (hx.symm.trans hu)]
  refine row_ext ?_ ?_ fun p => ?_
  · refine List.pairwise_filterMap.2 ((foundRow_direct h.valid hx).sorted.imp ?_)
    intro p q hpq p' hp' q' hq'
    rw [(indexes_of_revalidatePair hp').2, (indexes_of_revalidatePair hq').2]
    exact hpq
  · exact (foundRow_direct h.valid hx').sorted.filter _
  rw [List.mem_filterMap, List.mem_filter, decide_eq_true_eq, mem_directRow h.valid hx']
  constructor
  · -- a known pair that is within the cutoff at the new positions
    rintro ⟨q, hq, hp⟩
    obtain ⟨y, hy, hk, -, hpairs, hq⟩ := (mem_directRow h.valid hx).1 hq
    have hlt : q.second < new.reference.size := by
      rw [hshape.reference]
      exact (Array.getElem?_eq_some_iff.1 hy).1
    have hy' := Array.getElem?_eq_getElem hlt
    rw [hq, revalidatePair_direct h.box hx' hy', hcutoff] at hp
    obtain ⟨hlt, hp⟩ := Option.ite_none_right_eq_some.1 hp
    obtain rfl := Option.some.inj hp
    exact ⟨⟨_, hy', hk, hlt.trans_le h.valid.cutoff_le, fun hn => hpairs (hself.1 hn), rfl⟩, hlt⟩
  · -- a pair within the cutoff, which is known from the last full search
    rintro ⟨⟨y', hy', hk, -, hpairs, hp⟩, hlt⟩
    obtain ⟨y, hy, hmoved'⟩ := hnear.reference p.second y' hy'
    have hlt : (y' - x').norm < o.cutoff := by
      rw [hp] at hlt
      exact hlt
    refine ⟨pairTo i x p.second y (.replicate 0), (mem_directRow h.valid hx).2 ?_, ?_⟩
    · exact ⟨y, hy, hk, norm_lt_of_staysWithin hmoved hmoved' hlt, fun hn => hpairs (hself.2 hn), rfl⟩
    · rw [revalidatePair_direct h.box hx' hy', hcutoff, if_pos hlt, ← hp]

/-- **Known pairs computed again** are the rows of a list built from scratch, while no point is further
than half of the skin from where it was at the last full search. -/
theorem revalidate_rows (h : SearchedAt none o f searched l) (hskin : 0 < o.skin)
    (hshape : SameShape searched new) (hnear : StaysWithin none (o.skin / 2) searched new) :
    (l.revalidate new).rows = within o.cutoff (directRows o f new) := by
  have hbase : l.baseline.rows = directRows o f searched := by
    rw [baseline, h.reserve, if_pos hskin]
    rfl
  show l.baseline.rows.map _ = _
  rw [hbase, within, directRows, directRows]
  apply Array.ext_getElem?
  intro i
  rw [Array.getElem?_map, Array.getElem?_map, Array.getElem?_mapIdx, Array.getElem?_mapIdx]
  cases hx' : new.query[i]? with
  | none =>
    have hle : searched.query.size ≤ i := by
      rw [← hshape.query]
      exact Array.getElem?_eq_none_iff.1 hx'
    rw [Array.getElem?_eq_none_iff.2 hle]
    rfl
  | some x' =>
    obtain ⟨x, hx, -⟩ := hnear.query i x' hx'
    simp only [hx, Option.map_some]
    rw [filterMap_revalidatePair h hshape hnear hx hx']

/-- **After any run of updates of a list with a skin**, the next update gives the rows of a list built
from scratch at the new positions, if it is one itself, or if no point is further than half of the skin
from where it was at the last full search. An update that looks at all points makes sure of that before
it computes known pairs again. -/
theorem skin_rows_exact (hskin : 0 < o.skin) (hrun : UpdateRun none o f searched l)
    (hupdate : (l.update query reference? tolerance samples).result = .ok (l', outcome)) :
    l'.points = ⟨query.points, reference?.map Table.points⟩ ∧
    ((outcome = .rebuilt ∨ StaysWithin none (o.skin / 2) searched l'.points) →
      ∃ fresh, (direct o query reference? f).result = .ok fresh ∧ l'.rows = fresh.rows) ∧
    (outcome = .revalidated → query.size ≤ samples → (∀ t ∈ reference?, t.size ≤ samples) →
      StaysWithin none (o.skin / 2) searched l'.points) := by
  have h := hrun.searchedAt
  obtain ⟨new, hnew, hshape, hpoints, hcolumns, hreference, hcases⟩ := h.update_cases hupdate
  refine ⟨hpoints.trans hnew, fun hor => ?_, fun houtcome hquery hsamples => ?_⟩
  · rcases hcases with ⟨rfl, rfl, -⟩ | ⟨hbuild, -⟩
    · have hnear : StaysWithin none (o.skin / 2) searched new :=
        hor.resolve_left fun hne => by cases hne
      have hd : Dimension.ofNat? query.columns = some l.dimension := by
        rw [hcolumns]
        cases l.dimension <;> rfl
      have hfits : f.Fits new.query.size new.reference.size := by
        rw [hshape.query, hshape.reference, h.shape.query, h.shape.reference]
        exact h.fits
      refine ⟨_, direct_ok_iff.2 ⟨h.valid, l.dimension, new, hd, hreference, hnew, hfits, rfl⟩, ?_⟩
      rw [rows_direct h.valid]
      exact revalidate_rows h hskin (h.shape.trans hshape) hnear
    · exact ⟨l', hbuild, rfl⟩
  · subst houtcome
    have hnear := h.staysWithin_baseline hupdate hquery hsamples
    rw [h.points_baseline, if_pos hskin] at hnear
    exact hnear.mono (min_le_right _ _)

/-- Two points come closer than the cutoff. The first update looks at one of them only, and the second
one at both. -/
theorem skin_rows_exact_entering :
    let o : SearchOptions ℝ := ⟨1, false, 1 / 2⟩
    let t : Table ℝ := ⟨2, #[#v[0, 0], #v[6 / 5, 0]]⟩
    let t' : Table ℝ := ⟨2, #[#v[1 / 8, 0], #v[1, 0]]⟩
    ∃ start l l', 0 < o.skin ∧ (direct o t none .keepAll).result = .ok start ∧
      (start.update t' none 1 1).result = .ok (l, .revalidated) ∧
      UpdateRun none o .keepAll start.points l ∧
      (l.update t' none 1 2).result = .ok (l', .revalidated) ∧
      StaysWithin none (1 / 4) start.points l'.points ∧
      ∃ fresh, (direct o t' none .keepAll).result = .ok fresh ∧ l'.rows = fresh.rows := by
  intro o t t'
  have hskin : 0 < o.skin := by norm_num [o]
  have ho : o.Valid := ⟨by norm_num [o], hskin.le⟩
  have hpoints : t.points = #[⟨0, 0, 0⟩, ⟨6 / 5, 0, 0⟩] := by simp [t, Table.points, Vec3.ofList]
  have hpoints' : t'.points = #[⟨1 / 8, 0, 0⟩, ⟨1, 0, 0⟩] := by simp [t', Table.points, Vec3.ofList]
  have hquarter : min 1 (o.skin / 2) = 1 / 4 := by norm_num [o]
  -- no point moves further than a quarter
  have hnear : ∀ samples, ∀ i ∈ sampledIndexes t'.points.size samples, (nearestIn none
      (t'.points.getD i .zero - t.points.getD i .zero)).norm ≤ min 1 (o.skin / 2) := by
    intro samples i hi
    have hi : i < 2 := by
      rw [hpoints'] at hi
      exact lt_of_mem_sampledIndexes hi
    rw [hquarter, hpoints, hpoints']
    interval_cases i
    · show (⟨1 / 8, 0, 0⟩ - ⟨0, 0, 0⟩ : Vec3 ℝ).norm ≤ 1 / 4
      rw [Vec3.norm_le_iff (by norm_num), Vec3.norm2_sub_plane]
      norm_num
    · show (⟨1, 0, 0⟩ - ⟨6 / 5, 0, 0⟩ : Vec3 ℝ).norm ≤ 1 / 4
      rw [Vec3.norm_le_iff (by norm_num), Vec3.norm2_sub_plane]
      norm_num
  obtain ⟨start, hstart, hd, hp⟩ := exists_direct_self (t := t) ho rfl
  have hrun : UpdateRun none o .keepAll start.points start := .built hstart
  have hself : start.points.reference? = none := by rw [hp]
  have hshape : t'.shape = (start.points.query.size, start.dimension.toNat) := by
    rw [hp, hd, hpoints]
    rfl
  have hfirst : (start.update t' none 1 1).result =
      .ok (start.revalidate ⟨t'.points, none⟩, .revalidated) := by
    refine hrun.searchedAt.update_revalidated hself zero_le_one one_ne_zero hshape forall_mem_none ?_
    rw [hrun.searchedAt.points_baseline, if_pos hskin, hp]
    exact hnear 1
  have hrun' := hrun.revalidated hfirst
  have hsecond := hrun.searchedAt.update_again hself hfirst two_ne_zero fun _ => by
    rw [hp]
    exact hnear 2
  obtain ⟨-, hrows, hall⟩ := skin_rows_exact hskin hrun' hsecond
  have hstays := hall rfl le_rfl forall_mem_none
  have hhalf : o.skin / 2 = 1 / 4 := by norm_num [o]
  refine ⟨start, _, _, hskin, hstart, hfirst, hrun', hsecond, ?_, hrows (.inr hstays)⟩
  rw [← hhalf]
  exact hstays

end SmoothedParticles.NeighborList
