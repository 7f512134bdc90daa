import SmoothedParticles.Proofs.Pairs.FreshPairs
import SmoothedParticles.Proofs.Pairs.SkinInvariance

/-!
# Lists with the same near pairs

What a list is used for often depends on its near pairs only. Lists over the same points have the same pairs
closer than some distance if one of them is the other one without pairs that are further away, and also if both
were built with longer cutoffs, in a box or without one.

* `within_within`: the shorter one of two cutoffs counts.
* `AgreeWithin`: lists over the same points with the same near pairs.
* `map_rows_eq`: **what depends on the near pairs of a row only** is the same for such lists.
* `agreeWithin_of_filter`: **deleting far pairs** leaves the near ones.
* `sees_iff`: within its radius, a search sees the same copies whatever the radius is.
* `within_rows`, `agreeWithin_build`: lists end at their cutoffs, and **longer cutoffs** find the same near
  pairs.
-/

namespace SmoothedParticles.NeighborList

variable {box? : Option (Box ℝ)} {o o' : SearchOptions ℝ} {f : PairFilter} {points : PointSets ℝ}
  {l l' : NeighborList ℝ} {query : Table ℝ} {reference? : Option (Table ℝ)} {c r : ℝ} {i j : ℕ}
  {x y : Vec3 ℝ} {s : Vec3 ℤ} {p : Pair ℝ}

/-- **The shorter one of two cutoffs counts.** -/
theorem within_within {c' : ℝ} (h : c ≤ c') (rows : Array (List (Pair ℝ))) :
    within c (within c' rows) = within c rows := by
  rw [within, within, within, Array.map_map]
  refine Array.map_congr_left fun row _ => ?_
  rw [Function.comp_apply, List.filter_filter]
  refine List.filter_congr fun p _ => ?_
  rw [← Bool.decide_and]
  exact decide_eq_decide.2 (and_iff_left_of_imp fun hp => hp.trans_le h)

/-- **Do two lists over the same points have the same pairs closer than a distance?** -/
structure AgreeWithin (c : ℝ) (l l' : NeighborList ℝ) : Prop where
  dimension : l'.dimension = l.dimension
  points : l'.points = l.points
  rows : within c l'.rows = within c l.rows

section Agreement

theorem AgreeWithin.nQuery (h : AgreeWithin c l l') : l'.nQuery = l.nQuery := by
  have hsize := congrArg Array.size h.rows
  rwa [within, within, Array.size_map, Array.size_map] at hsize

/-- The near pairs of a query point. -/
theorem AgreeWithin.row (h : AgreeWithin c l l') {row row' : List (Pair ℝ)} (hrow : l.rows[i]? = some row)
    (hrow' : l'.rows[i]? = some row') :
    (row'.filter fun p => p.distance < c) = row.filter fun p => p.distance < c := by
  have hrows := congrArg (·[i]?) h.rows
  simp only [within, Array.getElem?_map, hrow, hrow', Option.map_some] at hrows
  exact Option.some.inj hrows

/-- **What depends on the near pairs of a row only** is the same for lists that agree there. -/
theorem AgreeWithin.map_rows_eq {β : Type} {g : List (Pair ℝ) → β} (h : AgreeWithin c l l')
    (hg : ∀ row, g (row.filter fun p => p.distance < c) = g row) : l'.rows.map g = l.rows.map g := by
  have hmap : ∀ rows : Array (List (Pair ℝ)), (within c rows).map g = rows.map g := by
    intro rows
    rw [within, Array.map_map]
    exact Array.map_congr_left fun row _ => hg row
  rw [← hmap, h.rows, hmap]

/-- **Deleting far pairs** leaves the near ones. -/
theorem agreeWithin_of_filter {keep : Pair ℝ → Bool} (hd : l'.dimension = l.dimension)
    (hpoints : l'.points = l.points) (hrows : l'.rows = l.rows.map (·.filter keep))
    (hfar : ∀ p ∈ l.pairs, keep p = false → c ≤ p.distance) : AgreeWithin c l l' := by
  refine ⟨hd, hpoints, ?_⟩
  rw [hrows, within, within, Array.map_map]
  refine Array.map_congr_left fun row hrow => ?_
  obtain ⟨i, hi⟩ := Array.getElem?_of_mem hrow
  rw [Function.comp_apply, List.filter_filter]
  refine List.filter_congr fun p hp => ?_
  cases hk : keep p with
  | true => rw [Bool.and_true]
  | false =>
    rw [Bool.and_false, eq_comm, decide_eq_false_iff_not, not_lt]
    exact hfar p (mem_pairs_iff.2 ⟨i, row, hi, hp⟩) hk

end Agreement

section Searches

/-- **Within its radius**, a search sees each copy that is not shadowed, whatever the radius is. -/
theorem sees_iff {ys : Array (Vec3 ℝ)} (hr : 0 < r)
    (hcut : ∀ box ∈ box?, box.AcceptsCutoff (.replicate r)) (hx : ∀ box ∈ box?, box.Encloses x)
    (hys : ∀ box ∈ box?, ∀ z ∈ ys, box.Encloses z) (hy : ys[j]? = some y)
    (hnear : (moved box? s y - x).norm < r) : Sees box? r ys j y s ↔
      SupportsShift box? s ∧ ∀ box ∈ box?, ¬box.Shadowed ys.toList j s := by
  cases box? with
  | none =>
    rw [supportsShift_none]
    exact (and_iff_left (forall_mem_none)).symm
  | some box =>
    rw [← Array.getElem?_toList] at hy
    simp only [Option.mem_def, Option.some.injEq, forall_eq']
    rw [supportsShift_some]
    exact Box.offers_iff (hcut box rfl) hr (fun z hz => hys box rfl z (Array.mem_toList_iff.1 hz)) hy
      (hx box rfl) hnear

theorem foundRow_search (ho : o.Valid) (hcut : ∀ box ∈ box?, box.AcceptsCutoff (.replicate o.searchRadius))
    (hx : points.query[i]? = some x) :
    FoundRow box? o f points i x (searchRow box? o f points i x) := by
  cases box? with
  | none => exact foundRow_direct ho hx
  | some box => exact foundRow_periodic ho (hcut box rfl) hx

/-- **A pair within two cutoffs** is found with the one if it is found with the other. -/
theorem mem_searchRow_cutoff (ho : o.Valid) (ho' : o'.Valid) (hself : o.selfPairs = o'.selfPairs)
    (hcut : ∀ box ∈ box?, box.AcceptsCutoff (.replicate o.searchRadius))
    (hcut' : ∀ box ∈ box?, box.AcceptsCutoff (.replicate o'.searchRadius))
    (hquery : ∀ box ∈ box?, ∀ z ∈ points.query, box.Encloses z)
    (hreference : ∀ box ∈ box?, ∀ z ∈ points.reference, box.Encloses z)
    (hx : points.query[i]? = some x) (hlt : p.distance < o'.cutoff)
    (h : p ∈ searchRow box? o f points i x) : p ∈ searchRow box? o' f points i x := by
  obtain ⟨y, hy, hsees, hk, hnear, hitself, heq⟩ := (mem_searchRow ho hx).1 h
  have hnear' : (moved box? p.shift y - x).norm < o'.searchRadius := by
    rw [heq] at hlt
    exact hlt.trans_le ho'.cutoff_le
  have hin : ∀ box ∈ box?, box.Encloses x :=
    fun box hb => hquery box hb x (Array.mem_of_getElem? hx)
  rw [sees_iff ho.searchRadius_pos hcut hin hreference hy hnear,
    ← sees_iff ho'.searchRadius_pos hcut' hin hreference hy hnear'] at hsees
  rw [hself] at hitself
  exact (mem_searchRow ho' hx).2 ⟨y, hy, hsees, hk, hnear', hitself, heq⟩

/-- The pairs of a list are within its cutoff. -/
theorem within_rows (h : (build box? o query reference? f).result = .ok l) :
    within o.cutoff l.rows = l.rows := by
  obtain ⟨ho, d, points, -, -, -, -, -, rfl⟩ := build_ok_iff.1 h
  rw [rows_fresh ho, within_within le_rfl]

/-- **Longer cutoffs** find the same near pairs. -/
theorem agreeWithin_build (hc : c ≤ o.cutoff) (hc' : c ≤ o'.cutoff) (hself : o.selfPairs = o'.selfPairs)
    (h : (build box? o query reference? f).result = .ok l)
    (h' : (build box? o' query reference? f).result = .ok l') : AgreeWithin c l l' := by
  obtain ⟨ho, d, points, hd, -, hbox, hpoints, -, rfl⟩ := build_ok_iff.1 h
  obtain ⟨ho', d', points', hd', -, hbox', hpoints', -, rfl⟩ := build_ok_iff.1 h'
  obtain rfl : points' = points := hpoints'.trans hpoints.symm
  obtain rfl : d' = d := Option.some.inj (hd'.symm.trans hd)
  have hcut := fun box hb => (hbox box hb).1
  have hcut' := fun box hb => (hbox' box hb).1
  have hquery : ∀ box ∈ box?, ∀ z ∈ points'.query, box.Encloses z := by
    intro box hb
    rw [hpoints]
    exact (hbox box hb).2.1.2
  have hreference : ∀ box ∈ box?, ∀ z ∈ points'.reference, box.Encloses z := by
    intro box hb
    rw [hpoints, PointSets.reference_map_points]
    exact ((hbox box hb).2.1.getD (hbox box hb).2.2).2
  refine ⟨by rw [dimension_ofRows, dimension_ofRows], by rw [points_ofRows, points_ofRows], ?_⟩
  rw [rows_fresh ho, rows_fresh ho', within_within hc, within_within hc', foundRows_eq, foundRows_eq]
  refine within_congr (fun i x => foundRow_search ho' hcut') (fun i x => foundRow_search ho hcut)
    fun i x hx p hlt => ⟨fun hp => ?_, fun hp => ?_⟩
  · exact mem_searchRow_cutoff ho' ho hself.symm hcut' hcut hquery hreference hx (hlt.trans_le hc) hp
  · exact mem_searchRow_cutoff ho ho' hself hcut hcut' hquery hreference hx (hlt.trans_le hc') hp

end Searches

end SmoothedParticles.NeighborList
