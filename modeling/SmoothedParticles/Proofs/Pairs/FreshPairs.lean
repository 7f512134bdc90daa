import SmoothedParticles.Proofs.Pairs.PeriodicDistances

/-!
# The pairs of a fresh list

A list that was just built has a pair for each point that its search looks at and finds within the cutoff.
This is said here in the same way for lists in a box and for lists without one.

* `build_ok_iff`: **when a list is built**, and which.
* `Sees`: the reference points and shifts that a search looks at.
* `searchRow`, `mem_searchRow`: the row of a query point in a search.
* `SeenPair`, `mem_pairs_fresh`: **the pairs of a fresh list**.
* `shift_eq`, `shift_eq_zero`: within the search radius of a point there is at most one copy of another one,
  and no image of the point itself.
* `SeenPair.distance_eq`: the distance of a pair is that of the nearest image.
* `exists_sees`, `exists_sees_nearest`: no copy within the search radius is overlooked.
* `Sound.pairwise_pairs`, `Sound.nodup_pairs`: **the order of all pairs**.
* `rows_eq_of_pairs`: lists with the same pairs have the same rows.
-/

namespace SmoothedParticles.NeighborList

variable {box? : Option (Box ℝ)} {o : SearchOptions ℝ} {f : PairFilter} {d : Dimension}
  {points : PointSets ℝ} {l l' : NeighborList ℝ} {p : Pair ℝ} {i j : ℕ} {x y : Vec3 ℝ} {r : ℝ}
  {s t : Vec3 ℤ}

/-- **When a list is built**, and which. The dimension is that of the tables, in a box too. -/
theorem build_ok_iff {query : Table ℝ} {reference? : Option (Table ℝ)} :
    (build box? o query reference? f).result = .ok l ↔ o.Valid ∧ ∃ d points,
      Dimension.ofNat? query.columns = some d ∧ (∀ t ∈ reference?, t.columns = query.columns) ∧
      (∀ box ∈ box?, box.AcceptsCutoff (.replicate o.searchRadius) ∧ box.Admits query ∧
        ∀ t ∈ reference?, box.Admits t) ∧
      points = ⟨query.points, reference?.map Table.points⟩ ∧
      f.Fits points.query.size points.reference.size ∧
      l = ofRows o f d points box? (foundRows box? o f points) := by
  cases box? with
  | none =>
    refine direct_ok_iff.trans (and_congr_right fun _ => exists₂_congr fun d points => ?_)
    simp only [Option.mem_def, reduceCtorEq, false_imp_iff, implies_true, true_and]
    rfl
  | some box =>
    have hdimension : Dimension.ofNat? box.dimension.toNat = some box.dimension := by
      cases box.dimension <;> rfl
    refine periodic_ok_iff.trans (and_congr_right fun _ => ?_)
    simp only [Option.mem_def, Option.some.injEq, forall_eq']
    constructor
    · rintro ⟨hquery, hreference, hcut, points, hpoints, hf, rfl⟩
      exact ⟨box.dimension, points, by rw [hquery.1, hdimension],
        fun t ht => (hreference t ht).1.trans hquery.1.symm, ⟨hcut, hquery, hreference⟩, hpoints, hf, rfl⟩
    · rintro ⟨d, points, hd, -, ⟨hcut, hquery, hreference⟩, hpoints, hf, rfl⟩
      rw [hquery.1, hdimension] at hd
      obtain rfl := Option.some.inj hd
      exact ⟨hquery, hreference, hcut, points, hpoints, hf, rfl⟩

section Rows

/-- Does a search look at the reference point, moved by the shift? Without a box it looks only at the point
itself. -/
def Sees (box? : Option (Box ℝ)) (r : ℝ) (ys : Array (Vec3 ℝ)) (j : ℕ) (y : Vec3 ℝ) (s : Vec3 ℤ) :
    Prop :=
  box?.elim (s = .replicate 0) fun box => box.Offers (.replicate r) ys.toList j y s

theorem sees_zero {ys : Array (Vec3 ℝ)} : Sees box? r ys j y (.replicate 0) := by
  cases box? with
  | none => exact rfl
  | some box => exact .inl rfl

theorem Sees.supports {ys : Array (Vec3 ℝ)} (h : Sees box? r ys j y s) : SupportsShift box? s := by
  cases box? with
  | none => exact supportsShift_none.2 h
  | some box => exact supportsShift_some.2 (Box.Offers.supports h)

theorem supportsShift_zero : SupportsShift box? (.replicate 0) :=
  fun a ha => absurd (Vec3.get_replicate 0 a) ha

@[simp] theorem moved_zero (box? : Option (Box ℝ)) (y : Vec3 ℝ) : moved box? (.replicate 0) y = y := by
  cases box? with
  | none => rfl
  | some box => exact box.displace_zero y

/-- The pairs of a query point within the search radius, in order. -/
noncomputable def searchRow (box? : Option (Box ℝ)) (o : SearchOptions ℝ) (f : PairFilter)
    (points : PointSets ℝ) (i : ℕ) (x : Vec3 ℝ) : List (Pair ℝ) :=
  match box? with
  | none => ((directSearch o f points).rowByPairs i x).map (pairOfHit i)
  | some box => periodicRow box o f points i x

theorem foundRows_eq :
    foundRows box? o f points = points.query.mapIdx (searchRow box? o f points) := by
  cases box? <;> rfl

/-- **The pairs of a row within the search radius.** Only a point itself is subject to the choice of self
pairs, and not its images. -/
theorem mem_searchRow (ho : o.Valid) (hx : points.query[i]? = some x) :
    p ∈ searchRow box? o f points i x ↔
      ∃ y, points.reference[p.second]? = some y ∧
        Sees box? o.searchRadius points.reference p.second y p.shift ∧ f.keep i p.second = true ∧
        (moved box? p.shift y - x).norm < o.searchRadius ∧
        (points.reference? = none → i = p.second → p.shift = .replicate 0 → o.selfPairs = true) ∧
        p = pairTo i x p.second (moved box? p.shift y) p.shift := by
  cases box? with
  | some box => exact mem_periodicRow ho hx
  | none =>
    refine (mem_directRow ho hx).trans (exists_congr fun y => ?_)
    show _ ↔ _ ∧ p.shift = .replicate 0 ∧ _ ∧ (y - x).norm < _ ∧ _ ∧ p = pairTo i x p.second y p.shift
    constructor
    · rintro ⟨hy, hk, hnear, hitself, heq⟩
      have hzero : p.shift = .replicate 0 := by rw [heq]; rfl
      exact ⟨hy, hzero, hk, hnear, fun hself hi _ => hitself hself hi, by rw [hzero]; exact heq⟩
    · rintro ⟨hy, hzero, hk, hnear, hitself, heq⟩
      rw [hzero] at heq
      exact ⟨hy, hk, hnear, fun hself hi => hitself hself hi hzero, heq⟩

/-- **The rows of a fresh list.** -/
theorem rows_fresh (ho : o.Valid) :
    (ofRows o f d points box? (foundRows box? o f points)).rows =
      within o.cutoff (foundRows box? o f points) := by
  rw [foundRows_eq]
  refine ofRows_rows ho fun i x hx p hp => ?_
  obtain ⟨y, -, -, -, hnear, -, heq⟩ := (mem_searchRow ho hx).1 hp
  rw [heq]
  exact hnear

/-- **A pair that a search finds within the cutoff**, whatever the choice of self pairs. -/
def SeenPair (box? : Option (Box ℝ)) (o : SearchOptions ℝ) (f : PairFilter) (points : PointSets ℝ)
    (p : Pair ℝ) : Prop :=
  ∃ x y, points.query[p.first]? = some x ∧ points.reference[p.second]? = some y ∧
    Sees box? o.searchRadius points.reference p.second y p.shift ∧
    f.keep p.first p.second = true ∧ (moved box? p.shift y - x).norm < o.cutoff ∧
    p = pairTo p.first x p.second (moved box? p.shift y) p.shift

/-- **The pairs of a fresh list.** Over one set of points, a point and itself are a pair if asked for. -/
theorem mem_pairs_fresh (ho : o.Valid) :
    p ∈ (ofRows o f d points box? (foundRows box? o f points)).pairs ↔
      SeenPair box? o f points p ∧
        (points.reference? = none → p.first = p.second → p.shift = .replicate 0 →
          o.selfPairs = true) := by
  rw [mem_pairs_iff, rows_fresh ho, foundRows_eq]
  simp only [within, Array.getElem?_map, Array.getElem?_mapIdx, Option.map_map,
    Option.map_eq_some_iff]
  constructor
  · rintro ⟨i, _, ⟨x, hx, rfl⟩, hp⟩
    obtain ⟨hp, hdist⟩ := List.mem_filter.1 hp
    obtain ⟨y, hy, hsees, hk, -, hitself, heq⟩ := (mem_searchRow ho hx).1 hp
    obtain rfl : p.first = i := by
      rw [heq]
      rfl
    rw [decide_eq_true_eq, heq] at hdist
    exact ⟨⟨x, y, hx, hy, hsees, hk, hdist, heq⟩, hitself⟩
  · rintro ⟨⟨x, y, hx, hy, hsees, hk, hnear, heq⟩, hitself⟩
    refine ⟨p.first, _, ⟨x, hx, rfl⟩, List.mem_filter.2 ⟨(mem_searchRow ho hx).2 ?_, ?_⟩⟩
    · exact ⟨y, hy, hsees, hk, hnear.trans_le ho.cutoff_le, hitself, heq⟩
    · rw [decide_eq_true_eq, heq]
      exact hnear

/-- **Within the search radius** of a point there is at most one copy of another one. -/
theorem shift_eq (hcut : ∀ box ∈ box?, box.AcceptsCutoff (.replicate r)) (hr : 0 < r)
    (hs : SupportsShift box? s) (ht : SupportsShift box? t) (h : (moved box? s y - x).norm < r)
    (h' : (moved box? t y - x).norm < r) : s = t := by
  cases box? with
  | none => rw [supportsShift_none.1 hs, supportsShift_none.1 ht]
  | some box =>
    exact Box.shift_unique (hcut box rfl) hr (supportsShift_some.1 hs) (supportsShift_some.1 ht) h h'

/-- **No image of a point** is within the search radius of the point itself. -/
theorem shift_eq_zero (hcut : ∀ box ∈ box?, box.AcceptsCutoff (.replicate r)) (hr : 0 < r)
    (hs : SupportsShift box? s) (h : (moved box? s x - x).norm < r) : s = .replicate 0 := by
  have hitself : (moved box? (.replicate 0) x - x).norm < r := by
    have hzero : x - x = .zero := Vec3.ext_get fun a => by rw [Vec3.get_sub, sub_self, Vec3.get_zero]
    rw [moved_zero, hzero, Vec3.norm_zero]
    exact hr
  exact shift_eq hcut hr hs supportsShift_zero h hitself

/-- **A point is not a neighbor of its own images.** -/
theorem SeenPair.shift_eq_zero (h : SeenPair box? o f points p) (ho : o.Valid)
    (hcut : ∀ box ∈ box?, box.AcceptsCutoff (.replicate o.searchRadius))
    (hself : points.reference = points.query) (hp : p.first = p.second) : p.shift = .replicate 0 := by
  obtain ⟨x, y, hx, hy, hsees, -, hnear, -⟩ := h
  rw [hself, ← hp, hx] at hy
  obtain rfl := Option.some.inj hy
  exact NeighborList.shift_eq_zero hcut ho.searchRadius_pos hsees.supports
    (hnear.trans_le ho.cutoff_le)

/-- The nearest image of a separation is as long as the least distance to a copy; without a box there is
only the point itself. -/
theorem isLeast_norm_nearestIn (box? : Option (Box ℝ)) (x y : Vec3 ℝ) :
    IsLeast {c | ∃ s, SupportsShift box? s ∧ (moved box? s y - x).norm = c}
      (nearestIn box? (y - x)).norm := by
  cases box? with
  | none =>
    refine ⟨⟨.replicate 0, supportsShift_zero, rfl⟩, ?_⟩
    rintro _ ⟨s, -, rfl⟩
    exact le_rfl
  | some box =>
    simp only [supportsShift_some]
    exact box.isLeast_distance x y

/-- **The distance of a pair is that of the nearest image**: no other copy is within the search radius. -/
theorem SeenPair.distance_eq (h : SeenPair box? o f points p) (ho : o.Valid)
    (hcut : ∀ box ∈ box?, box.AcceptsCutoff (.replicate o.searchRadius)) :
    ∃ x y, points.query[p.first]? = some x ∧ points.reference[p.second]? = some y ∧
      p.distance = (nearestIn box? (y - x)).norm ∧ p.distance < o.cutoff := by
  obtain ⟨x, y, hx, hy, hsees, -, hnear, heq⟩ := h
  have hdistance : p.distance = (moved box? p.shift y - x).norm := by
    rw [heq]
    rfl
  obtain ⟨⟨s, hs, hleast⟩, hlower⟩ := isLeast_norm_nearestIn box? x y
  have hle := hlower ⟨p.shift, hsees.supports, rfl⟩
  have hlt : (moved box? s y - x).norm < o.searchRadius := by
    rw [hleast]
    exact hle.trans_lt (hnear.trans_le ho.cutoff_le)
  have hshift := shift_eq hcut ho.searchRadius_pos hs hsees.supports hlt
    (hnear.trans_le ho.cutoff_le)
  refine ⟨x, y, hx, hy, ?_, hdistance ▸ hnear⟩
  rw [hdistance, ← hleast, hshift]

/-- **Each copy of a point within the search radius is seen**, although perhaps as a copy of another point
at the same place. A point itself is seen as itself. -/
theorem exists_sees {ys : Array (Vec3 ℝ)} (hr : 0 < r)
    (hcut : ∀ box ∈ box?, box.AcceptsCutoff (.replicate r))
    (hin : ∀ box ∈ box?, box.Encloses x ∧ box.Encloses y) (hy : ys[j]? = some y)
    (hs : SupportsShift box? s) (hnear : (moved box? s y - x).norm < r) :
    ∃ (k : ℕ) (z : Vec3 ℝ) (t : Vec3 ℤ), ys[k]? = some z ∧ Sees box? r ys k z t ∧
      moved box? t z = moved box? s y ∧ (t = .replicate 0 → k = j) := by
  by_cases h0 : s = .replicate 0
  · rw [h0]
    exact ⟨j, y, _, hy, sees_zero, rfl, fun _ => rfl⟩
  cases box? with
  | none => exact absurd (supportsShift_none.1 hs) h0
  | some box =>
    obtain ⟨hx, hy'⟩ := hin box rfl
    have hclose : ∀ a ∈ box.dimension.axes,
        |(box.displace s y).get a - x.get a| ≤ (Vec3.replicate r).get a := by
      intro a _
      rw [← Vec3.get_sub, Vec3.get_replicate]
      exact (Vec3.abs_get_lt_of_norm_lt hr hnear a).le
    have hget : ys.toList[j]? = some y := by rw [Array.getElem?_toList, hy]
    -- the copy has an image at its position, which may be the copy of another point
    obtain ⟨c, hc, hpos⟩ := exists_image_at
      (Box.mem_copies_of_near (hcut box rfl) hy' hx hget h0 (supportsShift_some.1 hs) hclose)
    obtain ⟨z, k, t, hz, ht, rfl⟩ := Box.copy_of_mem_items hc
    rw [Array.getElem?_toList] at hz
    exact ⟨k, z, t, hz, .inr hc, hpos, fun hzero => absurd hzero ht.ne_zero⟩

/-- **The nearest image of a point is seen** in this sense, if it is within the search radius. -/
theorem exists_sees_nearest {ys : Array (Vec3 ℝ)} (hr : 0 < r)
    (hcut : ∀ box ∈ box?, box.AcceptsCutoff (.replicate r))
    (hin : ∀ box ∈ box?, box.Encloses x ∧ box.Encloses y) (hy : ys[j]? = some y)
    (hnear : (nearestIn box? (y - x)).norm < r) :
    ∃ (k : ℕ) (z : Vec3 ℝ) (t : Vec3 ℤ), ys[k]? = some z ∧ Sees box? r ys k z t ∧
      (moved box? t z - x).norm = (nearestIn box? (y - x)).norm ∧ (t = .replicate 0 → k = j) := by
  obtain ⟨⟨s, hs, hleast⟩, -⟩ := isLeast_norm_nearestIn box? x y
  rw [← hleast] at hnear ⊢
  obtain ⟨k, z, t, hz, hsees, hplace, hzero⟩ := exists_sees hr hcut hin hy hs hnear
  exact ⟨k, z, t, hz, hsees, by rw [hplace], hzero⟩

end Rows

section Order

/-- **All pairs are in order**, by their query points and then by their reference points. -/
theorem Sound.pairwise_pairs (h : Sound l) :
    l.pairs.Pairwise fun p q => p.first < q.first ∨ p.first = q.first ∧ p.second < q.second := by
  have hfirst : ∀ (i : ℕ) (hi : i < l.rows.toList.length), ∀ p ∈ l.rows.toList[i], p.first = i := by
    intro i hi p hp
    have hrow : l.rows[i]? = some l.rows.toList[i] := by
      rw [← Array.getElem?_toList, List.getElem?_eq_getElem hi]
    exact (h.rows.indexed i _ hrow p hp).first
  refine List.pairwise_flatten.2 ⟨fun row hrow => ?_, List.pairwise_iff_getElem.2 ?_⟩
  · obtain ⟨i, hi, rfl⟩ := List.getElem_of_mem hrow
    refine (List.Pairwise.and_mem.1 (h.rows.sorted _ (Array.mem_toList_iff.1 hrow))).imp ?_
    rintro p q ⟨hp, hq, hlt⟩
    exact .inr ⟨(hfirst i hi p hp).trans (hfirst i hi q hq).symm, hlt⟩
  · -- pairs of different rows have different first points
    intro i j hi hj hij p hp q hq
    rw [hfirst i hi p hp, hfirst j hj q hq]
    exact .inl hij

/-- **Rows have each pair once.** -/
theorem Sound.nodup_pairs (h : Sound l) : l.pairs.Nodup := by
  refine h.pairwise_pairs.imp ?_
  rintro p _ hlt rfl
  omega

theorem Sound.mem_row_iff (h : Sound l) {row : List (Pair ℝ)} (hrow : l.rows[i]? = some row) :
    p ∈ row ↔ p ∈ l.pairs ∧ p.first = i := by
  rw [mem_pairs_iff]
  constructor
  · intro hp
    exact ⟨⟨i, row, hrow, hp⟩, (h.rows.indexed i row hrow p hp).first⟩
  · rintro ⟨⟨k, row', hrow', hp⟩, rfl⟩
    have hk := (h.rows.indexed k row' hrow' p hp).first
    rw [hk, hrow'] at hrow
    rwa [← Option.some.inj hrow]

/-- **Lists with the same pairs have the same rows**: the pairs tell their row and their place in it. -/
theorem rows_eq_of_pairs (h : Sound l) (h' : Sound l') (hsize : l.rows.size = l'.rows.size)
    (hmem : ∀ p, p ∈ l.pairs ↔ p ∈ l'.pairs) : l.rows = l'.rows := by
  refine Array.ext hsize fun i hi hi' => row_ext ?_ ?_ fun p => ?_
  · exact h.rows.sorted _ (Array.getElem_mem hi)
  · exact h'.rows.sorted _ (Array.getElem_mem hi')
  · rw [h.mem_row_iff (Array.getElem?_eq_getElem hi), h'.mem_row_iff (Array.getElem?_eq_getElem hi'),
      hmem]

end Order

end SmoothedParticles.NeighborList
