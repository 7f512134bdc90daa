import SmoothedParticles.Proofs.Pairs.Reachable

/-!
# What holds of every list

The shifts and vectors of pairs come from images when a list is built, and from the nearest image of a
separation when its pairs are computed again. Both ways keep one invariant.

* `IndexedPair`, `IndexedRows`: what pairs say about the indexes of points, wherever the points are.
* `Measured`: what a pair says about the positions of its points.
* `Sound`: the invariant of a list and of its reserve.
* `row_ext`: rows are determined by their pairs.
* `sound_ofRows`: a list built from scratch is sound.
* `nearestImage_cases`, `shiftBetween_eq`: the nearest image of a separation belongs to a shift of at
  most one box length.
* `sound_revalidate`: a list computed again is sound.
* `pairs_of_reachable`: **the rows of every list that can come about**.
-/

namespace SmoothedParticles.NeighborList

/-- A point moved by a shift; without a box it stays. -/
noncomputable def moved (box? : Option (Box ℝ)) (s : Vec3 ℤ) (y : Vec3 ℝ) : Vec3 ℝ :=
  box?.elim y fun box => box.displace s y

/-- Is the shift along periodic axes? Without a box there are none. -/
def SupportsShift (box? : Option (Box ℝ)) (s : Vec3 ℤ) : Prop :=
  ∀ a, s.get a ≠ 0 → ∃ box ∈ box?, box.periodic.get a = true

theorem supportsShift_some {box : Box ℝ} {s : Vec3 ℤ} :
    SupportsShift (some box) s ↔ box.Supports s := by
  refine forall₂_congr fun a _ => ⟨?_, fun h => ⟨box, rfl, h⟩⟩
  intro h
  obtain ⟨b, hb, hper⟩ := h
  obtain rfl := Option.some.inj hb
  exact hper

theorem supportsShift_none {s : Vec3 ℤ} : SupportsShift none s ↔ s = .replicate 0 := by
  constructor
  · intro h
    refine Vec3.ext_get fun a => ?_
    rw [Vec3.get_replicate]
    by_contra h0
    obtain ⟨box, hb, -⟩ := h a h0
    exact Option.not_mem_none box hb
  · intro h a ha
    rw [h, Vec3.get_replicate] at ha
    exact absurd rfl ha

/-- A pair of a query point with one of some reference points. -/
structure IndexedPair (box? : Option (Box ℝ)) (f : PairFilter) (nReference i : ℕ) (p : Pair ℝ) :
    Prop where
  first : p.first = i
  second : p.second < nReference
  keep : f.keep i p.second = true
  supports : SupportsShift box? p.shift

/-- **Rows of pairs between some numbers of points**, wherever the points are. -/
structure IndexedRows (box? : Option (Box ℝ)) (f : PairFilter) (nQuery nReference : ℕ)
    (rows : Array (List (Pair ℝ))) : Prop where
  size : rows.size = nQuery
  sorted : ∀ row ∈ rows, row.Pairwise fun p q => p.second < q.second
  indexed : ∀ (i : ℕ) row, rows[i]? = some row → ∀ p ∈ row, IndexedPair box? f nReference i p

/-- **A pair that is right at the positions of its points.** -/
structure Measured (l : NeighborList ℝ) (p : Pair ℝ) : Prop where
  vector : ∃ x y, l.points.query[p.first]? = some x ∧ l.points.reference[p.second]? = some y ∧
    p.vector = moved l.box? p.shift y - x
  distance : p.distance = p.vector.norm
  near : p.distance < l.options.cutoff
  unit : ∀ a, p.shift.get a = 0 ∨ p.shift.get a = 1 ∨ p.shift.get a = -1

/-- **The invariant of a list**, with what it keeps in reserve. -/
structure Sound (l : NeighborList ℝ) : Prop where
  rows : IndexedRows l.box? l.filter l.points.query.size l.points.reference.size l.rows
  reserve : ∀ full ∈ l.reserve?,
    IndexedRows l.box? l.filter l.points.query.size l.points.reference.size full.rows
  measured : ∀ row ∈ l.rows, ∀ p ∈ row, Measured l p

/-- The reference points of pairs exist. -/
theorem Sound.second_lt {l : NeighborList ℝ} (h : Sound l) {row : List (Pair ℝ)} {p : Pair ℝ}
    (hrow : row ∈ l.rows) (hp : p ∈ row) : p.second < l.nReference := by
  obtain ⟨i, hi⟩ := Array.getElem?_of_mem hrow
  exact (h.rows.indexed i row hi p hp).second

theorem Sound.distance_nonneg {l : NeighborList ℝ} (h : Sound l) {row : List (Pair ℝ)} {p : Pair ℝ}
    (hrow : row ∈ l.rows) (hp : p ∈ row) : 0 ≤ p.distance := by
  rw [(h.measured row hrow p hp).distance]
  exact Vec3.norm_nonneg _

/-- Rows are determined by their pairs, since they are sorted. -/
theorem row_ext {row row' : List (Pair ℝ)} (h : row.Pairwise fun p q => p.second < q.second)
    (h' : row'.Pairwise fun p q => p.second < q.second) (hmem : ∀ p, p ∈ row ↔ p ∈ row') :
    row = row' := by
  have : Std.Antisymm fun p q : Pair ℝ => p.second < q.second :=
    ⟨fun p q hpq hqp => absurd hqp hpq.asymm⟩
  have : Std.Irrefl fun p q : Pair ℝ => p.second < q.second := ⟨fun p => lt_irrefl _⟩
  exact h.eq_of_mem_iff h' hmem

section Rows

variable {box? : Option (Box ℝ)} {f : PairFilter} {n m : ℕ} {rows : Array (List (Pair ℝ))}

/-- Rows stay in order if pairs are left out, or get other data. -/
theorem IndexedRows.filterMap (h : IndexedRows box? f n m rows) {g : Pair ℝ → Option (Pair ℝ)}
    (hg : ∀ row ∈ rows, ∀ p ∈ row, ∀ q, g p = some q →
      q.first = p.first ∧ q.second = p.second ∧ SupportsShift box? q.shift) :
    IndexedRows box? f n m (rows.map (·.filterMap g)) where
  size := by rw [Array.size_map, h.size]
  sorted := by
    intro newRow hnew
    obtain ⟨row, hrow, rfl⟩ := Array.mem_map.1 hnew
    rw [List.pairwise_filterMap]
    refine (List.Pairwise.and_mem.1 (h.sorted row hrow)).imp ?_
    rintro p q ⟨hp, hq, hlt⟩ p' hp' q' hq'
    rw [(hg row hrow p hp p' hp').2.1, (hg row hrow q hq q' hq').2.1]
    exact hlt
  indexed := by
    intro i newRow hnew q hq
    rw [Array.getElem?_map] at hnew
    obtain ⟨row, hrow, rfl⟩ := Option.map_eq_some_iff.1 hnew
    obtain ⟨p, hp, hpq⟩ := List.mem_filterMap.1 hq
    obtain ⟨hfirst, hsecond, hshift⟩ := hg row (Array.mem_of_getElem? hrow) p hp q hpq
    obtain ⟨hpf, hps, hk, -⟩ := h.indexed i row hrow p hp
    rw [← hsecond] at hps hk
    exact ⟨hfirst.trans hpf, hps, hk, hshift⟩

theorem IndexedRows.filter (h : IndexedRows box? f n m rows) (keep : Pair ℝ → Bool) :
    IndexedRows box? f n m (rows.map (·.filter keep)) := by
  have hfilter : (fun row : List (Pair ℝ) => row.filter keep) =
      fun row => row.filterMap (Option.guard keep) := by
    funext row
    rw [List.filterMap_eq_filter]
  rw [hfilter]
  refine h.filterMap fun row hrow p hp q hpq => ?_
  obtain ⟨rfl, -⟩ := Option.guard_eq_some_iff.1 hpq
  obtain ⟨i, hi⟩ := Array.getElem?_of_mem hrow
  exact ⟨rfl, rfl, (h.indexed i row hi p hp).supports⟩

end Rows

section Built

variable {box? : Option (Box ℝ)} {o : SearchOptions ℝ} {f : PairFilter} {d : Dimension}
  {points : PointSets ℝ}

/-- The row of a query point in a search: pairs with moved reference points within the search radius,
one for each reference point at most. -/
structure FoundRow (box? : Option (Box ℝ)) (o : SearchOptions ℝ) (f : PairFilter)
    (points : PointSets ℝ) (i : ℕ) (x : Vec3 ℝ) (row : List (Pair ℝ)) : Prop where
  sorted : row.Pairwise fun p q => p.second < q.second
  found : ∀ p ∈ row, f.keep i p.second = true ∧ SupportsShift box? p.shift ∧
    (∀ a, p.shift.get a = 0 ∨ p.shift.get a = 1 ∨ p.shift.get a = -1) ∧
    ∃ y, points.reference[p.second]? = some y ∧ (moved box? p.shift y - x).norm < o.searchRadius ∧
      p = pairTo i x p.second (moved box? p.shift y) p.shift

theorem foundRow_direct {i : ℕ} {x : Vec3 ℝ} (ho : o.Valid) (hx : points.query[i]? = some x) :
    FoundRow none o f points i x
      (((directSearch o f points).rowByPairs i x).map (pairOfHit i)) where
  sorted := List.pairwise_map.2 (Search.pairwise_rowByPairs _ i x)
  found := by
    intro p hp
    obtain ⟨y, hy, hk, hnear, -, heq⟩ := (mem_directRow ho hx).1 hp
    have hzero : p.shift = .replicate 0 := by rw [heq]; rfl
    refine ⟨hk, supportsShift_none.2 hzero, fun a => .inl ?_, y, hy, hnear, ?_⟩
    · rw [hzero, Vec3.get_replicate]
    · rw [hzero]
      exact heq

theorem foundRow_periodic {box : Box ℝ} {i : ℕ} {x : Vec3 ℝ} (ho : o.Valid)
    (hcut : box.AcceptsCutoff (.replicate o.searchRadius)) (hx : points.query[i]? = some x) :
    FoundRow (some box) o f points i x (periodicRow box o f points i x) where
  sorted := pairwise_periodicRow ho hcut hx
  found := by
    intro p hp
    obtain ⟨y, hy, hoffers, hk, hnear, -, heq⟩ := (mem_periodicRow ho hx).1 hp
    exact ⟨hk, supportsShift_some.2 hoffers.supports, hoffers.unit, y, hy, hnear, heq⟩

/-- **A list built from scratch is sound.** -/
theorem sound_ofRows {row : ℕ → Vec3 ℝ → List (Pair ℝ)} (ho : o.Valid)
    (hrow : ∀ i x, points.query[i]? = some x → FoundRow box? o f points i x (row i x)) :
    Sound (ofRows o f d points box? (points.query.mapIdx row)) := by
  have hindexed : IndexedRows box? f points.query.size points.reference.size
      (points.query.mapIdx row) := by
    refine ⟨Array.size_mapIdx, fun r hr => ?_, fun i r hr p hp => ?_⟩
    · obtain ⟨i, hi⟩ := Array.getElem?_of_mem hr
      rw [Array.getElem?_mapIdx] at hi
      obtain ⟨x, hx, rfl⟩ := Option.map_eq_some_iff.1 hi
      exact (hrow i x hx).sorted
    · rw [Array.getElem?_mapIdx] at hr
      obtain ⟨x, hx, rfl⟩ := Option.map_eq_some_iff.1 hr
      obtain ⟨hk, hsupports, -, y, hy, -, heq⟩ := (hrow i x hx).found p hp
      exact ⟨by rw [heq]; rfl, (Array.getElem?_eq_some_iff.1 hy).1, hk, hsupports⟩
  have hrows : (ofRows o f d points box? (points.query.mapIdx row)).rows =
      within o.cutoff (points.query.mapIdx row) := by
    refine ofRows_rows ho fun i x hx p hp => ?_
    obtain ⟨-, -, -, y, -, hnear, heq⟩ := (hrow i x hx).found p hp
    rw [heq]
    exact hnear
  refine ⟨?_, ?_, ?_⟩
  · rw [hrows, box?_ofRows, filter_ofRows, points_ofRows]
    exact hindexed.filter _
  · intro full hfull
    rw [reserve?_ofRows] at hfull
    obtain ⟨-, hfull⟩ := Option.ite_none_right_eq_some.1 hfull
    rw [← Option.some.inj hfull, box?_ofRows, filter_ofRows, points_ofRows]
    exact hindexed
  · intro r hr p hp
    rw [hrows] at hr
    obtain ⟨all, hall, rfl⟩ := Array.mem_map.1 hr
    obtain ⟨i, hi⟩ := Array.getElem?_of_mem hall
    rw [Array.getElem?_mapIdx] at hi
    obtain ⟨x, hx, rfl⟩ := Option.map_eq_some_iff.1 hi
    obtain ⟨hp, hdist⟩ := List.mem_filter.1 hp
    obtain ⟨-, -, hunit, y, hy, -, heq⟩ := (hrow i x hx).found p hp
    refine ⟨⟨x, y, ?_, ?_, ?_⟩, ?_, ?_, hunit⟩
    · rw [points_ofRows, heq]
      exact hx
    · rw [points_ofRows]
      exact hy
    · rw [box?_ofRows]
      exact congrArg Pair.vector heq
    · rw [heq]
      rfl
    · rw [options_ofRows]
      exact of_decide_eq_true hdist

end Built

theorem sound_build {box? : Option (Box ℝ)} {o : SearchOptions ℝ} {query : Table ℝ}
    {reference? : Option (Table ℝ)} {f : PairFilter} {l : NeighborList ℝ}
    (h : (build box? o query reference? f).result = .ok l) : Sound l := by
  cases box? with
  | none =>
    obtain ⟨ho, d, points, -, -, -, -, rfl⟩ := direct_ok_iff.1 h
    exact sound_ofRows ho fun i x hx => foundRow_direct ho hx
  | some box =>
    obtain ⟨ho, -, -, hcut, points, -, -, rfl⟩ := periodic_ok_iff.1 h
    exact sound_ofRows ho fun i x hx => foundRow_periodic ho hcut hx

section Update

variable {l : NeighborList ℝ} {new : PointSets ℝ}

/-- **Along each axis**, the nearest image of a separation is the separation moved by the new shift:
by the whole number of lengths in it along a periodic axis, and by nothing along the others. -/
theorem nearestImage_cases {box : Box ℝ} {s : Vec3 ℤ} (hs : box.Supports s) (v : Vec3 ℝ) (a : Axis) :
    let t := shiftBetween box s v (box.nearestImage v)
    (box.periodic.get a = true ∧ t.get a = -nearestWhole (v.get a / box.length a) ∧
      (box.nearestImage v).get a = v.get a + t.get a * box.length a) ∨
    (t.get a = 0 ∧ (box.nearestImage v).get a = v.get a) := by
  intro t
  by_cases hper : box.periodic.get a = true
  · have hL := (Box.length_pos_of_periodic hper).ne'
    have hnearest : (box.nearestImage v).get a =
        v.get a - nearestWhole (v.get a / box.length a) * box.length a := by
      rw [Box.nearestImage, Vec3.get_ofFn, if_pos hper]
      rfl
    have hquot : ((box.nearestImage v).get a - v.get a) / box.length a =
        ((-nearestWhole (v.get a / box.length a) : ℤ) : ℝ) := by
      rw [hnearest, sub_sub_cancel_left, neg_div, mul_div_cancel_right₀ _ hL, Int.cast_neg]
    have ht : t.get a = -nearestWhole (v.get a / box.length a) := by
      show (shiftBetween box s v (box.nearestImage v)).get a = _
      rw [shiftBetween, Vec3.get_ofFn, if_pos hper, hquot, Scalar.round_eq, nearestWhole_intCast,
        Scalar.index_intCast]
    refine .inl ⟨hper, ht, ?_⟩
    rw [hnearest, ht, Int.cast_neg]
    ring
  · refine .inr ⟨?_, ?_⟩
    · show (shiftBetween box s v (box.nearestImage v)).get a = 0
      rw [shiftBetween, Vec3.get_ofFn, if_neg hper, hs.get_eq_zero hper]
    · rw [Box.nearestImage, Vec3.get_ofFn, if_neg hper]

/-- **The nearest image of a separation belongs to a shift** of at most one box length along each
periodic axis, if the points are inside of the box. -/
theorem shiftBetween_eq {box : Box ℝ} {s : Vec3 ℤ} {x y : Vec3 ℝ} (hx : box.Encloses x)
    (hy : box.Encloses y) (hs : box.Supports s) :
    let t := shiftBetween box s (y - x) (box.nearestImage (y - x))
    box.nearestImage (y - x) = box.displace t y - x ∧ box.Supports t ∧
      ∀ a, t.get a = 0 ∨ t.get a = 1 ∨ t.get a = -1 := by
  intro t
  have hcases := nearestImage_cases hs (y - x)
  refine ⟨Vec3.ext_get fun a => ?_, fun a ha => ?_, fun a => ?_⟩
  · rw [Vec3.get_sub, Box.get_displace]
    rcases hcases a with ⟨-, -, h⟩ | ⟨ht, h⟩
    · rw [h, Vec3.get_sub]
      ring
    · rw [h, ht, Vec3.get_sub, Int.cast_zero]
      ring
  · rcases hcases a with ⟨hper, -, -⟩ | ⟨ht, -⟩
    · exact hper
    · exact absurd ht ha
  · rcases hcases a with ⟨hper, ht, -⟩ | ⟨ht, -⟩
    · -- points of the box are at most one length apart, and so is the number of lengths
      have hL := Box.length_pos_of_periodic hper
      have hle : |(y - x).get a / box.length a| ≤ 1 := by
        rw [Vec3.get_sub, abs_div, abs_of_pos hL]
        exact div_le_one_of_le₀ (hy.abs_sub_le hx a) hL.le
      have hround := abs_le.1 (abs_nearestWhole_le_one hle)
      have ht : t.get a = -nearestWhole ((y - x).get a / box.length a) := ht
      omega
    · exact .inl ht

/-- The shift of a pair that is computed again. -/
noncomputable def newShift (l : NeighborList ℝ) (s : Vec3 ℤ) (v : Vec3 ℝ) : Vec3 ℤ :=
  l.box?.elim s fun box => shiftBetween box s v (l.nearest v)

theorem nearest_eq {s : Vec3 ℤ} {x y : Vec3 ℝ} (hs : SupportsShift l.box? s)
    (hin : ∀ box ∈ l.box?, box.Encloses x ∧ box.Encloses y) :
    l.nearest (y - x) = moved l.box? (l.newShift s (y - x)) y - x ∧
      SupportsShift l.box? (l.newShift s (y - x)) ∧
      ∀ a, (l.newShift s (y - x)).get a = 0 ∨ (l.newShift s (y - x)).get a = 1 ∨
        (l.newShift s (y - x)).get a = -1 := by
  unfold newShift nearest moved
  cases hbox : l.box? with
  | none =>
    rw [hbox] at hs
    refine ⟨rfl, hs, fun a => .inl ?_⟩
    show s.get a = 0
    rw [supportsShift_none.1 hs, Vec3.get_replicate]
  | some box =>
    obtain ⟨hx, hy⟩ := hin box hbox
    rw [hbox] at hs
    rw [supportsShift_some] at hs ⊢
    exact shiftBetween_eq hx hy hs

/-- **A pair computed again** is right at the new positions. -/
theorem measured_of_revalidatePair {p q : Pair ℝ} {x y : Vec3 ℝ} (hx : new.query[p.first]? = some x)
    (hy : new.reference[p.second]? = some y) (hs : SupportsShift l.box? p.shift)
    (hin : ∀ box ∈ l.box?, box.Encloses x ∧ box.Encloses y) (h : l.revalidatePair new p = some q) :
    q.first = p.first ∧ q.second = p.second ∧ SupportsShift l.box? q.shift ∧
      Measured (l.revalidate new) q := by
  obtain ⟨hvector, hsupports, hunit⟩ := nearest_eq hs hin
  unfold revalidatePair at h
  rw [Array.getD_eq_getD_getElem?, Array.getD_eq_getD_getElem?, hx, hy] at h
  obtain ⟨hnear, hq⟩ := Option.ite_none_right_eq_some.1 h
  obtain rfl := Option.some.inj hq
  exact ⟨rfl, rfl, hsupports, ⟨x, y, hx, hy, hvector⟩, rfl, hnear, hunit⟩

/-- **A list computed again is sound**, as long as there are as many points as before, and inside of the
box if there is one. -/
theorem sound_revalidate (h : Sound l) (hquery : new.query.size = l.points.query.size)
    (hreference : new.reference.size = l.points.reference.size)
    (hin : ∀ box ∈ l.box?, (∀ p ∈ new.query, box.Encloses p) ∧ ∀ p ∈ new.reference, box.Encloses p) :
    Sound (l.revalidate new) := by
  -- the pairs that are computed again, which do not depend on where the points are
  have hbase : IndexedRows l.box? l.filter new.query.size new.reference.size l.baseline.rows := by
    rw [hquery, hreference]
    unfold baseline
    cases hr : l.reserve? with
    | none => exact h.rows
    | some full => exact h.reserve full hr
  have hpair : ∀ row ∈ l.baseline.rows, ∀ p ∈ row, ∀ q, l.revalidatePair new p = some q →
      q.first = p.first ∧ q.second = p.second ∧ SupportsShift l.box? q.shift ∧
        Measured (l.revalidate new) q := by
    intro row hrow p hp q hq
    obtain ⟨i, hi⟩ := Array.getElem?_of_mem hrow
    obtain ⟨hfirst, hsecond, -, hs⟩ := hbase.indexed i row hi p hp
    have hlt : p.first < new.query.size := by
      rw [hfirst, ← hbase.size]
      exact (Array.getElem?_eq_some_iff.1 hi).1
    refine measured_of_revalidatePair (Array.getElem?_eq_getElem hlt)
      (Array.getElem?_eq_getElem hsecond) hs (fun box hb => ?_) hq
    exact ⟨(hin box hb).1 _ (Array.getElem_mem hlt), (hin box hb).2 _ (Array.getElem_mem hsecond)⟩
  refine ⟨?_, ?_, ?_⟩
  · exact hbase.filterMap fun row hrow p hp q hq =>
      let ⟨h1, h2, h3, _⟩ := hpair row hrow p hp q hq
      ⟨h1, h2, h3⟩
  · intro full hfull
    show IndexedRows l.box? l.filter new.query.size new.reference.size full.rows
    rw [hquery, hreference]
    exact h.reserve full hfull
  · intro row hrow q hq
    obtain ⟨old, hold, rfl⟩ := Array.mem_map.1 hrow
    obtain ⟨p, hp, hpq⟩ := List.mem_filterMap.1 hq
    exact (hpair old hold p hp q hpq).2.2.2

theorem sound_update {l' : NeighborList ℝ} {query : Table ℝ} {reference? : Option (Table ℝ)}
    {tolerance : ℝ} {samples : ℕ} {outcome : UpdateOutcome} (h : Sound l)
    (hupdate : (l.update query reference? tolerance samples).result = .ok (l', outcome)) :
    Sound l' := by
  obtain ⟨haccepts, _, rfl, ⟨-, heq⟩ | ⟨-, list, hbuild, heq⟩⟩ := update_eq_ok_iff.1 hupdate <;>
    obtain ⟨rfl, rfl⟩ := Prod.mk.inj heq
  · obtain ⟨hq, hr⟩ := haccepts.sizes
    refine sound_revalidate h hq hr fun box hb => ?_
    have hquery := haccepts.query.inside box hb
    have hreference := hquery.getD fun t ht => (haccepts.reference t ht).inside box hb
    rw [PointSets.reference_map_points]
    exact ⟨(Box.covers_iff.1 hquery).2, (Box.covers_iff.1 hreference).2⟩
  · exact sound_build hbuild

/-- **A part of a list is sound.** -/
theorem sound_filterPart (h : Sound l) (keep : Pair ℝ → Bool) : Sound (l.filterPart keep) := by
  refine ⟨h.rows.filter keep, forall_mem_none, fun row hrow p hp => ?_⟩
  obtain ⟨old, hold, rfl⟩ := Array.mem_map.1 hrow
  obtain ⟨hvector, hdistance, hnear, hunit⟩ := h.measured old hold p (List.mem_filter.1 hp).1
  exact ⟨hvector, hdistance, hnear, hunit⟩

end Update

/-- **Every list that can come about is sound.** -/
theorem Reachable.sound {l : NeighborList ℝ} (h : Reachable l) : Sound l := by
  -- on the operations that led to the list; each keeps the invariant
  induction h with
  | direct h => exact @sound_build none _ _ _ _ _ h
  | periodic h => exact @sound_build (some _) _ _ _ _ _ h
  | update _ h ih => exact sound_update ih h
  | same _ h ih =>
    obtain ⟨⟨keep, hpart⟩, -, -⟩ := partition_cases h
    rw [hpart]
    exact sound_filterPart ih keep
  | cross _ h ih =>
    obtain ⟨-, ⟨keep, hpart⟩, -⟩ := partition_cases h
    rw [hpart]
    exact sound_filterPart ih keep
  | ofTypes _ h hget ih =>
    obtain ⟨-, -, hparts⟩ := partition_cases h
    obtain ⟨keep, rfl⟩ := hparts _ _ _ hget
    exact sound_filterPart ih keep

/-- **The rows of every list that can come about.** Each row is strictly sorted by the reference
points, and each of its pairs is right at the positions that the list shows, with a shift of at most one box
length along periodic axes. -/
theorem pairs_of_reachable (l : NeighborList ℝ) (h : Reachable l) :
    l.rows.size = l.points.query.size ∧ ∀ (i : ℕ) row, l.rows[i]? = some row →
      row.Pairwise (fun p q => p.second < q.second) ∧ ∀ p ∈ row,
        p.first = i ∧ p.second < l.nReference ∧
        (∃ x y, l.points.query[i]? = some x ∧ l.points.reference[p.second]? = some y ∧
          p.vector = moved l.box? p.shift y - x) ∧
        p.distance = p.vector.norm ∧ p.distance < l.options.cutoff ∧
        (l.box? = none → p.shift = .replicate 0) ∧
        (∀ box ∈ l.box?, ∀ a, box.periodic.get a = false → p.shift.get a = 0) ∧
        (∀ a, p.shift.get a = 0 ∨ p.shift.get a = 1 ∨ p.shift.get a = -1) ∧
        l.filter.keep i p.second = true := by
  obtain ⟨hrows, -, hmeasured⟩ := h.sound
  refine ⟨hrows.size, fun i row hrow => ?_⟩
  have hmem := Array.mem_of_getElem? hrow
  refine ⟨hrows.sorted row hmem, fun p hp => ?_⟩
  obtain ⟨hfirst, hsecond, hk, hs⟩ := hrows.indexed i row hrow p hp
  obtain ⟨hvector, hdistance, hnear, hunit⟩ := hmeasured row hmem p hp
  rw [hfirst] at hvector
  refine ⟨hfirst, hsecond, hvector, hdistance, hnear, fun hnone => ?_, fun box hb a hper => ?_,
    hunit, hk⟩
  · rw [hnone] at hs
    exact supportsShift_none.1 hs
  · rw [Option.mem_def.1 hb] at hs
    exact (supportsShift_some.1 hs).get_eq_zero (Bool.eq_false_iff.1 hper)

section Square

variable {length x y : ℝ} {h : 0 < length}

theorem nearestImage_square : (Box.square length h true).nearestImage ⟨x, y, 0⟩ =
    ⟨x - nearestWhole (x / length) * length, y - nearestWhole (y / length) * length, 0⟩ := by
  refine Vec3.ext_get fun a => ?_
  rw [Box.nearestImage, Vec3.get_ofFn, Box.length_square]
  cases a <;> rfl

theorem norm_nearestImage_square_le {c : ℝ} (hc : 0 ≤ c) :
    ((Box.square length h true).nearestImage ⟨x, y, 0⟩).norm ≤ c ↔
      (x - nearestWhole (x / length) * length) ^ 2 + (y - nearestWhole (y / length) * length) ^ 2 ≤
        c * c := by
  rw [Vec3.norm_le_iff hc, nearestImage_square, Vec3.norm2_eq]
  simp only [Vec3.get]
  rw [zero_pow two_ne_zero, add_zero]

end Square

/-- A point that crosses a face of a square while its pairs are computed again. -/
theorem pairs_of_reachable_crossing :
    let box := Box.square 8 (by norm_num) true
    let o : SearchOptions ℝ := ⟨5 / 2, false, 1 / 2⟩
    let t : Table ℝ := ⟨2, #[#v[1 / 8, 4], #v[7, 4]]⟩
    let t' : Table ℝ := ⟨2, #[#v[63 / 8, 4], #v[7, 4]]⟩
    ∃ l l', (periodic box o t none .keepAll).result = .ok l ∧
      (l.update t' none 1 2).result = .ok (l', .revalidated) ∧ Reachable l' ∧ l'.rows.size = 2 ∧
      ∀ (i : ℕ) row, l'.rows[i]? = some row → ∀ p ∈ row, p.first = i ∧ p.distance < 5 / 2 := by
  intro box o t t'
  have hpoints : t.points = #[⟨1 / 8, 4, 0⟩, ⟨7, 4, 0⟩] := by simp [t, Table.points, Vec3.ofList]
  have hpoints' : t'.points = #[⟨63 / 8, 4, 0⟩, ⟨7, 4, 0⟩] := by
    simp [t', Table.points, Vec3.ofList]
  have ho : o.Valid := ⟨by norm_num [o], by norm_num [o]⟩
  have ht : box.Admits t := by
    refine Box.admits_square.2 ?_
    simp only [List.mem_toArray, List.forall_mem_cons, Vector.getElem_mk, List.getElem_toArray,
      List.getElem_cons_zero, List.getElem_cons_succ]
    norm_num
  have ht' : box.Admits t' := by
    refine Box.admits_square.2 ?_
    simp only [List.mem_toArray, List.forall_mem_cons, Vector.getElem_mk, List.getElem_toArray,
      List.getElem_cons_zero, List.getElem_cons_succ]
    norm_num
  have hcut : box.AcceptsCutoff (.replicate o.searchRadius) :=
    Box.acceptsCutoff_square ho.searchRadius_pos (by norm_num [o, SearchOptions.searchRadius])
  obtain ⟨l, hl⟩ : ∃ l, l = ofRows o .keepAll box.dimension ⟨t.points, none⟩ (some box)
    (t.points.mapIdx (periodicRow box o .keepAll ⟨t.points, none⟩)) := ⟨_, rfl⟩
  have hlist : (periodic box o t none .keepAll).result = .ok l :=
    periodic_ok_iff.2 ⟨ho, ht, forall_mem_none, hcut, _, rfl, trivial, hl⟩
  have hcheck : l.checkUpdate none 1 2 = .ok () := by
    refine checkUpdate_ok_iff.2 ⟨by norm_num, by norm_num, ?_, ?_⟩
    · rw [hl, partitioned_ofRows]
    · rw [hl, points_ofRows]
      rfl
  have hnew : l.updatedPoints t' none = .ok ⟨t'.points, none⟩ := by
    refine updatedPoints_ok_iff.2 ⟨?_, forall_mem_none, fun b hb => ⟨?_, forall_mem_none⟩, rfl⟩
    · rw [hl, points_ofRows, dimension_ofRows, hpoints]
      rfl
    · rw [hl, box?_ofRows] at hb
      rw [← Option.some.inj hb]
      exact ht'
  have hskin : (0 : ℝ) < o.skin := by norm_num [o]
  have hoptions : l.options = o := by rw [hl, options_ofRows]
  have hbox : l.box? = some box := by rw [hl, box?_ofRows]
  obtain ⟨found, hreserve⟩ : ∃ found, l.reserve? = some ⟨found, ⟨t.points, none⟩⟩ :=
    ⟨_, by rw [hl, reserve?_ofRows, if_pos hskin]⟩
  have hquarter : min 1 (l.options.skin / 2) = 1 / 4 := by
    rw [hoptions]
    norm_num [o]
  have hnear : ∀ i ∈ sampledIndexes t'.points.size 2,
      (l.nearest (t'.points.getD i .zero - t.points.getD i .zero)).norm ≤ 1 / 4 := by
    intro i hi
    rw [nearest, hbox]
    rw [hpoints'] at hi ⊢
    rw [hpoints]
    have hi : i = 0 ∨ i = 1 := by simpa [sampledIndexes, List.range_succ] using hi
    rcases hi with rfl | rfl
    · -- the plain separation is almost the whole length of the box
      have hsub : (⟨63 / 8, 4, 0⟩ : Vec3 ℝ) - ⟨1 / 8, 4, 0⟩ = ⟨31 / 4, 0, 0⟩ :=
        Vec3.ext_get fun a => by rw [Vec3.get_sub]; cases a <;> norm_num [Vec3.get]
      have hround : nearestWhole (31 / 4 / 8) = 1 := by
        rw [nearestWhole, if_pos (by norm_num), Int.floor_eq_iff]
        norm_num
      show (box.nearestImage (⟨63 / 8, 4, 0⟩ - ⟨1 / 8, 4, 0⟩)).norm ≤ 1 / 4
      rw [hsub, norm_nearestImage_square_le (by norm_num), hround, zero_div, nearestWhole_zero]
      norm_num
    · have hsub : (⟨7, 4, 0⟩ : Vec3 ℝ) - ⟨7, 4, 0⟩ = ⟨0, 0, 0⟩ :=
        Vec3.ext_get fun a => by rw [Vec3.get_sub]; cases a <;> norm_num [Vec3.get]
      show (box.nearestImage (⟨7, 4, 0⟩ - ⟨7, 4, 0⟩)).norm ≤ 1 / 4
      rw [hsub, norm_nearestImage_square_le (by norm_num), zero_div, nearestWhole_zero]
      norm_num
  have hupdate := update_revalidated_of_near hcheck hnew hreserve rfl
    (by rw [hoptions]; exact hskin.le) (by rw [hquarter]; exact hnear)
  have hreach := (Reachable.periodic hlist).update hupdate
  obtain ⟨hsize, hrows⟩ := pairs_of_reachable _ hreach
  refine ⟨l, _, hlist, hupdate, hreach, ?_, fun i row hrow p hp => ?_⟩
  · rw [hsize]
    show t'.points.size = 2
    rw [hpoints']
    rfl
  · obtain ⟨hfirst, -, -, -, hnear, -⟩ := (hrows i row hrow).2 p hp
    have hsame : (l.revalidate ⟨t'.points, none⟩).options = o := hoptions
    rw [hsame] at hnear
    exact ⟨hfirst, hnear⟩

end SmoothedParticles.NeighborList
