import SmoothedParticles.Proofs.Pairs.PeriodicRows

/-!
# Periodic lists and the tiling of the box

A box with periodic boundaries stands for a tiling of space by copies of it. A periodic list has a pair
for each copy of a reference point within the cutoff, except where an image of another point took the
place of the copy.

* `Tiled`: the pairs that the tiling has.
* `reported`: how often a list has a pair.
* `exists_pair_iff`, `reported_iff`: a periodic list has the pairs of the tiling whose copies are not
  shadowed, once each.
* `periodic_lists_tiling_iff`: **a periodic list has all pairs of the tiling exactly if none of the
  copies is shadowed**; then each pair between points of one set is there from both sides.
* `coincident_image_missing`: two points at one place, of which the second one has no image.
-/

namespace SmoothedParticles

namespace NeighborList

variable {box : Box ℝ} {o : SearchOptions ℝ} {f : PairFilter} {points : PointSets ℝ} {i j : ℕ}
  {s : Vec3 ℤ}

/-- Is the reference point `j`, moved by a shift, a neighbor of the query point `i` in the tiling? -/
structure Tiled (box : Box ℝ) (o : SearchOptions ℝ) (f : PairFilter) (points : PointSets ℝ) (i j : ℕ)
    (s : Vec3 ℤ) : Prop where
  supports : box.Supports s
  near : ∃ x y, points.query[i]? = some x ∧ points.reference[j]? = some y ∧
    (box.displace s y - x).norm < o.cutoff
  keep : f.keep i j = true
  /-- A point itself is a neighbor if asked for. -/
  itself : points.reference? = none → i = j → s = .replicate 0 → o.selfPairs = true

/-- The number of pairs of a list with the given points and shift. -/
noncomputable def reported (l : NeighborList ℝ) (i j : ℕ) (s : Vec3 ℤ) : ℕ :=
  (l.rows.getD i []).countP fun p => p.second = j ∧ p.shift = s

theorem countP_le_one {row : List (Pair ℝ)} (h : row.Pairwise fun p q => p.second < q.second) :
    (row.countP fun p => p.second = j ∧ p.shift = s) ≤ 1 := by
  have hnodup : (row.map Pair.second).Nodup := List.pairwise_map.2 (h.imp fun hlt => hlt.ne)
  calc (row.countP fun p => p.second = j ∧ p.shift = s)
      ≤ row.countP fun p => p.second = j := List.countP_mono_left fun p _ hp => by
        simp only [decide_eq_true_eq] at hp ⊢
        exact hp.1
    _ = (row.map Pair.second).count j := by
        rw [List.count, List.countP_map]
        rfl
    _ ≤ 1 := List.nodup_iff_count_le_one.1 hnodup j

/-- The rows of a periodic list. -/
theorem periodic_rows (ho : o.Valid) :
    (ofRows o f box.dimension points (some box)
        (points.query.mapIdx (periodicRow box o f points))).rows =
      within o.cutoff (points.query.mapIdx (periodicRow box o f points)) := by
  refine ofRows_rows ho fun i x hx p hp => ?_
  obtain ⟨y, -, -, -, hnear, -, heq⟩ := (mem_periodicRow ho hx).1 hp
  rw [heq]
  exact hnear

/-- **A row has a pair** if the tiling has it and its copy is not shadowed. -/
theorem exists_pair_iff {x : Vec3 ℝ} (ho : o.Valid)
    (hcut : box.AcceptsCutoff (.replicate o.searchRadius)) (hquery : ∀ p ∈ points.query, box.Encloses p)
    (hreference : ∀ p ∈ points.reference, box.Encloses p) (hx : points.query[i]? = some x) :
    (∃ p ∈ periodicRow box o f points i x, p.distance < o.cutoff ∧ p.second = j ∧ p.shift = s) ↔
      Tiled box o f points i j s ∧ ¬box.Shadowed points.reference.toList j s := by
  have hoffers : ∀ y, points.reference[j]? = some y →
      (box.displace s y - x).norm < o.searchRadius →
        (box.Offers (.replicate o.searchRadius) points.reference.toList j y s ↔
          box.Supports s ∧ ¬box.Shadowed points.reference.toList j s) := by
    intro y hy hnear
    rw [← Array.getElem?_toList] at hy
    exact Box.offers_iff hcut ho.searchRadius_pos
      (fun p hp => hreference p (Array.mem_toList_iff.1 hp)) hy
      (hquery x (Array.mem_of_getElem? hx)) hnear
  constructor
  · intro h
    obtain ⟨p, hp, hdist, rfl, rfl⟩ := h
    obtain ⟨y, hy, hoffer, hk, hnear, hself, heq⟩ := (mem_periodicRow ho hx).1 hp
    obtain ⟨hs, hshadow⟩ := (hoffers y hy hnear).1 hoffer
    have hdist : (box.displace p.shift y - x).norm < o.cutoff := by
      rw [heq] at hdist
      exact hdist
    exact ⟨⟨hs, ⟨x, y, hx, hy, hdist⟩, hk, hself⟩, hshadow⟩
  · intro h
    obtain ⟨⟨hs, ⟨x', y, hx', hy, hnear⟩, hk, hself⟩, hshadow⟩ := h
    obtain rfl : x = x' := Option.some.inj (hx.symm.trans hx')
    have hradius := hnear.trans_le ho.cutoff_le
    have hoffer := (hoffers y hy hradius).2 ⟨hs, hshadow⟩
    have hp : pairTo i x j (box.displace s y) s ∈ periodicRow box o f points i x :=
      (mem_periodicRow ho hx).2 ⟨y, hy, hoffer, hk, hradius, hself, rfl⟩
    exact ⟨_, hp, hnear, rfl, rfl⟩

/-- **A periodic list has the pairs of the tiling whose copies are not shadowed**, once each. -/
theorem reported_iff (ho : o.Valid) (hcut : box.AcceptsCutoff (.replicate o.searchRadius))
    (hquery : ∀ p ∈ points.query, box.Encloses p)
    (hreference : ∀ p ∈ points.reference, box.Encloses p) {l : NeighborList ℝ}
    (hl : l = ofRows o f box.dimension points (some box)
      (points.query.mapIdx (periodicRow box o f points))) :
    l.reported i j s ≤ 1 ∧ (l.reported i j s = 1 ↔
      Tiled box o f points i j s ∧ ¬box.Shadowed points.reference.toList j s) := by
  unfold reported
  rw [hl, periodic_rows ho, within, Array.getD_eq_getD_getElem?, Array.getElem?_map,
    Array.getElem?_mapIdx]
  cases hx : points.query[i]? with
  | none =>
    refine ⟨by simp, fun h => by simp at h, ?_⟩
    intro h
    obtain ⟨⟨-, ⟨x, y, hx', -⟩, -, -⟩, -⟩ := h
    exact absurd (hx'.symm.trans hx) (Option.some_ne_none x)
  | some x =>
    rw [Option.map_some, Option.map_some, Option.getD_some]
    have hle := countP_le_one (j := j) (s := s) ((pairwise_periodicRow (f := f) ho hcut hx).filter
      fun p => decide (p.distance < o.cutoff))
    refine ⟨hle, ?_⟩
    -- with one pair at most, the pair is there or not
    have hone : ∀ n ≤ 1, n = 1 ↔ 0 < n := by omega
    rw [hone _ hle, List.countP_pos_iff, ← exists_pair_iff ho hcut hquery hreference hx]
    simp only [List.mem_filter, decide_eq_true_eq, and_assoc]

/-- Moving one point there is as far as moving the other one back. -/
theorem norm_displace_neg (box : Box ℝ) (s : Vec3 ℤ) (x y : Vec3 ℝ) :
    (box.displace (s.map (- ·)) x - y).norm = (box.displace s y - x).norm := by
  rw [Vec3.norm, Vec3.norm, Vec3.norm2_eq, Vec3.norm2_eq]
  simp only [Vec3.get_sub, Box.get_displace, Vec3.get_map, Int.cast_neg]
  congr 1
  ring

/-- **The tiling is symmetric** between the points of one set. -/
theorem Tiled.symm (hself : points.reference? = none) (h : Tiled box o .keepAll points i j s) :
    Tiled box o .keepAll points j i (s.map (- ·)) := by
  have href := PointSets.reference_of_none hself
  obtain ⟨x, y, hx, hy, hnear⟩ := h.near
  rw [href] at hy
  refine ⟨fun a ha => h.supports a fun h0 => ha ?_, ⟨y, x, hy, ?_, ?_⟩, rfl, fun _ hij h0 => ?_⟩
  · rw [Vec3.get_map, h0, neg_zero]
  · rw [href]
    exact hx
  · rw [norm_displace_neg]
    exact hnear
  · refine h.itself hself hij.symm (Vec3.ext_get fun a => ?_)
    have := congrArg (Vec3.get · a) h0
    simpa using this

/-- **A periodic list has all pairs of the tiling exactly if none of the copies is shadowed.** Each pair
is there once at most, and a pair between points of one set is there from the other side too if that
copy is not shadowed. -/
theorem periodic_lists_tiling_iff (box : Box ℝ) (o : SearchOptions ℝ) (f : PairFilter)
    (query : Table ℝ) (reference? : Option (Table ℝ)) (ho : o.Valid) (hquery : box.Admits query)
    (hreference : ∀ t ∈ reference?, box.Admits t)
    (hhalf : ∀ a, box.periodic.get a = true → o.searchRadius ≤ box.length a / 2)
    (hf : f.Fits query.points.size (reference?.getD query).points.size) :
    ∃ l, (periodic box o query reference? f).result = .ok l ∧
      l.points = ⟨query.points, reference?.map Table.points⟩ ∧ l.rows.size = query.points.size ∧
      (∀ i j s, l.reported i j s ≤ 1) ∧
      (∀ i j s, l.reported i j s = 1 ↔
        Tiled box o f l.points i j s ∧ ¬box.Shadowed l.points.reference.toList j s) ∧
      ((∀ i j s, l.reported i j s = 1 ↔ Tiled box o f l.points i j s) ↔
        ∀ i j s, Tiled box o f l.points i j s → ¬box.Shadowed l.points.reference.toList j s) ∧
      (reference? = none → f = .keepAll → ∀ i j s, l.reported i j s = 1 →
        (l.reported j i (s.map (- ·)) = 1 ↔
          ¬box.Shadowed l.points.reference.toList i (s.map (- ·)))) := by
  obtain ⟨points, hpoints⟩ : ∃ points : PointSets ℝ,
      points = ⟨query.points, reference?.map Table.points⟩ := ⟨_, rfl⟩
  have href : points.reference = (reference?.getD query).points := by
    rw [hpoints, PointSets.reference_map_points]
  have hquery' : ∀ p ∈ points.query, box.Encloses p := by
    rw [hpoints]
    exact hquery.2
  have hreference' : ∀ p ∈ points.reference, box.Encloses p := by
    rw [href]
    exact (hquery.getD hreference).2
  have hcut : box.AcceptsCutoff (.replicate o.searchRadius) := by
    intro a _
    rw [Vec3.get_replicate]
    exact ⟨ho.searchRadius_pos, hhalf a⟩
  have hfits : f.Fits points.query.size points.reference.size := by
    rw [href, hpoints]
    exact hf
  refine ⟨_, periodic_ok_iff.2 ⟨ho, hquery, hreference, hcut, points, hpoints, hfits, rfl⟩, ?_⟩
  obtain ⟨l, hl⟩ : ∃ l, l = ofRows o f box.dimension points (some box)
    (points.query.mapIdx (periodicRow box o f points)) := ⟨_, rfl⟩
  have hlp : l.points = points := by
    rw [hl, points_ofRows]
  have hreported := fun i j s =>
    reported_iff (i := i) (j := j) (s := s) (f := f) ho hcut hquery' hreference' hl
  rw [← hl, hlp]
  refine ⟨hpoints, ?_, fun i j s => (hreported i j s).1, fun i j s => (hreported i j s).2, ?_, ?_⟩
  · rw [hl, periodic_rows ho, within, Array.size_map, Array.size_mapIdx, hpoints]
  · constructor
    · intro h i j s ht
      exact ((hreported i j s).2.1 ((h i j s).2 ht)).2
    · intro h i j s
      exact (hreported i j s).2.trans (and_iff_left_of_imp (h i j s))
  · rintro hself rfl i j s hone
    have hnone : points.reference? = none := by
      rw [hpoints, hself, Option.map_none]
    -- the tiling has the pair from the other side in any case
    have htiled := ((hreported i j s).2.1 hone).1.symm hnone
    exact (hreported j i _).2.trans (and_iff_right htiled)

section Square

variable {length r : ℝ} {h : 0 < length}

theorem norm_displace_square_lt {periodic : Bool} {x y x' y' : ℝ} (hr : 0 < r) :
    ((Box.square length h periodic).displace s ⟨x', y', 0⟩ - ⟨x, y, 0⟩).norm < r ↔
      (x' + s.x * length - x) ^ 2 + (y' + s.y * length - y) ^ 2 < r * r := by
  rw [Vec3.norm_lt_iff hr, Box.displace_square, Vec3.norm2_sub_plane]

/-- A copy is not shadowed if the other points are not whole lengths away. -/
theorem not_shadowed_square {periodic : Bool} {ps : List (Vec3 ℝ)} {x : Vec3 ℝ} (hj : ps[j]? = some x)
    (hother : ∀ (k : ℕ) y, k ≠ j → ps[k]? = some y → ∀ n : ℤ, y.x - x.x ≠ n * length) :
    ¬(Box.square length h periodic).Shadowed ps j s := by
  intro hshadow
  obtain ⟨y, k, t, hk, hy, heq⟩ := hshadow.exists_other hj
  have hpos := congrArg (Vec3.get · .x) heq
  simp only [Box.get_displace, Box.length_square, reduceCtorEq, if_false] at hpos
  refine hother k y hk hy (s.x - t.x) ?_
  simp only [Vec3.get] at hpos
  push_cast
  linarith

/-- Across the face of a square, a point sees two points that are at one place. -/
theorem tiled_coincident {points : PointSets ℝ}
    (hp : points = ⟨#[⟨1, 4, 0⟩, ⟨1, 4, 0⟩, ⟨7, 4, 0⟩], none⟩) {skin : ℝ} :
    Tiled (Box.square 8 (by norm_num) true) ⟨3, false, skin⟩ .keepAll points 2 1 ⟨1, 0, 0⟩ := by
  rw [hp]
  refine ⟨Box.supports_square rfl, ⟨⟨7, 4, 0⟩, ⟨1, 4, 0⟩, rfl, rfl, ?_⟩, rfl,
    fun _ h => absurd h (by decide)⟩
  rw [norm_displace_square_lt (by norm_num)]
  norm_num

/-- The first two of three points are not a multiple of eight away from the third one. -/
theorem not_shadowed_coincident : ¬(Box.square 8 (by norm_num) true).Shadowed
    [⟨1, 4, 0⟩, ⟨1, 4, 0⟩, ⟨7, 4, 0⟩] 2 s := by
  refine not_shadowed_square (x := ⟨7, 4, 0⟩) rfl fun k y hk hy n hn => ?_
  have hlt : k < 3 := (List.getElem?_eq_some_iff.1 hy).1
  have hy : (⟨1, 4, 0⟩ : Vec3 ℝ) = y := by
    interval_cases k
    · exact Option.some.inj hy
    · exact Option.some.inj hy
    · exact absurd rfl hk
  rw [← hy] at hn
  have h4 : (4 : ℤ) * n = -3 := by
    have : (4 : ℝ) * n = -3 := by linarith
    exact_mod_cast this
  omega

end Square

/-- Two points that see each other across a face of a square. -/
theorem periodic_lists_tiling_iff_across :
    let box := Box.square 8 (by norm_num) true
    let o : SearchOptions ℝ := ⟨3, false, 0⟩
    let t : Table ℝ := ⟨2, #[#v[1, 4], #v[7, 4]]⟩
    o.Valid ∧ box.Admits t ∧ (∀ a, box.periodic.get a = true → o.searchRadius ≤ box.length a / 2) ∧
      PairFilter.keepAll.Fits t.points.size t.points.size ∧
      ∃ l, (periodic box o t none .keepAll).result = .ok l ∧ l.reported 1 0 ⟨1, 0, 0⟩ = 1 := by
  intro box o t
  have hpoints : t.points = #[⟨1, 4, 0⟩, ⟨7, 4, 0⟩] := by simp [t, Table.points, Vec3.ofList]
  have ho : o.Valid := ⟨by norm_num [o], by norm_num [o]⟩
  have ht : box.Admits t := by
    refine Box.admits_square.2 ?_
    simp only [List.mem_toArray, List.forall_mem_cons]
    norm_num
  have hhalf : ∀ a, box.periodic.get a = true → o.searchRadius ≤ box.length a / 2 := fun a =>
    Box.le_half_length_square (by norm_num [o, SearchOptions.searchRadius])
  obtain ⟨l, hl, hlp, -, -, hreported, -⟩ :=
    periodic_lists_tiling_iff box o .keepAll t none ho ht forall_mem_none hhalf trivial
  have hlp : l.points = ⟨#[⟨1, 4, 0⟩, ⟨7, 4, 0⟩], none⟩ := by rw [hlp, hpoints, Option.map_none]
  refine ⟨ho, ht, hhalf, trivial, l, hl, (hreported 1 0 ⟨1, 0, 0⟩).2 ⟨?_, fun hshadow => ?_⟩⟩
  · rw [hlp]
    refine ⟨Box.supports_square rfl, ⟨⟨7, 4, 0⟩, ⟨1, 4, 0⟩, rfl, rfl, ?_⟩, rfl,
      fun _ h => absurd h (by decide)⟩
    rw [norm_displace_square_lt (by norm_num)]
    norm_num
  · rw [hlp] at hshadow
    refine not_shadowed_square (x := ⟨1, 4, 0⟩) rfl (fun k y hk hy n hn => ?_) hshadow
    have hlt : k < 2 := (List.getElem?_eq_some_iff.1 hy).1
    obtain rfl : k = 1 := by omega
    obtain rfl : (⟨7, 4, 0⟩ : Vec3 ℝ) = y := Option.some.inj hy
    have h4 : (4 : ℤ) * n = 3 := by
      have : (4 : ℝ) * n = 3 := by linarith
      exact_mod_cast this
    omega

/-- **Two points at one place.** The second one has no image, so the point on the other side of the
square does not see it, although it sees that point. -/
theorem coincident_image_missing :
    let box := Box.square 8 (by norm_num) true
    let o : SearchOptions ℝ := ⟨3, false, 0⟩
    let t : Table ℝ := ⟨2, #[#v[1, 4], #v[1, 4], #v[7, 4]]⟩
    ∃ l, (periodic box o t none .keepAll).result = .ok l ∧ Tiled box o .keepAll l.points 2 1 ⟨1, 0, 0⟩ ∧
      l.reported 2 1 ⟨1, 0, 0⟩ = 0 ∧ l.reported 1 2 ⟨-1, 0, 0⟩ = 1 := by
  intro box o t
  have hpoints : t.points = #[⟨1, 4, 0⟩, ⟨1, 4, 0⟩, ⟨7, 4, 0⟩] := by
    simp [t, Table.points, Vec3.ofList]
  have ho : o.Valid := ⟨by norm_num [o], by norm_num [o]⟩
  have ht : box.Admits t := by
    refine Box.admits_square.2 ?_
    simp only [List.mem_toArray, List.forall_mem_cons]
    norm_num
  have hcut : box.AcceptsCutoff (.replicate o.searchRadius) :=
    Box.acceptsCutoff_square ho.searchRadius_pos (by norm_num [o, SearchOptions.searchRadius])
  obtain ⟨points, hp⟩ : ∃ points : PointSets ℝ, points = ⟨t.points, none⟩ := ⟨_, rfl⟩
  have hin : ∀ p ∈ points.query, box.Encloses p := by
    rw [hp]
    exact ht.2
  obtain ⟨l, hl⟩ : ∃ l, l = ofRows o .keepAll box.dimension points (some box)
    (points.query.mapIdx (periodicRow box o .keepAll points)) := ⟨_, rfl⟩
  have hreported := fun i j s => reported_iff (i := i) (j := j) (s := s) ho hcut hin
    (by rw [hp] at hin ⊢; exact hin) hl
  have hlp : l.points = points := by
    rw [hl, points_ofRows]
  rw [hpoints] at hp
  have hlist : (periodic box o t none .keepAll).result = .ok l :=
    periodic_ok_iff.2 ⟨ho, ht, forall_mem_none, hcut, points, by rw [hp, hpoints]; rfl, trivial, hl⟩
  refine ⟨l, hlist, ?_⟩
  rw [hlp]
  have hshift : box.IsImageShift ⟨1, 0, 0⟩ :=
    ⟨by decide, fun a => by cases a <;> decide, Box.supports_square rfl⟩
  have htiled : Tiled box o .keepAll points 2 1 ⟨1, 0, 0⟩ := tiled_coincident hp
  have hshadow : box.Shadowed points.reference.toList 1 ⟨1, 0, 0⟩ := by
    rw [hp]
    exact ⟨⟨1, 4, 0⟩, ⟨1, 4, 0⟩, 0, ⟨1, 0, 0⟩, rfl, rfl, hshift, hshift, rfl, .inr ⟨rfl, Nat.one_pos⟩⟩
  have hback : ¬box.Shadowed points.reference.toList 2 ⟨-1, 0, 0⟩ := by
    rw [hp]
    exact not_shadowed_coincident
  have hnone : points.reference? = none := by rw [hp]
  refine ⟨htiled, ?_, (hreported 1 2 ⟨-1, 0, 0⟩).2.2 ⟨htiled.symm hnone, hback⟩⟩
  obtain ⟨hle, hone⟩ := hreported 2 1 ⟨1, 0, 0⟩
  have hne : l.reported 2 1 ⟨1, 0, 0⟩ ≠ 1 := fun h => (hone.1 h).2 hshadow
  omega

end NeighborList

end SmoothedParticles
