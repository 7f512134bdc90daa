import SmoothedParticles.Proofs.Pairs.FreshPairs

/-!
# Searches over one set of points and between two

A search over one set of points compares a point with itself by its index, without computing a distance. A
search between two sets computes all distances. If both sets are the same, the two come to the same pairs.

* `mem_pairs_cross`, `mem_pairs_self`, `mem_pairs_other`: the pairs between the points and themselves, and
  those over the points, with a point and itself or without.
* `self_search_matches_cross`: **the list over some points is the list between the points and themselves**.
-/

namespace SmoothedParticles.NeighborList

variable {box? : Option (Box ℝ)} {o : SearchOptions ℝ} {f : PairFilter} {d : Dimension}
  {ps : Array (Vec3 ℝ)} {p : Pair ℝ}

/-- Between two sets of points all pairs are kept that are seen. -/
theorem mem_pairs_cross (ho : o.Valid) :
    p ∈ (ofRows o f d ⟨ps, some ps⟩ box? (foundRows box? o f ⟨ps, some ps⟩)).pairs ↔
      SeenPair box? o f ⟨ps, none⟩ p :=
  (mem_pairs_fresh ho).trans (and_iff_left fun h => nomatch h)

/-- Over one set of points too, if a point and itself are asked for. -/
theorem mem_pairs_self (ho : o.Valid) (hself : o.selfPairs = true) :
    p ∈ (ofRows o f d ⟨ps, none⟩ box? (foundRows box? o f ⟨ps, none⟩)).pairs ↔
      SeenPair box? o f ⟨ps, none⟩ p :=
  (mem_pairs_fresh ho).trans (and_iff_left fun _ _ _ => hself)

/-- Otherwise the pairs of a point and itself are missing, and no others. -/
theorem mem_pairs_other (ho : o.Valid) (hself : o.selfPairs = false) :
    p ∈ (ofRows o f d ⟨ps, none⟩ box? (foundRows box? o f ⟨ps, none⟩)).pairs ↔
      SeenPair box? o f ⟨ps, none⟩ p ∧ ¬(p.first = p.second ∧ p.shift = .replicate 0) := by
  refine (mem_pairs_fresh ho).trans (and_congr_right fun _ => ?_)
  simp only [hself, Bool.false_eq_true, true_imp_iff, not_and]

/-- **The list over some points is the list between the points and themselves**, row by row, if a point and
itself are asked for. Otherwise the pairs with the same index twice and no shift are missing, and no others. A
point is never a neighbor of its own images. This holds for any points, also for points at one place, for any
options and filter, and in a box if its periodic lengths are at least twice the search radius. -/
theorem self_search_matches_cross (box? : Option (Box ℝ)) (o : SearchOptions ℝ) (f : PairFilter)
    (t : Table ℝ) (ho : o.Valid) (hd : (Dimension.ofNat? t.columns).isSome = true)
    (hbox : ∀ box ∈ box?, box.Admits t ∧
      ∀ a, box.periodic.get a = true → o.searchRadius ≤ box.length a / 2)
    (hf : f.Fits t.points.size t.points.size) :
    ∃ cross self other, (build box? o t (some t) f).result = .ok cross ∧
      (build box? { o with selfPairs := true } t none f).result = .ok self ∧
      (build box? { o with selfPairs := false } t none f).result = .ok other ∧
      self.rows = cross.rows ∧
      other.rows = cross.rows.map
        (·.filter fun p => ¬(p.first = p.second ∧ p.shift = .replicate 0)) ∧
      ∀ p ∈ cross.pairs, p.first = p.second → p.shift = .replicate 0 := by
  obtain ⟨d, hd⟩ := Option.isSome_iff_exists.1 hd
  have hcut : ∀ box ∈ box?, box.AcceptsCutoff (.replicate o.searchRadius) := by
    intro box hb a _
    rw [Vec3.get_replicate]
    exact ⟨ho.searchRadius_pos, (hbox box hb).2 a⟩
  have hvalid : ∀ b, ({ o with selfPairs := b } : SearchOptions ℝ).Valid :=
    fun _ => ⟨ho.cutoff_pos, ho.skin_nonneg⟩
  have hcross : (build box? o t (some t) f).result = .ok (ofRows o f d ⟨t.points, some t.points⟩ box?
      (foundRows box? o f ⟨t.points, some t.points⟩)) :=
    build_ok_iff.2 ⟨ho, d, _, hd, fun _ ht => Option.some.inj ht ▸ rfl, fun box hb => ⟨hcut box hb,
      (hbox box hb).1, fun _ ht => Option.some.inj ht ▸ (hbox box hb).1⟩, rfl, hf, rfl⟩
  have hself : ∀ b, (build box? { o with selfPairs := b } t none f).result =
      .ok (ofRows { o with selfPairs := b } f d ⟨t.points, none⟩ box?
        (foundRows box? { o with selfPairs := b } f ⟨t.points, none⟩)) :=
    fun b => build_ok_iff.2 ⟨hvalid b, d, _, hd, forall_mem_none,
      fun box hb => ⟨hcut box hb, (hbox box hb).1, forall_mem_none⟩, rfl, hf, rfl⟩
  have hsound := sound_build hcross
  have hsize : ∀ {l : NeighborList ℝ}, Sound l → l.points.query = t.points →
      l.rows.size = t.points.size := by
    intro l hl hquery
    rw [hl.rows.size, hquery]
  have hcrossSize := hsize hsound (congrArg _ points_ofRows)
  refine ⟨_, _, _, hcross, hself true, hself false, ?_, ?_, fun p hp => ?_⟩
  · refine rows_eq_of_pairs (sound_build (hself true)) hsound ?_ fun p => ?_
    · rw [hsize (sound_build (hself true)) (congrArg _ points_ofRows), hcrossSize]
    · exact (mem_pairs_self (hvalid true) rfl).trans (mem_pairs_cross ho).symm
  · refine rows_eq_of_pairs (sound_build (hself false)) (sound_filterPart hsound _) ?_ fun p => ?_
    · rw [hsize (sound_build (hself false)) (congrArg _ points_ofRows)]
      exact hcrossSize.symm.trans (Array.size_map ..).symm
    · rw [mem_pairs_other (hvalid false) rfl, pairs_filterPart, List.mem_filter, decide_eq_true_eq]
      exact and_congr_left' (mem_pairs_cross ho).symm
  · exact ((mem_pairs_cross ho).1 hp).shift_eq_zero ho hcut rfl

/-- In a square whose sides are twice the search radius, two of three points are at one place. They are
neighbors of each other, and each of them is its own neighbor if asked for. -/
theorem self_search_matches_cross_coincident :
    let box := Box.square 8 (by norm_num) true
    let o : SearchOptions ℝ := ⟨3, false, 1⟩
    let t : Table ℝ := ⟨2, #[#v[1, 4], #v[1, 4], #v[7, 4]]⟩
    o.Valid ∧ (Dimension.ofNat? t.columns).isSome = true ∧ (∀ b ∈ some box, b.Admits t ∧
      ∀ a, b.periodic.get a = true → o.searchRadius ≤ b.length a / 2) ∧
      PairFilter.keepAll.Fits t.points.size t.points.size ∧
      ∃ cross self other, (build (some box) o t (some t) .keepAll).result = .ok cross ∧
        (build (some box) { o with selfPairs := true } t none .keepAll).result = .ok self ∧
        (build (some box) { o with selfPairs := false } t none .keepAll).result = .ok other ∧
        self.rows = cross.rows ∧
        other.rows = cross.rows.map
          (·.filter fun p => ¬(p.first = p.second ∧ p.shift = .replicate 0)) ∧
        (∃ p ∈ self.pairs, p.first = 1 ∧ p.second = 1) ∧ ∃ p ∈ other.pairs, p.first = 0 ∧ p.second = 1 := by
  intro box o t
  have hpoints : t.points = #[⟨1, 4, 0⟩, ⟨1, 4, 0⟩, ⟨7, 4, 0⟩] := by
    simp [t, Table.points, Vec3.ofList]
  have ho : o.Valid := ⟨by norm_num [o], by norm_num [o]⟩
  have ht : box.Admits t := by
    refine Box.admits_square.2 ?_
    simp only [List.mem_toArray, List.forall_mem_cons]
    norm_num
  have hbox : ∀ b ∈ some box, b.Admits t ∧
      ∀ a, b.periodic.get a = true → o.searchRadius ≤ b.length a / 2 := by
    intro b hb
    obtain rfl := Option.some.inj hb
    exact ⟨ht, fun a => Box.le_half_length_square (by norm_num [o, SearchOptions.searchRadius])⟩
  obtain ⟨cross, self, other, hcross, hself, hother, hsame, hmissing, -⟩ :=
    self_search_matches_cross (some box) o .keepAll t ho rfl hbox trivial
  -- each of the two points sees both of them
  have hseen : ∀ i j : ℕ, i < 2 → j < 2 →
      pairTo i ⟨1, 4, 0⟩ j ⟨1, 4, 0⟩ (.replicate 0) ∈ cross.pairs := by
    intro i j hi hj
    obtain ⟨-, d, points, -, -, -, rfl, -, rfl⟩ := build_ok_iff.1 hcross
    have hget : ∀ k : ℕ, k < 2 → t.points[k]? = some ⟨1, 4, 0⟩ := by
      intro k hk
      rw [hpoints]
      interval_cases k <;> rfl
    refine (mem_pairs_cross ho).2 ⟨_, _, hget i hi, hget j hj, sees_zero, rfl, ?_, ?_⟩
    · show (moved (some box) (.replicate 0) ⟨1, 4, 0⟩ - ⟨1, 4, 0⟩).norm < o.cutoff
      rw [moved_zero, Vec3.norm_lt_iff ho.cutoff_pos, Vec3.norm2_sub_plane]
      norm_num [o]
    · show _ = pairTo i _ j (moved (some box) (.replicate 0) ⟨1, 4, 0⟩) (.replicate 0)
      rw [moved_zero]
  refine ⟨ho, rfl, hbox, trivial, cross, self, other, hcross, hself, hother, hsame, hmissing, ?_, ?_⟩
  · have hpairs : self.pairs = cross.pairs := congrArg (·.toList.flatten) hsame
    rw [hpairs]
    exact ⟨_, hseen 1 1 one_lt_two one_lt_two, rfl, rfl⟩
  · have hpairs : other.pairs = (cross.filterPart _).pairs := congrArg (·.toList.flatten) hmissing
    rw [hpairs, pairs_filterPart]
    exact ⟨_, List.mem_filter.2 ⟨hseen 0 1 two_pos one_lt_two, by simp [pairTo]⟩, rfl, rfl⟩

end SmoothedParticles.NeighborList
