import SmoothedParticles.Proofs.Exact.Vectors
import SmoothedParticles.Pairs.Cells

/-!
# Cells cover the neighborhood of a point

In exact arithmetic a cell list misses no neighbor and offers no point twice, wherever the cells end
and however few of them there are.

* `layout_covers`: the cells reach from the first to the last point along each axis, and `reach` of
  them are at least as long as the cutoff.
* `cellOf_mem_around`: the cell of a point is within reach of each position closer than the cutoff.
* `build_ok`: building succeeds, and puts each point into the bucket of its cell.
* `mem_candidates_of_near`, `nodup_candidates`: all near points are offered, each point once.
-/

namespace SmoothedParticles.Cells

/-- What the layout of cells promises about some points, axis by axis. -/
structure Covers (cells : Cells ℝ) (ps : Array (Vec3 ℝ)) (cutoff : ℝ) : Prop where
  size_pos : ∀ a, 0 < cells.size.get a
  counts_pos : ∀ a, 0 < cells.counts.get a
  origin_le : ∀ a, ∀ p ∈ ps, cells.origin.get a ≤ p.get a
  le_end : ∀ a, ∀ p ∈ ps,
    p.get a ≤ cells.origin.get a + cells.counts.get a * cells.size.get a
  cutoff_le : ∀ a, cutoff ≤ cells.reach.get a * cells.size.get a

/-- Each point is in the bucket of its cell, once, and in no other. -/
structure Holds (cells : Cells ℝ) (ps : Array (Vec3 ℝ)) : Prop where
  mem_bucket : ∀ c j, j ∈ cells.bucket c ↔ ∃ p, ps[j]? = some p ∧ cells.cellOf p = c
  nodup_bucket : ∀ c, (cells.bucket c).Nodup

section Layout

variable {ps : Array (Vec3 ℝ)} {p : Vec3 ℝ} {cutoff : ℝ}

theorem foldl_min_le (l : List (Vec3 ℝ)) (v : Vec3 ℝ) (a : Axis) :
    (l.foldl (.zipWith Scalar.minNum) v).get a ≤ v.get a ∧
      ∀ p ∈ l, (l.foldl (.zipWith Scalar.minNum) v).get a ≤ p.get a := by
  induction l generalizing v with
  | nil => simp
  | cons q l ih =>
    have hq := ih (Vec3.zipWith Scalar.minNum v q)
    simp only [Vec3.get_zipWith, Scalar.minNum_eq, le_min_iff] at hq
    rw [List.foldl_cons]
    refine ⟨hq.1.1, fun p hp => ?_⟩
    rcases List.mem_cons.1 hp with rfl | hp
    · exact hq.1.2
    · exact hq.2 p hp

theorem le_foldl_max (l : List (Vec3 ℝ)) (v : Vec3 ℝ) (a : Axis) :
    v.get a ≤ (l.foldl (.zipWith Scalar.maxNum) v).get a ∧
      ∀ p ∈ l, p.get a ≤ (l.foldl (.zipWith Scalar.maxNum) v).get a := by
  induction l generalizing v with
  | nil => simp
  | cons q l ih =>
    have hq := ih (Vec3.zipWith Scalar.maxNum v q)
    simp only [Vec3.get_zipWith, Scalar.maxNum_eq, max_le_iff] at hq
    rw [List.foldl_cons]
    refine ⟨hq.1.1, fun p hp => ?_⟩
    rcases List.mem_cons.1 hp with rfl | hp
    · exact hq.1.2
    · exact hq.2 p hp

theorem lower_le (hp : p ∈ ps) (a : Axis) : (lower ps).get a ≤ p.get a := by
  unfold lower
  rw [← Array.foldl_toList]
  exact (foldl_min_le ps.toList _ a).2 p (Array.mem_def.1 hp)

theorem le_upper (hp : p ∈ ps) (a : Axis) : p.get a ≤ (upper ps).get a := by
  unfold upper
  rw [← Array.foldl_toList]
  exact (le_foldl_max ps.toList _ a).2 p (Array.mem_def.1 hp)

/-- The edges of the box around points are at least as long as the cutoff. -/
theorem cutoff_le_extent (a : Axis) : cutoff ≤ (extent ps cutoff).get a := by
  simp [extent]

theorem le_lower_add_extent (hp : p ∈ ps) (a : Axis) :
    p.get a ≤ (lower ps).get a + (extent ps cutoff).get a := by
  have h1 := le_upper hp a
  have h2 : (upper ps).get a - (lower ps).get a ≤ (extent ps cutoff).get a := by simp [extent]
  linarith

/-- Is the number a whole number that is at least one? -/
def IsCount (x : ℝ) : Prop := ∃ n : ℕ, 0 < n ∧ x = n

theorem isCount_one : IsCount 1 := ⟨1, one_pos, by norm_num⟩

theorem isCount_of_one_le {k : ℤ} (h : 1 ≤ k) : IsCount k := by
  refine ⟨k.toNat, by omega, ?_⟩
  rw [← Int.cast_natCast, Int.toNat_of_nonneg (by omega)]

theorem isCount_atLeastOne (x : ℝ) : IsCount (atLeastOne x) := by
  unfold atLeastOne
  rw [Scalar.maxNum_eq, Scalar.trunc_eq, Scalar.one_eq]
  rcases le_total (wholePart x) 1 with h | h
  · rw [max_eq_right (by exact_mod_cast h)]
    exact isCount_one
  · rw [max_eq_left (by exact_mod_cast h)]
    exact isCount_of_one_le h

theorem isCount_wanted (extent : Vec3 ℝ) (cutoff : ℝ) (a : Axis) :
    IsCount ((wanted extent cutoff).get a) := by
  simp only [wanted, Vec3.get_map, Scalar.trunc_eq, Scalar.one_eq]
  split_ifs with h
  · exact isCount_one
  · exact isCount_of_one_le (by exact_mod_cast not_lt.1 h)

/-- **Fewer cells are still a whole number of them**, and at least one along each axis. -/
theorem isCount_reduced (d : Dimension) {n : Vec3 ℝ} (hn : ∀ a, IsCount (n.get a)) (a : Axis) :
    IsCount ((reduced d n).get a) := by
  by_cases h : (Scalar.ofNat maxCells : ℝ) < n.x * n.y * n.z
  · cases d with
    | two =>
      -- the last axis of the plane keeps its number
      simp only [reduced, if_pos h]
      cases a with
      | x => exact isCount_atLeastOne _
      | y => exact isCount_atLeastOne _
      | z => exact hn .z
    | three =>
      simp only [reduced, if_pos h]
      cases a <;> exact isCount_atLeastOne _
  · simp only [reduced, if_neg h]
    exact hn a

/-- **The cells cover the points**, and `reach` of them are as long as the cutoff. -/
theorem layout_covers (d : Dimension) (ps : Array (Vec3 ℝ)) (hc : 0 < cutoff) :
    (layout d ps cutoff).Covers ps cutoff := by
  -- the number that the extent is divided by is the number of cells, without rounding
  have hcount : ∀ a, ∃ n : ℕ, 0 < n ∧ (layout d ps cutoff).counts.get a = n ∧
      (layout d ps cutoff).size.get a = (extent ps cutoff).get a / n := by
    intro a
    obtain ⟨n, hn, h⟩ := isCount_reduced d (isCount_wanted (extent ps cutoff) cutoff) a
    exact ⟨n, hn, by simp [layout, h], by simp [layout, h]⟩
  have hext : ∀ a, 0 < (extent ps cutoff).get a := fun a => lt_of_lt_of_le hc (cutoff_le_extent a)
  have hsize : ∀ a, 0 < (layout d ps cutoff).size.get a := by
    intro a
    obtain ⟨n, hn, -, h⟩ := hcount a
    rw [h]
    exact div_pos (hext a) (by exact_mod_cast hn)
  refine ⟨hsize, fun a => ?_, fun a p hp => lower_le hp a, fun a p hp => ?_, fun a => ?_⟩
  · obtain ⟨n, hn, h, -⟩ := hcount a
    omega
  · obtain ⟨n, hn, h1, h2⟩ := hcount a
    have hn : (n : ℝ) ≠ 0 := by positivity
    rw [h1, h2, mul_div_cancel₀ _ hn]
    exact le_lower_add_extent hp a
  · have hreach : (layout d ps cutoff).reach.get a =
        max ⌈cutoff / (layout d ps cutoff).size.get a⌉ 1 := by simp [layout]
    have h1 : cutoff / (layout d ps cutoff).size.get a ≤ (layout d ps cutoff).reach.get a := by
      rw [hreach]
      exact (Int.le_ceil _).trans (by exact_mod_cast le_max_left _ _)
    exact (div_le_iff₀ (hsize a)).1 h1

end Layout

section Place

variable {cells : Cells ℝ} {ps : Array (Vec3 ℝ)} {p q : Vec3 ℝ} {cutoff : ℝ}

theorem get_place (cells : Cells ℝ) (p : Vec3 ℝ) (a : Axis) :
    (cells.place p).get a = ⌊(p.get a - cells.origin.get a) / cells.size.get a⌋ := by
  simp [place]

theorem get_cellOf (cells : Cells ℝ) (p : Vec3 ℝ) (a : Axis) :
    (cells.cellOf p).get a =
      (max 0 (min ((cells.place p).get a) ((cells.counts.get a : ℤ) - 1))).toNat := by
  simp [cellOf]

theorem mem_around {i r : ℤ} {n k : ℕ} : k ∈ around i r n ↔ i - r ≤ k ∧ (k : ℤ) ≤ i + r ∧ k < n := by
  unfold around
  rw [List.mem_range'_1]
  omega

/-- **Along one axis**, a point at `f` cells from the first one and a position at `g` cells from it:
if they are less than `r` cells apart, the cell of the point is within reach of the position. The
point may be at the very end of the last cell, which its place is behind. -/
theorem clamp_mem_around {f g : ℝ} {r : ℤ} {n : ℕ} (hn : 0 < n) (h0 : 0 ≤ f) (h1 : f ≤ n)
    (hfg : |f - g| < r) : (max 0 (min ⌊f⌋ ((n : ℤ) - 1))).toNat ∈ around ⌊g⌋ r n := by
  set k : ℤ := max 0 (min ⌊f⌋ ((n : ℤ) - 1))
  have hf0 : 0 ≤ ⌊f⌋ := Int.floor_nonneg.2 h0
  obtain ⟨hg1, hg2⟩ := abs_lt.1 hfg
  -- the cell begins at or before the point and ends at or after it
  have hk1 : (k : ℝ) ≤ f := by
    have h : k ≤ ⌊f⌋ := by omega
    exact (Int.cast_le.2 h).trans (Int.floor_le f)
  have hk2 : f ≤ k + 1 := by
    rcases le_or_gt ⌊f⌋ ((n : ℤ) - 1) with h | h
    · have hk : k = ⌊f⌋ := by omega
      rw [hk]
      exact (Int.lt_floor_add_one f).le
    · have hk : k + 1 = n := by omega
      have : (k : ℝ) + 1 = n := by exact_mod_cast hk
      rw [this]
      exact h1
  have hlow : ⌊g⌋ < k + 1 + r := by
    have h := Int.floor_le g
    have : (⌊g⌋ : ℝ) < k + 1 + r := by linarith
    exact_mod_cast this
  have hhigh : k < ⌊g⌋ + 1 + r := by
    have h := Int.lt_floor_add_one g
    have : (k : ℝ) < ⌊g⌋ + 1 + r := by linarith
    exact_mod_cast this
  rw [mem_around]
  omega

/-- **The cell of a point is within reach** of each position closer than the cutoff. -/
theorem cellOf_mem_around (hcov : cells.Covers ps cutoff) (hp : p ∈ ps)
    (hpq : ∀ a, |p.get a - q.get a| < cutoff) (a : Axis) :
    (cells.cellOf p).get a ∈
      around ((cells.place q).get a) (cells.reach.get a) (cells.counts.get a) := by
  have hs := hcov.size_pos a
  rw [get_cellOf, get_place, get_place]
  apply clamp_mem_around (hcov.counts_pos a)
  · exact div_nonneg (sub_nonneg.2 (hcov.origin_le a p hp)) hs.le
  · rw [div_le_iff₀ hs]
    linarith [hcov.le_end a p hp]
  · rw [← sub_div, abs_div, abs_of_pos hs, div_lt_iff₀ hs]
    calc |p.get a - cells.origin.get a - (q.get a - cells.origin.get a)|
        = |p.get a - q.get a| := by congr 1; ring
      _ < cutoff := hpq a
      _ ≤ cells.reach.get a * cells.size.get a := hcov.cutoff_le a

end Place

section Buckets

variable {α : Type} [Scalar α]

theorem bucket_insert (cells : Cells α) (p : Vec3 α) (j : ℕ) (c : Vec3 ℕ) :
    (cells.insert p j).bucket c =
      if cells.cellOf p = c then j :: cells.bucket c else cells.bucket c := by
  unfold insert bucket
  rw [Std.HashMap.getD_alter]
  by_cases h : cells.cellOf p = c <;> simp [h, Std.HashMap.getD_eq_getD_getElem?]

/-- Points that are sorted in change nothing but the buckets: each adds its index to its own. -/
theorem foldl_insert (l : List (Vec3 α × ℕ)) (cells : Cells α) :
    ∃ buckets, l.foldl (fun cells (p, j) => cells.insert p j) cells = { cells with buckets } ∧
      ∀ c, buckets.getD c [] =
        ((l.filter fun x => cells.cellOf x.1 = c).map Prod.snd).reverse ++ cells.bucket c := by
  induction l generalizing cells with
  | nil => exact ⟨cells.buckets, rfl, fun c => rfl⟩
  | cons x l ih =>
    obtain ⟨buckets, h1, h2⟩ := ih (cells.insert x.1 x.2)
    refine ⟨buckets, h1, fun c => ?_⟩
    -- where a point belongs does not depend on the buckets
    have hcell : ∀ q, (cells.insert x.1 x.2).cellOf q = cells.cellOf q := fun q => rfl
    rw [h2 c, bucket_insert]
    simp only [hcell]
    by_cases hx : cells.cellOf x.1 = c <;> simp [hx]

end Buckets

section Build

variable {d : Dimension} {ps : Array (Vec3 ℝ)} {cutoff : ℝ}

/-- **Building succeeds**, and each point is in the bucket of its cell. -/
theorem build_ok (d : Dimension) (ps : Array (Vec3 ℝ)) (hc : 0 < cutoff) :
    ∃ cells, build d ps cutoff = .ok cells ∧ cells.Covers ps cutoff ∧ cells.Holds ps := by
  obtain ⟨buckets, h1, h2⟩ := foldl_insert ps.toList.zipIdx (layout d ps cutoff)
  have hcov := layout_covers d ps hc
  refine ⟨{ layout d ps cutoff with buckets }, ?_, ⟨hcov.size_pos, hcov.counts_pos, hcov.origin_le,
    hcov.le_end, hcov.cutoff_le⟩, ?_⟩
  · unfold build
    rw [if_pos ⟨Scalar.isPositive_iff.2 hc, by simp [Vec3.isFinite, Vec3.toList], rfl⟩, h1]
  have hb : ∀ c, buckets.getD c [] =
      ((ps.toList.zipIdx.filter fun x => (layout d ps cutoff).cellOf x.1 = c).map Prod.snd).reverse :=
    fun c => by rw [h2 c]; simp [layout, bucket]
  constructor
  · intro c j
    show j ∈ buckets.getD c [] ↔ _
    rw [hb c]
    simp only [List.mem_reverse, List.mem_map, List.mem_filter, decide_eq_true_eq]
    constructor
    · intro h
      obtain ⟨⟨p, j⟩, ⟨hm, hp⟩, rfl⟩ := h
      exact ⟨p, by simpa using List.mem_zipIdx_iff_getElem?.1 hm, hp⟩
    · intro h
      obtain ⟨p, hm, hp⟩ := h
      exact ⟨(p, j), ⟨List.mem_zipIdx_iff_getElem?.2 (by simpa using hm), hp⟩, rfl⟩
  · intro c
    show (buckets.getD c []).Nodup
    rw [hb c, List.nodup_reverse]
    -- a bucket is a part of the list of all indexes
    have hidx : (ps.toList.zipIdx.map Prod.snd).Nodup := by
      rw [List.zipIdx_map_snd]
      exact List.nodup_range'
    exact hidx.sublist (List.filter_sublist.map _)

end Build

section Candidates

variable {cells : Cells ℝ} {ps : Array (Vec3 ℝ)} {p q : Vec3 ℝ} {cutoff : ℝ}

theorem mem_candidates {j : ℕ} : j ∈ cells.candidates q ↔ ∃ c, j ∈ cells.bucket c ∧
    ∀ a, c.get a ∈ around ((cells.place q).get a) (cells.reach.get a) (cells.counts.get a) := by
  simp only [candidates, List.mem_flatMap]
  constructor
  · intro h
    obtain ⟨x, hx, y, hy, z, hz, hj⟩ := h
    exact ⟨⟨x, y, z⟩, hj, fun a => by cases a <;> assumption⟩
  · intro h
    obtain ⟨c, hj, h⟩ := h
    exact ⟨c.x, h .x, c.y, h .y, c.z, h .z, hj⟩

/-- **A near point is offered.** -/
theorem mem_candidates_of_near (hcov : cells.Covers ps cutoff) (hin : cells.Holds ps) {j : ℕ}
    (hp : ps[j]? = some p) (hpq : ∀ a, |p.get a - q.get a| < cutoff) :
    j ∈ cells.candidates q := by
  rw [mem_candidates]
  exact ⟨cells.cellOf p, (hin.mem_bucket _ _).2 ⟨p, hp, rfl⟩,
    cellOf_mem_around hcov (Array.mem_of_getElem? hp) hpq⟩

/-- **Each point is in one cell**, once. -/
theorem exists_cell (hcov : cells.Covers ps cutoff) (hin : cells.Holds ps) {j : ℕ}
    (hj : j < ps.size) : ∃ c : Vec3 ℕ, (∀ a, c.get a < cells.counts.get a) ∧
      ∀ c', (cells.bucket c').count j = if c' = c then 1 else 0 := by
  have hp : ps[j]? = some ps[j] := Array.getElem?_eq_getElem hj
  refine ⟨cells.cellOf ps[j], fun a => ?_, fun c' => ?_⟩
  · have := hcov.counts_pos a
    rw [get_cellOf]
    omega
  · split_ifs with h
    · exact List.count_eq_one_of_mem (hin.nodup_bucket _) ((hin.mem_bucket _ _).2 ⟨_, hp, h.symm⟩)
    · refine List.count_eq_zero_of_not_mem fun hm => h ?_
      obtain ⟨q, hq, hcell⟩ := (hin.mem_bucket _ _).1 hm
      rw [hp, Option.some_inj] at hq
      rw [← hcell, hq]

/-- Lists that can be told apart by a key of their members give a list without repetitions. -/
theorem nodup_flatMap_of_key {β γ : Type} {l : List β} {f : β → List γ} (key : γ → β) (hl : l.Nodup)
    (hf : ∀ x ∈ l, (f x).Nodup) (hk : ∀ x ∈ l, ∀ y ∈ f x, key y = x) : (l.flatMap f).Nodup := by
  rw [List.nodup_flatMap]
  refine ⟨hf, (List.pairwise_iff_forall_sublist.2 ?_)⟩
  intro x y hxy z hzx hzy
  have hx := hk x (hxy.subset (by simp)) z hzx
  have hy := hk y (hxy.subset (by simp)) z hzy
  have := hl.sublist hxy
  simp_all

/-- **Each point is offered at most once.** -/
theorem nodup_candidates (hin : cells.Holds ps) (q : Vec3 ℝ) : (cells.candidates q).Nodup := by
  -- the cell that a point is in tells the buckets apart
  set cell : ℕ → Vec3 ℕ := fun j => cells.cellOf (ps.getD j .zero)
  have hcell : ∀ c j, j ∈ cells.bucket c → cell j = c := by
    intro c j hj
    obtain ⟨p, hp, rfl⟩ := (hin.mem_bucket c j).1 hj
    simp [cell, Array.getD_eq_getD_getElem?, hp]
  have hnodup : ∀ i r n, (around i r n).Nodup := fun i r n => List.nodup_range'
  unfold candidates
  refine nodup_flatMap_of_key (fun j => (cell j).x) (hnodup _ _ _) (fun x _ => ?_)
    fun x _ j hj => ?_
  · refine nodup_flatMap_of_key (fun j => (cell j).y) (hnodup _ _ _) (fun y _ => ?_)
      fun y _ j hj => ?_
    · refine nodup_flatMap_of_key (fun j => (cell j).z) (hnodup _ _ _) (fun z _ => ?_)
        fun z _ j hj => ?_
      · exact hin.nodup_bucket _
      · rw [hcell _ _ hj]
    · obtain ⟨z, -, hj⟩ := List.mem_flatMap.1 hj
      rw [hcell _ _ hj]
  · obtain ⟨y, -, hj⟩ := List.mem_flatMap.1 hj
    obtain ⟨z, -, hj⟩ := List.mem_flatMap.1 hj
    rw [hcell _ _ hj]

end Candidates

end SmoothedParticles.Cells
