import SmoothedParticles.Proofs.Pairs.CellCover

/-!
# How many cells there are

There are as many cells along each axis as lengths of the cutoff, unless these are too many: then their number
is reduced to `maxCells`, and each axis gets its share of them. A share is rounded down to a whole number, but
to one if it is below one, and then the other axes have to make up for it, which they do not do.

* `share`, `get_reduced`: the share of an axis, before it is rounded.
* `reduced_le`: **no axis gets more cells** than lengths of the cutoff.
* `prod_reduced_le`: **there are not too many cells** if no share is below one.
* `prod_reduced_plane_iff`, `reduced_layer`: when there are too many cells in the plane, and in a layer of
  points.
* `cells_limited_iff`: when a cell list keeps its limit.
* `unlimited_cells`: a row of points, one of them far away from the others.
-/

namespace SmoothedParticles.Cells

section Whole

variable {x y : ℝ} {m : ℕ}

theorem IsCount.one_le (h : IsCount x) : 1 ≤ x := by
  obtain ⟨n, hn, rfl⟩ := h
  exact_mod_cast hn

theorem atLeastOne_eq (x : ℝ) : atLeastOne x = max (wholePart x : ℝ) 1 := by
  rw [atLeastOne, Scalar.maxNum_eq, Scalar.trunc_eq, Scalar.one_eq]

theorem one_le_atLeastOne (x : ℝ) : 1 ≤ atLeastOne x := by
  rw [atLeastOne_eq]
  exact le_max_right _ _

/-- Rounding down to a whole number that is at least one stays below a bound of at least one. -/
theorem atLeastOne_le (hx : 0 ≤ x) (hy : 1 ≤ y) (h : x ≤ y) : atLeastOne x ≤ y := by
  rw [atLeastOne_eq, wholePart, if_pos hx]
  exact max_le ((Int.floor_le x).trans h) hy

theorem atLeastOne_of_isCount (h : IsCount x) : atLeastOne x = x := by
  obtain ⟨n, hn, rfl⟩ := h
  rw [atLeastOne_eq, ← Int.cast_natCast, wholePart_intCast]
  exact max_eq_left (by exact_mod_cast hn)

theorem atLeastOne_le_natCast_iff (hx : 0 ≤ x) (hm : 1 ≤ m) : atLeastOne x ≤ m ↔ x < m + 1 := by
  have hone : (1 : ℝ) ≤ m := by exact_mod_cast hm
  rw [atLeastOne_eq, wholePart, if_pos hx, max_le_iff, and_iff_left hone]
  constructor
  · intro h
    exact (Int.lt_floor_add_one x).trans_le (by linarith)
  · intro h
    have hfloor : ⌊x⌋ < (m : ℤ) + 1 := Int.floor_lt.2 (by exact_mod_cast h)
    have hle : ⌊x⌋ ≤ (m : ℤ) := by omega
    exact_mod_cast hle

theorem atLeastOne_eq_one (hx : 0 ≤ x) (h : x < 1) : atLeastOne x = 1 :=
  le_antisymm (atLeastOne_le hx le_rfl h.le) (one_le_atLeastOne x)

theorem cbrt_nonneg (hx : 0 < x) : 0 ≤ Scalar.cbrt x := by
  show 0 ≤ (SignType.sign x : ℝ) * |x| ^ (1 / 3 : ℝ)
  rw [sign_pos hx, SignType.coe_one, one_mul]
  positivity

theorem cbrt_pow (hx : 0 < x) : Scalar.cbrt x ^ 3 = x := by
  show ((SignType.sign x : ℝ) * |x| ^ (1 / 3 : ℝ)) ^ 3 = x
  rw [sign_pos hx, SignType.coe_one, one_mul, abs_of_pos hx, ← Real.rpow_natCast, ← Real.rpow_mul hx.le]
  norm_num

end Whole

section Shares

variable {d : Dimension} {n : Vec3 ℝ} {a : Axis}

/-- The share of the cells that an axis gets if there are too many of them, before it is rounded. -/
noncomputable def share (d : Dimension) (n : Vec3 ℝ) (a : Axis) : ℝ :=
  match d, a with
  | .two, .x => n.x / n.y * (reduced .two n).y
  | .two, .y => √(maxCells / (n.x / n.y))
  | .two, .z => n.z
  | .three, .x => n.x / n.y * (reduced .three n).y
  | .three, .y => n.y / n.z * (reduced .three n).z
  | .three, .z => Scalar.cbrt (maxCells / (n.x / n.y * (n.y / n.z) * (n.y / n.z)))

theorem maxCells_pos : (0 : ℝ) < maxCells := by norm_num [maxCells]

theorem reduced_of_le (h : n.x * n.y * n.z ≤ maxCells) : reduced d n = n := by
  simp only [reduced]
  exact if_neg (not_lt.2 h)

/-- **If there are too many cells**, each axis gets its share. -/
theorem get_reduced (h : maxCells < n.x * n.y * n.z) (ha : a ∈ d.axes) :
    (reduced d n).get a = atLeastOne (share d n a) := by
  have h' : (Scalar.ofNat maxCells : ℝ) < n.x * n.y * n.z := h
  unfold share reduced
  cases d with
  | two =>
    simp only [if_pos h']
    cases a with
    | x => rfl
    | y => rfl
    | z => exact absurd ha (by decide)
  | three =>
    simp only [if_pos h']
    cases a <;> rfl

/-- In the plane, the last axis keeps its number. -/
theorem reduced_two_z : (reduced .two n).z = n.z := by
  simp only [reduced]
  split_ifs <;> rfl

/-- The numbers of cells that lengths of the cutoff give: at least one along each axis, and one along the axis
that is not in use. -/
structure Counts (d : Dimension) (n : Vec3 ℝ) : Prop where
  count : ∀ a, IsCount (n.get a)
  flat : d = .two → n.z = 1

theorem Counts.pos (hn : Counts d n) (a : Axis) : 0 < n.get a := one_pos.trans_le (hn.count a).one_le

theorem Counts.one_le_reduced (hn : Counts d n) (a : Axis) : 1 ≤ (reduced d n).get a :=
  (isCount_reduced d hn.count a).one_le

theorem share_nonneg (hn : Counts d n) (a : Axis) : 0 ≤ share d n a := by
  have hx : 0 < n.x := hn.pos .x
  have hy : 0 < n.y := hn.pos .y
  have hz : 0 < n.z := hn.pos .z
  have hry : 0 ≤ (reduced d n).y := zero_le_one.trans (hn.one_le_reduced .y)
  have hrz : 0 ≤ (reduced d n).z := zero_le_one.trans (hn.one_le_reduced .z)
  have hmax := maxCells_pos
  cases d with
  | two =>
    cases a with
    | x => exact mul_nonneg (div_pos hx hy).le hry
    | y => exact Real.sqrt_nonneg _
    | z => exact hz.le
  | three =>
    cases a with
    | x => exact mul_nonneg (div_pos hx hy).le hry
    | y => exact mul_nonneg (div_pos hy hz).le hrz
    | z => exact cbrt_nonneg (by positivity)

/-- An axis whose share is below one gets one cell all the same. -/
theorem get_reduced_eq_one (hn : Counts d n) (h : maxCells < n.x * n.y * n.z) (ha : a ∈ d.axes)
    (hshare : share d n a < 1) : (reduced d n).get a = 1 :=
  (get_reduced h ha).trans (atLeastOne_eq_one (share_nonneg hn a) hshare)

/-- The last axis gets no more than it has. -/
theorem share_two_y_le (hn : Counts .two n) (h : maxCells < n.x * n.y * n.z) :
    share .two n .y ≤ n.y := by
  have hx : 0 < n.x := hn.pos .x
  have hy : 0 < n.y := hn.pos .y
  rw [hn.flat rfl, mul_one] at h
  refine Real.sqrt_le_iff.2 ⟨hy.le, ?_⟩
  rw [div_div_eq_mul_div, div_le_iff₀ hx]
  nlinarith

theorem share_three_z_le (hn : Counts .three n) (h : maxCells < n.x * n.y * n.z) :
    share .three n .z ≤ n.z := by
  have hx : 0 < n.x := hn.pos .x
  have hy : 0 < n.y := hn.pos .y
  have hz : 0 < n.z := hn.pos .z
  have hmax := maxCells_pos
  have hratio : 0 < n.x / n.y * (n.y / n.z) * (n.y / n.z) := by positivity
  rw [← pow_le_pow_iff_left₀ (share_nonneg hn .z) hz.le three_ne_zero]
  show Scalar.cbrt (maxCells / (n.x / n.y * (n.y / n.z) * (n.y / n.z))) ^ 3 ≤ n.z ^ 3
  rw [cbrt_pow (div_pos hmax hratio), div_le_iff₀ hratio]
  calc (maxCells : ℝ) ≤ n.x * n.y * n.z := h.le
    _ = n.z ^ 3 * (n.x / n.y * (n.y / n.z) * (n.y / n.z)) := by field_simp

/-- **No axis gets more cells** than it has, if there are too many. -/
theorem reduced_le (hn : Counts d n) (a : Axis) : (reduced d n).get a ≤ n.get a := by
  rcases le_or_gt (n.x * n.y * n.z) maxCells with h | h
  · rw [reduced_of_le h]
  have hle : ∀ a ∈ d.axes, share d n a ≤ n.get a → (reduced d n).get a ≤ n.get a := by
    intro a ha hshare
    rw [get_reduced h ha]
    exact atLeastOne_le (share_nonneg hn a) (hn.count a).one_le hshare
  have hratio : ∀ {p q r : ℝ}, 0 < p → 0 < q → r ≤ q → p / q * r ≤ p := by
    intro p q r hp hq hr
    rw [div_mul_eq_mul_div, div_le_iff₀ hq]
    exact mul_le_mul_of_nonneg_left hr hp.le
  -- each axis after the one that its share is taken from
  cases d with
  | two =>
    have hy := hle .y (by decide) (share_two_y_le hn h)
    cases a with
    | x => exact hle .x (by decide) (hratio (hn.pos .x) (hn.pos .y) hy)
    | y => exact hy
    | z => exact reduced_two_z.le
  | three =>
    have hz := hle .z (by decide) (share_three_z_le hn h)
    have hy := hle .y (by decide) (hratio (hn.pos .y) (hn.pos .z) hz)
    cases a with
    | x => exact hle .x (by decide) (hratio (hn.pos .x) (hn.pos .y) hy)
    | y => exact hy
    | z => exact hz

/-- **There are not too many cells** if no share is below one. -/
theorem prod_reduced_le (hn : Counts d n) (h : maxCells < n.x * n.y * n.z)
    (hshare : ∀ a ∈ d.axes, 1 ≤ share d n a) :
    (reduced d n).x * (reduced d n).y * (reduced d n).z ≤ maxCells := by
  have hx : 0 < n.x := hn.pos .x
  have hy : 0 < n.y := hn.pos .y
  have hz : 0 < n.z := hn.pos .z
  have hmax := maxCells_pos
  have hle : ∀ a ∈ d.axes, (reduced d n).get a ≤ share d n a := by
    intro a ha
    rw [get_reduced h ha]
    exact atLeastOne_le (share_nonneg hn a) (hshare a ha) le_rfl
  have hY : 0 ≤ (reduced d n).y := zero_le_one.trans (hn.one_le_reduced .y)
  have hZ : 0 ≤ (reduced d n).z := zero_le_one.trans (hn.one_le_reduced .z)
  cases d with
  | two =>
    have hX : (reduced .two n).x ≤ n.x / n.y * (reduced .two n).y := hle .x (by decide)
    have hsq : (reduced .two n).y ^ 2 ≤ maxCells / (n.x / n.y) := by
      rw [← Real.sq_sqrt (by positivity : 0 ≤ maxCells / (n.x / n.y))]
      exact pow_le_pow_left₀ hY (hle .y (by decide)) 2
    rw [le_div_iff₀ (div_pos hx hy)] at hsq
    rw [reduced_two_z, hn.flat rfl, mul_one]
    calc (reduced .two n).x * (reduced .two n).y
        ≤ n.x / n.y * (reduced .two n).y * (reduced .two n).y := mul_le_mul_of_nonneg_right hX hY
      _ = (reduced .two n).y ^ 2 * (n.x / n.y) := by ring
      _ ≤ maxCells := hsq
  | three =>
    have hX : (reduced .three n).x ≤ n.x / n.y * (reduced .three n).y := hle .x (by decide)
    have hYZ : (reduced .three n).y ≤ n.y / n.z * (reduced .three n).z := hle .y (by decide)
    have hratio : 0 < n.x / n.y * (n.y / n.z) * (n.y / n.z) := by positivity
    have hcube : (reduced .three n).z ^ 3 ≤ maxCells / (n.x / n.y * (n.y / n.z) * (n.y / n.z)) := by
      rw [← cbrt_pow (div_pos hmax hratio)]
      exact pow_le_pow_left₀ hZ (hle .z (by decide)) 3
    rw [le_div_iff₀ hratio] at hcube
    calc (reduced .three n).x * (reduced .three n).y * (reduced .three n).z
        ≤ n.x / n.y * (reduced .three n).y * (reduced .three n).y * (reduced .three n).z := by gcongr
      _ ≤ n.x / n.y * (n.y / n.z * (reduced .three n).z) * (n.y / n.z * (reduced .three n).z) *
          (reduced .three n).z := by gcongr
      _ = (reduced .three n).z ^ 3 * (n.x / n.y * (n.y / n.z) * (n.y / n.z)) := by ring
      _ ≤ maxCells := hcube

/-- The number of cells in the plane, or in space, as a product over the axes in use. -/
theorem prod_axes_reduced (hn : Counts d n) :
    (d.axes.map (reduced d n).get).prod = (reduced d n).x * (reduced d n).y * (reduced d n).z := by
  cases d with
  | two =>
    rw [reduced_two_z, hn.flat rfl, mul_one]
    show (reduced .two n).x * ((reduced .two n).y * 1) = _
    rw [mul_one]
  | three =>
    show (reduced .three n).x * ((reduced .three n).y * ((reduced .three n).z * 1)) = _
    ring

/-- **When there are too many cells**: there were too many to begin with, the share of some axis is below one,
and the other axes have too many cells among themselves. -/
theorem lt_prod_reduced_iff (hn : Counts d n) :
    maxCells < (reduced d n).x * (reduced d n).y * (reduced d n).z ↔ maxCells < n.x * n.y * n.z ∧
      ∃ a ∈ d.axes, share d n a < 1 ∧ maxCells < ((d.axes.erase a).map (reduced d n).get).prod := by
  have hone : ∀ a ∈ d.axes, maxCells < n.x * n.y * n.z → share d n a < 1 →
      (reduced d n).x * (reduced d n).y * (reduced d n).z =
        ((d.axes.erase a).map (reduced d n).get).prod := by
    intro a ha h hshare
    rw [← prod_axes_reduced hn, (List.perm_cons_erase ha).map _ |>.prod_eq, List.map_cons, List.prod_cons,
      get_reduced_eq_one hn h ha hshare, one_mul]
  constructor
  · intro hmany
    have h : (maxCells : ℝ) < n.x * n.y * n.z := by
      by_contra hle
      rw [reduced_of_le (not_lt.1 hle)] at hmany
      exact hle hmany
    obtain ⟨a, ha, hshare⟩ : ∃ a ∈ d.axes, share d n a < 1 := by
      by_contra hnone
      push Not at hnone
      exact absurd hmany (not_lt.2 (prod_reduced_le hn h hnone))
    exact ⟨h, a, ha, hshare, hone a ha h hshare ▸ hmany⟩
  · rintro ⟨h, a, ha, hshare, hmany⟩
    rwa [hone a ha h hshare]

/-- If there are not too many cells in the plane, neither side is longer than all of them in a row. -/
theorem sides_of_le (hn : Counts .two n) (h : n.x * n.y * n.z ≤ maxCells) :
    n.x < (maxCells + 1) * n.y ∧ maxCells * n.y < (maxCells + 1) ^ 2 * n.x := by
  have hmax := maxCells_pos
  have hx : 1 ≤ n.x := (hn.count .x).one_le
  have hy : 1 ≤ n.y := (hn.count .y).one_le
  rw [hn.flat rfl, mul_one] at h
  have hxm : n.x ≤ maxCells := (le_mul_of_one_le_right (hn.pos .x).le hy).trans h
  have hym : n.y ≤ maxCells := (le_mul_of_one_le_left (hn.pos .y).le hx).trans h
  constructor
  · calc n.x < maxCells + 1 := by linarith
      _ ≤ (maxCells + 1) * n.y := le_mul_of_one_le_right (by linarith) hy
  · calc maxCells * n.y ≤ maxCells * maxCells := mul_le_mul_of_nonneg_left hym hmax.le
      _ < (maxCells + 1) ^ 2 := by nlinarith
      _ ≤ (maxCells + 1) ^ 2 * n.x := le_mul_of_one_le_right (by positivity) hx

theorem reduced_y_le_iff (hn : Counts .two n) (h : maxCells < n.x * n.y * n.z) :
    (reduced .two n).y ≤ maxCells ↔ maxCells * n.y < (maxCells + 1) ^ 2 * n.x := by
  have hx : 0 < n.x := hn.pos .x
  have hmax := maxCells_pos
  show (reduced .two n).get .y ≤ maxCells ↔ _
  rw [get_reduced h (by decide), atLeastOne_le_natCast_iff (share_nonneg hn .y) (by decide)]
  show √(maxCells / (n.x / n.y)) < maxCells + 1 ↔ _
  rw [Real.sqrt_lt' (by linarith), div_div_eq_mul_div, div_lt_iff₀ hx]

theorem reduced_x_le_iff (hn : Counts .two n) (h : maxCells < n.x * n.y * n.z) :
    (reduced .two n).x ≤ maxCells ↔ n.x / n.y * (reduced .two n).y < maxCells + 1 := by
  show (reduced .two n).get .x ≤ maxCells ↔ share .two n .x < maxCells + 1
  rw [get_reduced h (by decide), atLeastOne_le_natCast_iff (share_nonneg hn .x) (by decide)]

/-- **In the plane** there are too many cells exactly if one side of the box around the points is too long for
the other one. -/
theorem prod_reduced_plane_iff (hn : Counts .two n) :
    (reduced .two n).x * (reduced .two n).y * (reduced .two n).z ≤ maxCells ↔
      n.x < (maxCells + 1) * n.y ∧ maxCells * n.y < (maxCells + 1) ^ 2 * n.x := by
  have hx : 0 < n.x := hn.pos .x
  have hy : 0 < n.y := hn.pos .y
  rcases le_or_gt (n.x * n.y * n.z) maxCells with h | h
  · rw [reduced_of_le h]
    exact iff_of_true h (sides_of_le hn h)
  have hX : 1 ≤ (reduced .two n).x := hn.one_le_reduced .x
  have hY : 1 ≤ (reduced .two n).y := hn.one_le_reduced .y
  have hXle := reduced_x_le_iff hn h
  rw [reduced_two_z, hn.flat rfl, mul_one, ← reduced_y_le_iff hn h, ← div_lt_iff₀ hy]
  constructor
  · intro hle
    have hXm : (reduced .two n).x ≤ maxCells := (le_mul_of_one_le_right (by linarith) hY).trans hle
    refine ⟨?_, (le_mul_of_one_le_left (by linarith) hX).trans hle⟩
    exact (le_mul_of_one_le_right (div_pos hx hy).le hY).trans_lt (hXle.1 hXm)
  · rintro ⟨hratio, hYm⟩
    -- an axis whose share is below one has one cell, and then only the other one counts
    rcases lt_or_ge (share .two n .y) 1 with hsy | hsy
    · have hYone : (reduced .two n).y = 1 := get_reduced_eq_one hn h (by decide : Axis.y ∈ _) hsy
      rw [hYone, mul_one] at hXle ⊢
      exact hXle.2 hratio
    rcases lt_or_ge (share .two n .x) 1 with hsx | hsx
    · have hXone : (reduced .two n).x = 1 := get_reduced_eq_one hn h (by decide : Axis.x ∈ _) hsx
      rwa [hXone, one_mul]
    · have hle := prod_reduced_le hn h fun a ha => by
        cases a with
        | x => exact hsx
        | y => exact hsy
        | z => exact absurd ha (by decide)
      rwa [reduced_two_z, hn.flat rfl, mul_one] at hle

theorem share_layer_lt_one (hn : Counts .three n) (hz : n.z = 1) (h : maxCells < n.x * n.y * n.z) :
    share .three n .z < 1 := by
  have hmax := maxCells_pos
  have hx : 0 < n.x := hn.pos .x
  have hy : 0 < n.y := hn.pos .y
  have hratio : n.x / n.y * (n.y / n.z) * (n.y / n.z) = n.x * n.y := by
    rw [hz]
    field_simp
  rw [hz, mul_one] at h
  rw [← pow_lt_pow_iff_left₀ (share_nonneg hn .z) zero_le_one three_ne_zero, one_pow]
  show Scalar.cbrt (maxCells / (n.x / n.y * (n.y / n.z) * (n.y / n.z))) ^ 3 < 1
  rw [hratio, cbrt_pow (by positivity), div_lt_one (by positivity)]
  exact h

/-- **A layer of points** in space gets no fewer cells than it has lengths of the cutoff, however many these
are. -/
theorem reduced_layer (hn : Counts .three n) (hz : n.z = 1) : reduced .three n = n := by
  rcases le_or_gt (n.x * n.y * n.z) maxCells with h | h
  · exact reduced_of_le h
  have hy : 0 < n.y := hn.pos .y
  have hget : ∀ a, share .three n a = n.get a → (reduced .three n).get a = n.get a := by
    intro a hshare
    rw [get_reduced h (by cases a <;> decide), hshare]
    exact atLeastOne_of_isCount (hn.count a)
  -- the share of the last axis is below one, and the others get all that they have
  have hZ : (reduced .three n).z = n.z :=
    (get_reduced_eq_one hn h (by decide : Axis.z ∈ _) (share_layer_lt_one hn hz h)).trans hz.symm
  have hY : (reduced .three n).y = n.y := by
    refine hget .y ?_
    show n.y / n.z * (reduced .three n).z = n.y
    rw [hZ, hz, div_one, mul_one]
  have hX : (reduced .three n).x = n.x := by
    refine hget .x ?_
    show n.x / n.y * (reduced .three n).y = n.x
    rw [hY, div_mul_cancel₀ _ hy.ne']
  refine Vec3.ext_get fun a => ?_
  cases a with
  | x => exact hX
  | y => exact hY
  | z => exact hZ

end Shares

section Parts

variable {α : Type} [Scalar α] {d : Dimension} {ps : Array (Vec3 α)} {cutoff : α} {cells : Cells α}

/-- **What a cell list consists of**: the layout of its cells, with points in them. -/
theorem layout_of_build (h : build d ps cutoff = .ok cells) :
    ∃ buckets, cells = { layout d ps cutoff with buckets } := by
  unfold build at h
  dsimp only at h
  split_ifs at h
  obtain ⟨buckets, hfold, -⟩ := foldl_insert ps.toList.zipIdx (layout d ps cutoff)
  exact ⟨buckets, (Except.ok.inj h).symm.trans hfold⟩

variable (d ps cutoff) (a : Axis)

theorem get_counts_layout : (layout d ps cutoff).counts.get a =
    Scalar.count ((reduced d (wanted (extent ps cutoff) cutoff)).get a) := Vec3.get_map ..

theorem get_size_layout : (layout d ps cutoff).size.get a =
    (extent ps cutoff).get a / (reduced d (wanted (extent ps cutoff) cutoff)).get a := Vec3.get_zipWith ..

theorem get_reach_layout : (layout d ps cutoff).reach.get a =
    max (Scalar.index (Scalar.ceil (cutoff / (layout d ps cutoff).size.get a))) 1 := Vec3.get_map ..

end Parts

section Layout

variable {d : Dimension} {ps : Array (Vec3 ℝ)} {cutoff : ℝ} {a : Axis} {cells : Cells ℝ}

theorem get_first_of_forall (ha : ∀ p ∈ ps, p.get a = 0) : (ps.getD 0 .zero).get a = 0 := by
  rw [Array.getD_eq_getD_getElem?]
  cases h : ps[0]? with
  | none => exact Vec3.get_zero a
  | some p => exact ha p (Array.mem_of_getElem? h)

/-- If all points have the same coordinate along an axis, the least or the greatest of them is this coordinate
too. -/
theorem get_foldl_of_forall {f : ℝ → ℝ → ℝ} {c : ℝ} (hf : f c c = c) {l : List (Vec3 ℝ)} {v : Vec3 ℝ}
    (hv : v.get a = c) (hl : ∀ p ∈ l, p.get a = c) : (l.foldl (.zipWith f) v).get a = c := by
  induction l generalizing v with
  | nil => exact hv
  | cons p l ih =>
    rw [List.forall_mem_cons] at hl
    exact ih (by rw [Vec3.get_zipWith, hv, hl.1, hf]) hl.2

theorem lower_of_forall (ha : ∀ p ∈ ps, p.get a = 0) : (lower ps).get a = 0 := by
  unfold lower
  rw [← Array.foldl_toList]
  exact get_foldl_of_forall (min_self 0) (get_first_of_forall ha) fun p hp => ha p (Array.mem_toList_iff.1 hp)

theorem extent_of_forall (hc : 0 < cutoff) (ha : ∀ p ∈ ps, p.get a = 0) :
    (extent ps cutoff).get a = cutoff := by
  have hupper : (upper ps).get a = 0 := by
    unfold upper
    rw [← Array.foldl_toList]
    exact get_foldl_of_forall (max_self 0) (get_first_of_forall ha) fun p hp =>
      ha p (Array.mem_toList_iff.1 hp)
  rw [extent, Vec3.get_map, Vec3.get_sub, lower_of_forall ha, hupper, Scalar.maxNum_eq, sub_zero,
    max_eq_right hc.le]

/-- **Points with the same coordinate** along an axis are in one layer of cells. -/
theorem wanted_of_forall (hc : 0 < cutoff) (ha : ∀ p ∈ ps, p.get a = 0) :
    (wanted (extent ps cutoff) cutoff).get a = 1 := by
  simp only [wanted, Vec3.get_map, extent_of_forall hc ha, div_self hc.ne', Scalar.trunc_eq, Scalar.one_eq]
  rw [← Int.cast_one, wholePart_intCast, if_neg (lt_irrefl _)]

theorem counts_wanted (hc : 0 < cutoff) (hflat : d = .two → ∀ p ∈ ps, p.z = 0) :
    Counts d (wanted (extent ps cutoff) cutoff) where
  count := isCount_wanted _ _
  flat hd := @wanted_of_forall _ _ .z hc (hflat hd)

/-- The number of lengths of the cutoff in an edge is at most its length. -/
theorem wanted_le (hc : 0 < cutoff) (a : Axis) :
    (wanted (extent ps cutoff) cutoff).get a ≤ (extent ps cutoff).get a / cutoff := by
  have hone : 1 ≤ (extent ps cutoff).get a / cutoff := (one_le_div hc).2 (cutoff_le_extent a)
  simp only [wanted, Vec3.get_map, Scalar.trunc_eq, Scalar.one_eq]
  split_ifs
  · exact hone
  · rw [wholePart, if_pos (zero_le_one.trans hone)]
    exact Int.floor_le _

theorem le_wanted {m : ℤ} (hc : 0 < cutoff) (h : m ≤ (extent ps cutoff).get a / cutoff) :
    (m : ℝ) ≤ (wanted (extent ps cutoff) cutoff).get a := by
  have hnonneg : 0 ≤ (extent ps cutoff).get a / cutoff := div_nonneg (hc.le.trans (cutoff_le_extent a)) hc.le
  have hm : (m : ℝ) ≤ ⌊(extent ps cutoff).get a / cutoff⌋ := by exact_mod_cast Int.le_floor.2 h
  simp only [wanted, Vec3.get_map, Scalar.trunc_eq, Scalar.one_eq, wholePart, if_pos hnonneg]
  split_ifs with hone
  · exact hm.trans hone.le
  · exact hm

theorem counts_of_build (hbuild : build d ps cutoff = .ok cells) (a : Axis) :
    (cells.counts.get a : ℝ) = (reduced d (wanted (extent ps cutoff) cutoff)).get a := by
  obtain ⟨n, -, h⟩ := isCount_reduced d (isCount_wanted (extent ps cutoff) cutoff) a
  obtain ⟨buckets, rfl⟩ := layout_of_build hbuild
  show ((layout d ps cutoff).counts.get a : ℝ) = _
  rw [get_counts_layout, h, Scalar.count_natCast]

theorem total_of_build (hbuild : build d ps cutoff = .ok cells) :
    ((cells.counts.x * cells.counts.y * cells.counts.z : ℕ) : ℝ) =
      (reduced d (wanted (extent ps cutoff) cutoff)).x * (reduced d (wanted (extent ps cutoff) cutoff)).y *
        (reduced d (wanted (extent ps cutoff) cutoff)).z := by
  have h := counts_of_build hbuild
  push_cast
  exact congrArg₂ _ (congrArg₂ _ (h .x) (h .y)) (h .z)

/-- **A cell is at least as long as the cutoff**, along each axis. -/
theorem cutoff_le_size (hc : 0 < cutoff) (hflat : d = .two → ∀ p ∈ ps, p.z = 0) (a : Axis) :
    cutoff ≤ (layout d ps cutoff).size.get a := by
  have hn := counts_wanted hc hflat
  have hpos : 0 < (reduced d (wanted (extent ps cutoff) cutoff)).get a :=
    one_pos.trans_le (hn.one_le_reduced a)
  rw [get_size_layout, le_div_iff₀ hpos, mul_comm, ← le_div_iff₀ hc]
  exact (reduced_le hn a).trans (wanted_le hc a)

/-- **When a cell list keeps its limit.** Points can always be sorted into cells, no axis gets more cells than
it has lengths of the cutoff, and each cell is as long as the cutoff at least. There are more than `maxCells`
of them exactly if there were too many to begin with, the share of some axis is below one, and the other axes
have too many among themselves. In the plane this is a matter of the proportions alone, and in a layer of
points that is one cell thick, cells are never reduced at all. -/
theorem cells_limited_iff (d : Dimension) (ps : Array (Vec3 ℝ)) {cutoff : ℝ} (hc : 0 < cutoff)
    (hflat : d = .two → ∀ p ∈ ps, p.z = 0) :
    let n := wanted (extent ps cutoff) cutoff
    ∃ cells, build d ps cutoff = .ok cells ∧ (∀ a, (cells.counts.get a : ℝ) ≤ n.get a) ∧
      (∀ a, cutoff ≤ cells.size.get a) ∧
      (maxCells < cells.counts.x * cells.counts.y * cells.counts.z ↔ maxCells < n.x * n.y * n.z ∧
        ∃ a ∈ d.axes, share d n a < 1 ∧ maxCells < ((d.axes.erase a).map cells.counts.get).prod) ∧
      (d = .two → (cells.counts.x * cells.counts.y * cells.counts.z ≤ maxCells ↔
        n.x < (maxCells + 1) * n.y ∧ maxCells * n.y < (maxCells + 1) ^ 2 * n.x)) ∧
      (d = .three → n.z = 1 → ∀ a, (cells.counts.get a : ℝ) = n.get a) := by
  intro n
  have hn : Counts d n := counts_wanted hc hflat
  obtain ⟨cells, hbuild, -⟩ := build_ok d ps hc
  obtain ⟨buckets, hcells⟩ := layout_of_build hbuild
  have hcounts : ∀ a, (cells.counts.get a : ℝ) = (reduced d n).get a := counts_of_build hbuild
  have htotal : ((cells.counts.x * cells.counts.y * cells.counts.z : ℕ) : ℝ) =
      (reduced d n).x * (reduced d n).y * (reduced d n).z := total_of_build hbuild
  have hprod : ∀ l : List Axis,
      (((l.map cells.counts.get).prod : ℕ) : ℝ) = (l.map (reduced d n).get).prod := by
    intro l
    rw [Nat.cast_list_prod, List.map_map]
    exact congrArg _ (List.map_congr_left fun a _ => hcounts a)
  refine ⟨cells, hbuild, fun a => ?_, fun a => ?_, ?_, ?_, ?_⟩
  · rw [hcounts]
    exact reduced_le hn a
  · rw [hcells]
    exact cutoff_le_size hc hflat a
  · rw [← @Nat.cast_lt ℝ, htotal, lt_prod_reduced_iff hn]
    simp only [← hprod, Nat.cast_lt]
  · rintro rfl
    rw [← @Nat.cast_le ℝ, htotal]
    exact prod_reduced_plane_iff hn
  · rintro rfl hz a
    rw [hcounts, reduced_layer hn hz]

/-- A square of points with a million lengths of the cutoff in it gets no more cells than it should. -/
theorem cells_limited_iff_square :
    let ps : Array (Vec3 ℝ) := #[⟨0, 0, 0⟩, ⟨1000, 1000, 0⟩]
    (0 : ℝ) < 1 ∧ (∀ p ∈ ps, p.z = 0) ∧ ∃ cells, build .two ps 1 = .ok cells ∧
      cells.counts.x * cells.counts.y * cells.counts.z ≤ maxCells ∧ ∀ a, 1 ≤ cells.size.get a := by
  intro ps
  have hflat : ∀ p ∈ ps, p.z = 0 := by simp [ps]
  have hlower : lower ps = ⟨0, 0, 0⟩ := by simp [ps, lower, Vec3.zipWith]
  have hupper : upper ps = ⟨1000, 1000, 0⟩ := by simp [ps, upper, Vec3.zipWith]
  have hside : ∀ a ≠ .z, (wanted (extent ps 1) 1).get a = ((1000 : ℤ) : ℝ) := by
    intro a ha
    have hextent : (extent ps 1).get a = ((1000 : ℤ) : ℝ) := by
      rw [extent, Vec3.get_map, hlower, hupper, Vec3.get_sub, Scalar.maxNum_eq]
      cases a with
      | z => exact absurd rfl ha
      | _ => norm_num [Vec3.get]
    simp only [wanted, Vec3.get_map, hextent, div_one, Scalar.trunc_eq, wholePart_intCast, Scalar.one_eq]
    norm_num
  obtain ⟨cells, hbuild, -, hsize, -, hplane, -⟩ := cells_limited_iff .two ps one_pos fun _ => hflat
  refine ⟨one_pos, hflat, cells, hbuild, (hplane rfl).2 ?_, hsize⟩
  have hx : (wanted (extent ps 1) 1).x = 1000 := hside .x (by decide)
  have hy : (wanted (extent ps 1) 1).y = 1000 := hside .y (by decide)
  rw [hx, hy]
  norm_num [maxCells]

/-- **A row of points, and one far away.** The points of the row are two lengths of the cutoff apart. There is a
cell for each length of the cutoff, and the reduction of their number leaves it as it is. -/
theorem unlimited_cells :
    let ps : Array (Vec3 ℝ) := .ofFn fun i : Fin 65 => ⟨if i = 0 then 10 ^ 20 else 2 * (i : ℕ), 0, 0⟩
    ∃ cells, build .two ps 1 = .ok cells ∧ maxCells < cells.counts.x * cells.counts.y * cells.counts.z := by
  intro ps
  have hzero : ∀ a ≠ .x, ∀ p ∈ ps, p.get a = 0 := by
    intro a ha p hp
    obtain ⟨i, rfl⟩ := Array.mem_ofFn.1 hp
    cases a with
    | x => exact absurd rfl ha
    | y => rfl
    | z => rfl
  have hn : Counts .two (wanted (extent ps 1) 1) := counts_wanted one_pos fun _ => hzero .z nofun
  have hy : (wanted (extent ps 1) 1).y = 1 := wanted_of_forall one_pos (hzero .y nofun)
  -- the row is long enough for more cells than there should be
  have hx : ((maxCells + 1 : ℤ) : ℝ) ≤ (wanted (extent ps 1) 1).get .x := by
    have hfar : ⟨10 ^ 20, 0, 0⟩ ∈ ps := Array.mem_ofFn.2 ⟨0, rfl⟩
    have hnear : ⟨2, 0, 0⟩ ∈ ps := Array.mem_ofFn.2 ⟨1, by norm_num⟩
    have hlow : (lower ps).get .x ≤ 2 := lower_le hnear .x
    have hhigh : 10 ^ 20 ≤ (lower ps).get .x + (extent ps 1).get .x := le_lower_add_extent hfar .x
    refine le_wanted one_pos ?_
    norm_num [maxCells]
    linarith
  obtain ⟨cells, hbuild, -⟩ := build_ok .two ps one_pos
  refine ⟨cells, hbuild, ?_⟩
  rw [← @Nat.cast_lt ℝ, total_of_build hbuild, ← not_le, prod_reduced_plane_iff hn, hy, mul_one]
  rintro ⟨hshort, -⟩
  have hlong : (maxCells : ℝ) + 1 ≤ (wanted (extent ps 1) 1).x := by exact_mod_cast hx
  exact absurd hshort (not_lt.2 hlong)

end Layout

end SmoothedParticles.Cells
