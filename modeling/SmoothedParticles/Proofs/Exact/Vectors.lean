import SmoothedParticles.Proofs.Exact.Reals
import SmoothedParticles.Space.Vec3

/-!
# Exact vectors

Vectors are equal if they agree on each axis, so what is said about them here is said axis by axis.

* `get_add`, `get_sub`, `get_zero`: the operations on an axis.
* `norm2_eq`, `norm2_sub_plane`: the square of a length.
* `abs_get_lt_of_norm2_lt`, `abs_get_lt_of_norm_lt`: a short vector is short along each axis.
* `norm_lt_iff`, `norm_le_iff`: lengths are compared by their squares.
* `norm_sub_comm`, `norm_sub_le`, `norm_add_le`: distances are those of Euclidean space.
* `norm_neg`, `norm_smul`, `norm_div`, `norm_le_norm`: lengths of multiples, and lengths compared axis by
  axis.
* `total`, `total_modify_add`: **sums of vectors**, and what becomes of one if a vector changes.
* `cross`: vector products.
-/

namespace SmoothedParticles.Vec3

variable {α : Type} [Scalar α]

@[simp] theorem get_add (v w : Vec3 α) (a : Axis) : (v + w).get a = v.get a + w.get a :=
  get_zipWith _ v w a

@[simp] theorem get_sub (v w : Vec3 α) (a : Axis) : (v - w).get a = v.get a - w.get a :=
  get_zipWith _ v w a

@[simp] theorem get_neg (v : Vec3 α) (a : Axis) : (-v).get a = -v.get a :=
  get_map _ v a

@[simp] theorem get_smul (s : α) (v : Vec3 α) (a : Axis) : (s * v).get a = v.get a * s :=
  get_map _ v a

@[simp] theorem get_div (v : Vec3 α) (s : α) (a : Axis) : (v / s).get a = v.get a / s :=
  get_map _ v a

@[simp] theorem get_zero (a : Axis) : (zero : Vec3 ℝ).get a = 0 := by
  cases a <;> exact Scalar.zero_eq

variable {v w : Vec3 ℝ} {c : ℝ}

theorem dot_eq (v w : Vec3 ℝ) :
    v.dot w = v.get .x * w.get .x + v.get .y * w.get .y + v.get .z * w.get .z :=
  rfl

theorem norm2_eq (v : Vec3 ℝ) : v.norm2 = v.get .x ^ 2 + v.get .y ^ 2 + v.get .z ^ 2 := by
  simp only [norm2, dot, get]
  ring

/-- The square of a distance in the plane. -/
theorem norm2_sub_plane (x y x' y' : ℝ) :
    (⟨x, y, 0⟩ - ⟨x', y', 0⟩ : Vec3 ℝ).norm2 = (x - x') ^ 2 + (y - y') ^ 2 := by
  rw [norm2_eq, get_sub, get_sub, get_sub]
  simp only [get]
  rw [sub_self, zero_pow two_ne_zero, add_zero]

@[simp] theorem norm2_zero : (zero : Vec3 ℝ).norm2 = 0 := by
  simp [norm2_eq]

@[simp] theorem norm_zero : (zero : Vec3 ℝ).norm = 0 := by
  simp [norm]

theorem sq_get_le_norm2 (v : Vec3 ℝ) (a : Axis) : v.get a ^ 2 ≤ v.norm2 := by
  rw [norm2_eq]
  cases a <;> nlinarith [sq_nonneg (v.get .x), sq_nonneg (v.get .y), sq_nonneg (v.get .z)]

/-- **A vector shorter than `c` is shorter than `c` along each axis.** -/
theorem abs_get_lt_of_norm2_lt (hc : 0 < c) (h : v.norm2 < c * c) (a : Axis) : |v.get a| < c := by
  apply abs_lt_of_sq_lt_sq _ hc.le
  calc v.get a ^ 2 ≤ v.norm2 := sq_get_le_norm2 v a
    _ < c * c := h
    _ = c ^ 2 := by ring

/-- Lengths are compared by their squares. -/
theorem norm_lt_iff (hc : 0 < c) : v.norm < c ↔ v.norm2 < c * c := by
  rw [norm, Scalar.sqrt_eq, Real.sqrt_lt' hc, sq]

theorem abs_get_lt_of_norm_lt (hc : 0 < c) (h : v.norm < c) (a : Axis) : |v.get a| < c :=
  abs_get_lt_of_norm2_lt hc ((norm_lt_iff hc).1 h) a

theorem norm_le_iff (hc : 0 ≤ c) : v.norm ≤ c ↔ v.norm2 ≤ c * c := by
  rw [norm, Scalar.sqrt_eq, Real.sqrt_le_left hc, sq]

/-- Only the zero vector has length zero. -/
theorem norm_le_zero_iff : v.norm ≤ 0 ↔ ∀ a, v.get a = 0 := by
  rw [norm_le_iff le_rfl, mul_zero]
  constructor
  · intro h a
    exact pow_eq_zero_iff two_ne_zero |>.1 (le_antisymm ((sq_get_le_norm2 v a).trans h) (sq_nonneg _))
  · intro h
    rw [norm2_eq, h, h, h]
    norm_num

theorem norm_pos (h : v ≠ zero) : 0 < v.norm := by
  refine lt_of_not_ge fun hle => h (ext_get fun a => ?_)
  rw [norm_le_zero_iff.1 hle a, get_zero]

theorem norm_smul (c : ℝ) (v : Vec3 ℝ) : (c * v).norm = |c| * v.norm := by
  have hsquare : (c * v).norm2 = c ^ 2 * v.norm2 := by
    simp only [norm2_eq, get_smul]
    ring
  rw [norm, hsquare, Scalar.sqrt_eq, Real.sqrt_mul (sq_nonneg c), Real.sqrt_sq_eq_abs]
  rfl

/-- The vector as a point of Euclidean space. -/
noncomputable def toEuclidean (v : Vec3 ℝ) : EuclideanSpace ℝ (Fin 3) :=
  WithLp.toLp _ ![v.get .x, v.get .y, v.get .z]

theorem norm_sub_eq_dist (v w : Vec3 ℝ) : (v - w).norm = dist v.toEuclidean w.toEuclidean := by
  rw [norm, norm2_eq, Scalar.sqrt_eq, EuclideanSpace.dist_eq, Fin.sum_univ_three]
  simp [toEuclidean, Real.dist_eq]

theorem norm_sub_comm (v w : Vec3 ℝ) : (v - w).norm = (w - v).norm := by
  rw [norm_sub_eq_dist, norm_sub_eq_dist, dist_comm]

/-- **How far two points are apart** if both of them move. -/
theorem norm_sub_le (v w v' w' : Vec3 ℝ) :
    (w - v).norm ≤ (w' - v').norm + (v' - v).norm + (w' - w).norm := by
  simp only [norm_sub_eq_dist]
  have h := dist_triangle4 w.toEuclidean w'.toEuclidean v'.toEuclidean v.toEuclidean
  rw [dist_comm w.toEuclidean w'.toEuclidean] at h
  linarith

@[simp] theorem norm_neg (v : Vec3 ℝ) : (-v).norm = v.norm := by
  simp only [norm, norm2_eq, get_neg, neg_sq]

theorem norm_nonneg (v : Vec3 ℝ) : 0 ≤ v.norm :=
  Real.sqrt_nonneg _

theorem norm_div (hc : 0 < c) : (v / c).norm = v.norm / c := by
  have hsquare : (v / c).norm2 = v.norm2 / c ^ 2 := by
    simp only [norm2_eq, get_div]
    ring
  rw [norm, hsquare, Scalar.sqrt_eq, Real.sqrt_div' _ (sq_nonneg c), Real.sqrt_sq hc.le]
  rfl

theorem norm_add_le (v w : Vec3 ℝ) : (v + w).norm ≤ v.norm + w.norm := by
  have hzero : ∀ u : Vec3 ℝ, u - zero = u := fun u => ext_get fun a => by
    rw [get_sub, get_zero, sub_zero]
  have hback : v - (v + w) = -w := ext_get fun a => by
    rw [get_sub, get_add, get_neg]
    ring
  have h := norm_sub_le zero (v + w) zero v
  rw [hzero, hzero, hzero, hback, norm_neg, norm_zero] at h
  linarith

/-- **A vector that is no longer along any axis** is no longer. -/
theorem norm_le_norm (h : ∀ a, |v.get a| ≤ |w.get a|) : v.norm ≤ w.norm := by
  rw [norm, norm, Scalar.sqrt_eq, Scalar.sqrt_eq, norm2_eq, norm2_eq]
  have hsq := fun a => sq_le_sq.2 (h a)
  exact Real.sqrt_le_sqrt (add_le_add (add_le_add (hsq .x) (hsq .y)) (hsq .z))

/-- The sum of some vectors. -/
noncomputable def total (vs : Array (Vec3 ℝ)) : Vec3 ℝ :=
  ofFn fun a => (vs.toList.map fun v => v.get a).sum

theorem get_total (vs : Array (Vec3 ℝ)) (a : Axis) :
    (total vs).get a = (vs.toList.map fun v => v.get a).sum :=
  get_ofFn _ a

theorem total_concat (vs : List (Vec3 ℝ)) (v : Vec3 ℝ) :
    total (vs ++ [v]).toArray = total vs.toArray + v :=
  ext_get fun a => by
    rw [get_add, get_total, get_total, List.map_append, List.sum_append, List.map_singleton,
      List.sum_singleton]

/-- A sum does not depend on the order. -/
theorem total_perm {vs ws : List (Vec3 ℝ)} (h : vs.Perm ws) : total vs.toArray = total ws.toArray :=
  ext_get fun a => by rw [get_total, get_total, (h.map fun v => v.get a).sum_eq]

theorem total_replicate_zero (n : ℕ) : total (.replicate n zero) = zero := by
  refine ext_get fun a => ?_
  rw [get_total, Array.toList_replicate, List.map_replicate, List.sum_replicate, get_zero, smul_zero]

theorem total_map_neg {β : Type} (g : β → Vec3 ℝ) (l : List β) :
    total (l.map fun b => -g b).toArray = -total (l.map g).toArray := by
  refine ext_get fun a => ?_
  rw [get_neg, get_total, get_total, List.sum_neg]
  simp only [List.map_map, Function.comp_def, get_neg]

/-- **What is added to one of some vectors** is added to their sum. -/
theorem total_modify_add {vs : Array (Vec3 ℝ)} {i : ℕ} (hi : i < vs.size) (v : Vec3 ℝ) :
    total (vs.modify i (· + v)) = total vs + v := by
  refine ext_get fun a => ?_
  have hlength : i < vs.toList.length := hi
  have hsplit : vs.toList = vs.toList.take i ++ vs.toList[i] :: vs.toList.drop (i + 1) := by
    rw [← List.drop_eq_getElem_cons, List.take_append_drop]
  rw [get_add, get_total, get_total, Array.toList_modify, List.modify_eq_take_cons_drop hlength]
  conv_rhs => rw [hsplit]
  simp only [List.map_append, List.map_cons, List.sum_append, List.sum_cons, get_add]
  ring

/-- The vector product. -/
noncomputable def cross (v w : Vec3 ℝ) : Vec3 ℝ :=
  ⟨v.y * w.z - v.z * w.y, v.z * w.x - v.x * w.z, v.x * w.y - v.y * w.x⟩

/-- Along an axis, a vector product is made of the components along the other two. -/
theorem exists_get_cross (a : Axis) :
    ∃ b c, ∀ v w : Vec3 ℝ, (cross v w).get a = v.get b * w.get c - v.get c * w.get b := by
  cases a with
  | x => exact ⟨.y, .z, fun _ _ => rfl⟩
  | y => exact ⟨.z, .x, fun _ _ => rfl⟩
  | z => exact ⟨.x, .y, fun _ _ => rfl⟩

end SmoothedParticles.Vec3
