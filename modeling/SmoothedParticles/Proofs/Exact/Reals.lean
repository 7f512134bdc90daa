import Mathlib
import SmoothedParticles.Number.Scalar

/-!
# Exact arithmetic

The algorithms are written over a `Scalar`. Their properties are stated over the real numbers, where
every operation is exact and counts and indexes are unbounded.

* `instScalarReal`: the real numbers as a scalar.
* `ofInt_eq`, `index_intCast`, `count_natCast`: whole numbers keep their value.
* `abs_sub_nearestWhole_le`: the nearest whole number is at most a half away.
-/

namespace SmoothedParticles

/-- A number without its fractional part. -/
noncomputable def wholePart (x : ℝ) : ℤ := if 0 ≤ x then ⌊x⌋ else ⌈x⌉

/-- The nearest whole number, a half going away from zero. -/
noncomputable def nearestWhole (x : ℝ) : ℤ := if 0 ≤ x then ⌊x + 1 / 2⌋ else ⌈x - 1 / 2⌉

/-- **The real numbers as a scalar**, without infinities or undefined values. -/
noncomputable instance instScalarReal : Scalar ℝ where
  decLt := inferInstance
  decLe := inferInstance
  ofNat n := n
  toInt := wholePart
  isFinite _ := true
  identical x y := decide (x = y)
  maxNum := max
  minNum := min
  floor x := ⌊x⌋
  ceil x := ⌈x⌉
  trunc x := wholePart x
  round x := nearestWhole x
  remainder x y := x - wholePart (x / y) * y
  sqrt := Real.sqrt
  cbrt x := SignType.sign x * |x| ^ (1 / 3 : ℝ)
  exp := Real.exp
  rpow x y := x ^ y
  pi := Real.pi
  wordBits := none

@[simp] theorem wholePart_intCast (n : ℤ) : wholePart (n : ℝ) = n := by
  unfold wholePart
  split_ifs
  · exact Int.floor_intCast n
  · exact Int.ceil_intCast n

/-- **The nearest whole number is at most a half away.** -/
theorem abs_sub_nearestWhole_le (x : ℝ) : |x - nearestWhole x| ≤ 1 / 2 := by
  unfold nearestWhole
  split_ifs
  · have h1 := Int.floor_le (x + 1 / 2)
    have h2 := Int.lt_floor_add_one (x + 1 / 2)
    exact abs_le.2 ⟨by linarith, by linarith⟩
  · have h1 := Int.le_ceil (x - 1 / 2)
    have h2 := Int.ceil_lt_add_one (x - 1 / 2)
    exact abs_le.2 ⟨by linarith, by linarith⟩

@[simp] theorem nearestWhole_intCast (n : ℤ) : nearestWhole (n : ℝ) = n := by
  have h := abs_sub_nearestWhole_le (n : ℝ)
  have h1 : |((n - nearestWhole n : ℤ) : ℝ)| < 1 := by
    push_cast
    linarith
  have h2 : |n - nearestWhole (n : ℝ)| < 1 := by exact_mod_cast h1
  rw [Int.abs_lt_one_iff] at h2
  omega

@[simp] theorem nearestWhole_zero : nearestWhole 0 = 0 := by
  exact_mod_cast nearestWhole_intCast 0

/-- A number of absolute value at most one rounds to `-1`, `0` or `1`. -/
theorem abs_nearestWhole_le_one {x : ℝ} (h : |x| ≤ 1) : |nearestWhole x| ≤ 1 := by
  have h1 := abs_le.1 (abs_sub_nearestWhole_le x)
  have h2 := abs_le.1 h
  have h3 : (nearestWhole x : ℝ) < 2 := by linarith
  have h4 : (-2 : ℝ) < nearestWhole x := by linarith
  have h5 : nearestWhole x < 2 := by exact_mod_cast h3
  have h6 : -2 < nearestWhole x := by exact_mod_cast h4
  exact abs_le.2 ⟨by omega, by omega⟩

namespace Scalar

variable {x y : ℝ}

@[simp] theorem zero_eq : @OfNat.ofNat ℝ 0 (Scalar.instOfNat 0) = 0 := Nat.cast_zero

@[simp] theorem one_eq : @OfNat.ofNat ℝ 1 (Scalar.instOfNat 1) = 1 := Nat.cast_one

@[simp] theorem ofNat_eq (n : ℕ) : (Scalar.ofNat n : ℝ) = n := rfl

@[simp] theorem ofInt_eq (n : ℤ) : (Scalar.ofInt n : ℝ) = n := by
  cases n with
  | ofNat n => rfl
  | negSucc n => rw [Int.cast_negSucc]; rfl

@[simp] theorem isFinite_eq : Scalar.isFinite x = true := rfl

@[simp] theorem isPositive_iff : Scalar.IsPositive x ↔ 0 < x := by
  simp [Scalar.IsPositive]

@[simp] theorem identical_iff : Scalar.identical x y = true ↔ x = y := by
  show decide (x = y) = true ↔ x = y
  exact decide_eq_true_iff

@[simp] theorem maxNum_eq : Scalar.maxNum x y = max x y := rfl

@[simp] theorem minNum_eq : Scalar.minNum x y = min x y := rfl

@[simp] theorem sqrt_eq : Scalar.sqrt x = √x := rfl

@[simp] theorem floor_eq : Scalar.floor x = ⌊x⌋ := rfl

@[simp] theorem ceil_eq : Scalar.ceil x = ⌈x⌉ := rfl

@[simp] theorem trunc_eq : Scalar.trunc x = wholePart x := rfl

@[simp] theorem round_eq : Scalar.round x = nearestWhole x := rfl

@[simp] theorem abs_eq : Scalar.abs x = |x| := by
  rw [Scalar.abs, zero_eq]
  split_ifs with h
  · exact (abs_of_neg h).symm
  · exact (abs_of_nonneg (not_lt.1 h)).symm

@[simp] theorem exp_eq : Scalar.exp x = Real.exp x := rfl

@[simp] theorem rpow_eq : Scalar.rpow x y = x ^ y := rfl

@[simp] theorem pi_eq : (Scalar.pi : ℝ) = Real.pi := rfl

theorem powerFrom_eq (r a : ℝ) (n : ℕ) : Scalar.powerFrom r a n = r * a ^ n := by
  -- on the binary digits of `n`, the lowest one first
  induction r, a, n using Scalar.powerFrom.induct with
  | case1 r a =>
    rw [Scalar.powerFrom, dif_pos rfl, pow_zero, mul_one]
  | case2 r a n hn ih =>
    rw [dite_eq_ite] at ih
    rw [Scalar.powerFrom, dif_neg hn, ih, ← sq, ← pow_mul]
    conv_rhs => rw [← Nat.mod_add_div n 2, pow_add]
    rcases Nat.mod_two_eq_zero_or_one n with h | h
    · rw [h, if_neg zero_ne_one, pow_zero, one_mul]
    · rw [h, if_pos rfl, pow_one, mul_assoc]

/-- **Repeated squaring gives powers.** -/
@[simp] theorem power_eq (n : ℕ) : Scalar.power x n = x ^ n := by
  rw [Scalar.power, powerFrom_eq, one_eq, one_mul]

@[simp] theorem indexable_eq (n : ℕ) : Scalar.indexable ℝ n = true := rfl

@[simp] theorem wrap_eq (n : ℕ) : Scalar.wrap ℝ n = n := rfl

@[simp] theorem index_intCast (n : ℤ) : Scalar.index (n : ℝ) = n := wholePart_intCast n

@[simp] theorem count_natCast (n : ℕ) : Scalar.count (n : ℝ) = n := by
  show (wholePart (n : ℝ)).toNat = n
  rw [← Int.cast_natCast, wholePart_intCast, Int.toNat_natCast]

end Scalar

end SmoothedParticles
