import SmoothedParticles.Proofs.Smoothing.Derivatives

/-!
# Weights integrate to one

The weight of a kernel at a distance is its normalization times the shape of its kind at the distance in
units of the support, up to a power of the support. So its integral over the plane or over space is a moment
of the shape, and the shapes of the polynomial kinds are polynomials, or two of them for the cubic spline.

* `integral_pow_mul_sum`: the moments of a polynomial between two points.
* `KernelKind.shape`, `Kernel.value_eq_shape`: the shape of a kind, and the weight as a multiple of it.
* `KernelKind.moment_eq_sum`, `KernelKind.moment_cubicSpline`: **the moments of the shapes**, of any order.
* `Kernel.integral_pow_mul_value`: the moments of a weight, for any support.
* `Kernel.integral_over_space`: **the normalizations are right**, in the plane and in space.
-/

namespace SmoothedParticles

/-- **The moments of a polynomial** between two points. -/
theorem integral_pow_mul_sum {m : ℕ} (n : ℕ) (c : Fin m → ℝ) (a b : ℝ) :
    ∫ q in a..b, q ^ n * ∑ i, c i * q ^ (i : ℕ) =
      ∑ i, c i * ((b ^ (n + i + 1 : ℕ) - a ^ (n + i + 1 : ℕ)) / (n + (i : ℕ) + 1)) := by
  have hterm : ∀ q : ℝ, q ^ n * ∑ i, c i * q ^ (i : ℕ) = ∑ i, c i * q ^ (n + i : ℕ) := by
    intro q
    rw [Finset.mul_sum]
    refine Finset.sum_congr rfl fun i _ => ?_
    rw [pow_add]
    ring
  simp only [hterm]
  rw [intervalIntegral.integral_finsetSum fun i _ => (by fun_prop : Continuous _).intervalIntegrable a b]
  refine Finset.sum_congr rfl fun i _ => ?_
  rw [intervalIntegral.integral_const_mul, integral_pow]
  push_cast
  rfl

namespace KernelKind

/-- The shape of a kernel, as a function of the distance in units of the support. -/
noncomputable def shape : KernelKind → ℝ → ℝ
  | lucy, q => (1 + 3 * q) * (1 - q) ^ 3
  | poly6, q => (1 - q * q) ^ 3
  | cubicSpline, q => if q ≤ 1 / 2 then 6 * (q * q * q - q * q) + 1 else 2 * (1 - q) ^ 3
  | spiky, q => (1 - q) ^ 3
  | gaussian, q => Real.exp (-9 * q * q) - Kernel.expMinusNine

/-- The power of the support by which the formula of a kind is larger than its shape. -/
def degree : KernelKind → ℕ
  | poly6 => 6
  | spiky => 3
  | _ => 0

/-- The moments of a shape, within the support. -/
noncomputable def moment (kind : KernelKind) (n : ℕ) : ℝ := ∫ q in (0)..1, q ^ n * kind.shape q

/-- The coefficients of the shapes that are given by one polynomial. -/
noncomputable def coefficients : KernelKind → Fin 7 → ℝ
  | lucy => ![1, 0, -6, 8, -3, 0, 0]
  | poly6 => ![1, 0, -3, 0, 3, 0, -1]
  | spiky => ![1, -3, 3, -1, 0, 0, 0]
  | _ => 0

theorem shape_eq_sum {kind : KernelKind} (hspline : kind ≠ cubicSpline) (hgaussian : kind ≠ gaussian)
    (q : ℝ) : kind.shape q = ∑ i, kind.coefficients i * q ^ (i : ℕ) := by
  cases kind
  case cubicSpline => exact absurd rfl hspline
  case gaussian => exact absurd rfl hgaussian
  all_goals
    simp [shape, coefficients, Fin.sum_univ_succ]
    ring

/-- **The moments of the shapes** that are given by one polynomial. -/
theorem moment_eq_sum {kind : KernelKind} (hspline : kind ≠ cubicSpline) (hgaussian : kind ≠ gaussian)
    (n : ℕ) : kind.moment n = ∑ i : Fin 7, kind.coefficients i / (n + (i : ℕ) + 1) := by
  simp only [moment, shape_eq_sum hspline hgaussian]
  rw [integral_pow_mul_sum]
  refine Finset.sum_congr rfl fun i _ => ?_
  rw [one_pow, zero_pow (Nat.succ_ne_zero _), sub_zero, mul_one_div]

/-- **The cubic spline is made of two spikes**: twice that of the support, less that of half of the support. -/
theorem shape_cubicSpline (q : ℝ) : cubicSpline.shape q =
    2 * spiky.shape q - {q | q ≤ 1 / 2}.indicator (fun q => spiky.shape (2 * q)) q := by
  simp only [shape, Set.indicator_apply, Set.mem_ofPred_eq]
  split_ifs <;> ring

theorem moment_cubicSpline (n : ℕ) :
    cubicSpline.moment n = (2 - (1 / 2) ^ (n + 1)) * spiky.moment n := by
  have hterm : ∀ q : ℝ, q ^ n * cubicSpline.shape q = 2 * (q ^ n * spiky.shape q) -
      {q | q ≤ 1 / 2}.indicator (fun q => (1 / 2) ^ n * ((2 * q) ^ n * spiky.shape (2 * q))) q := by
    intro q
    have hpow : (1 / 2) ^ n * ((2 * q) ^ n * spiky.shape (2 * q)) = q ^ n * spiky.shape (2 * q) := by
      rw [← mul_assoc, ← mul_pow]
      ring
    rw [shape_cubicSpline, Set.indicator_apply, Set.indicator_apply, hpow]
    split_ifs <;> ring
  have hspike : Continuous fun q : ℝ => 2 * (q ^ n * spiky.shape q) := by
    unfold shape
    fun_prop
  have hhalf : Continuous fun q : ℝ => (1 / 2) ^ n * ((2 * q) ^ n * spiky.shape (2 * q)) := by
    unfold shape
    fun_prop
  have hcut : IntervalIntegrable ({q | q ≤ 1 / 2}.indicator
      fun q : ℝ => (1 / 2) ^ n * ((2 * q) ^ n * spiky.shape (2 * q))) MeasureTheory.volume 0 1 :=
    intervalIntegrable_iff.2
      ((intervalIntegrable_iff.1 (hhalf.intervalIntegrable 0 1)).indicator measurableSet_Iic)
  calc cubicSpline.moment n
      = 2 * spiky.moment n -
          ∫ q in (0)..1 / 2, (1 / 2) ^ n * ((2 * q) ^ n * spiky.shape (2 * q)) := by
        simp only [moment, hterm]
        rw [intervalIntegral.integral_sub (hspike.intervalIntegrable 0 1) hcut,
          intervalIntegral.integral_const_mul,
          intervalIntegral.integral_indicator ⟨by norm_num, by norm_num⟩]
    _ = 2 * spiky.moment n - (1 / 2) ^ n * (2⁻¹ * spiky.moment n) := by
        rw [intervalIntegral.integral_const_mul,
          intervalIntegral.integral_comp_mul_left (fun q => q ^ n * spiky.shape q) two_ne_zero, mul_zero,
          mul_one_div_cancel two_ne_zero, smul_eq_mul, moment]
    _ = (2 - (1 / 2) ^ (n + 1)) * spiky.moment n := by ring

end KernelKind

/-- The area of the sphere with radius one. -/
noncomputable def Dimension.sphereArea : Dimension → ℝ
  | two => 2 * Real.pi
  | three => 4 * Real.pi

namespace Kernel

variable {k : Kernel ℝ} {r : ℝ}

/-- **The weight as a multiple of the shape** of its kind, up to the support. -/
theorem value_eq_shape (hkind : k.kind ≠ .gaussian) (hr : r ≤ k.h) :
    k.value r = k.alpha * k.h ^ k.kind.degree * k.kind.shape (r / k.h) := by
  have hh := k.support_pos.ne'
  rcases hr.eq_or_lt with rfl | hlt
  · -- nothing is left at the support
    rw [value_of_le le_rfl, div_self hh]
    cases hk : k.kind <;> simp only [KernelKind.shape]
    case gaussian => exact absurd hk hkind
    all_goals norm_num
  · rw [value, if_neg (not_le.2 hlt)]
    cases hk : k.kind <;> simp only [KernelKind.shape, KernelKind.degree, Scalar.power_eq, Scalar.one_eq,
      pow_zero, mul_one, mul_assoc]
    case poly6 =>
      field_simp
    case cubicSpline =>
      have hhalf : (0.5 : ℝ) = 1 / 2 := by norm_num
      rw [mul_ite, ← hhalf]
    case spiky =>
      field_simp
    case gaussian => exact absurd hk hkind

/-- **The moments of a weight**, for any support. -/
theorem integral_pow_mul_value (hkind : k.kind ≠ .gaussian) (n : ℕ) :
    ∫ r in (0)..k.h, r ^ n * k.value r =
      k.alpha * k.h ^ k.kind.degree * k.h ^ (n + 1) * k.kind.moment n := by
  have hh := k.support_pos
  have hscaled : ∀ r ∈ Set.uIcc 0 k.h, r ^ n * k.value r =
      k.alpha * k.h ^ k.kind.degree * k.h ^ n * ((r / k.h) ^ n * k.kind.shape (r / k.h)) := by
    intro r hr
    rw [Set.uIcc_of_le hh.le] at hr
    rw [value_eq_shape hkind hr.2, div_pow]
    field_simp
  rw [intervalIntegral.integral_congr hscaled, intervalIntegral.integral_const_mul,
    intervalIntegral.integral_comp_div (fun q => q ^ n * k.kind.shape q) hh.ne', zero_div,
    div_self hh.ne', smul_eq_mul, KernelKind.moment]
  ring

/-- **The normalizations are right**: each one makes up for the moment of its shape. -/
theorem alpha_mul_moment (hkind : k.kind ≠ .gaussian) :
    k.dimension.sphereArea * (k.alpha * k.h ^ k.kind.degree * k.h ^ k.dimension.toNat *
      k.kind.moment (k.dimension.toNat - 1)) = 1 := by
  have hh := k.support_pos.ne'
  have hpi := Real.pi_ne_zero
  obtain ⟨kind, h, d, _⟩ := k
  cases kind
  case gaussian => exact absurd rfl hkind
  all_goals
    cases d <;>
      simp only [alpha, Scalar.pi_eq, Scalar.power_eq, KernelKind.degree, Dimension.toNat,
        Dimension.sphereArea, KernelKind.moment_cubicSpline, ne_eq, reduceCtorEq, not_false_eq_true,
        KernelKind.moment_eq_sum, KernelKind.coefficients] <;>
      field_simp <;> norm_num [Fin.sum_univ_succ]

/-- The integral over the circles or spheres around the center. -/
theorem integral_spheres (hkind : k.kind ≠ .gaussian) :
    ∫ r in (0)..k.h, k.dimension.sphereArea * (r ^ (k.dimension.toNat - 1) * k.value r) = 1 := by
  have hd : k.dimension.toNat - 1 + 1 = k.dimension.toNat := by cases k.dimension <;> rfl
  rw [intervalIntegral.integral_const_mul, integral_pow_mul_value hkind, hd]
  exact alpha_mul_moment hkind

/-- **Each polynomial kernel integrates to one**, over the plane and over space, with any smoothing length. There
is no weight beyond the support, so the integral over the circles or spheres up to it is that over all of them. -/
theorem integral_over_space {kind : KernelKind} (hkind : kind ≠ .gaussian) {h : ℝ} (hh : 0 < h) :
    (∃ k, make kind h 2 = .ok k ∧ k.kind = kind ∧ k.h = h ∧
      ∫ r in (0)..h, 2 * Real.pi * r * k.value r = 1) ∧
    ∃ k, make kind h 3 = .ok k ∧ k.kind = kind ∧ k.h = h ∧
      ∫ r in (0)..h, 4 * Real.pi * r ^ 2 * k.value r = 1 := by
  have hmake : ∀ d : Dimension, ∃ k, make kind h d.toNat = .ok k ∧ k.kind = kind ∧ k.h = h ∧
      k.dimension = d := by
    intro d
    refine ⟨⟨kind, h, d, Scalar.zero_eq.trans_lt hh⟩, ?_, rfl, rfl, rfl⟩
    rw [make, dif_pos (Scalar.isPositive_iff.2 hh), Dimension.ofNat?_toNat]
  constructor
  · obtain ⟨k, hk, rfl, rfl, hd⟩ := hmake .two
    have hone := integral_spheres hkind
    rw [hd] at hone
    refine ⟨k, hk, rfl, rfl, Eq.trans (intervalIntegral.integral_congr fun r _ => ?_) hone⟩
    simp only [Dimension.sphereArea, Dimension.toNat]
    ring
  · obtain ⟨k, hk, rfl, rfl, hd⟩ := hmake .three
    have hone := integral_spheres hkind
    rw [hd] at hone
    refine ⟨k, hk, rfl, rfl, Eq.trans (intervalIntegral.integral_congr fun r _ => ?_) hone⟩
    simp only [Dimension.sphereArea, Dimension.toNat]
    ring

/-- The cubic spline with the smoothing length 3/2, in the plane and in space. -/
theorem integral_over_space_spline :
    KernelKind.cubicSpline ≠ .gaussian ∧ (0 : ℝ) < 3 / 2 ∧
      (∃ k, make .cubicSpline (3 / 2 : ℝ) 2 = .ok k ∧
        ∫ r in (0)..3 / 2, 2 * Real.pi * r * k.value r = 1) ∧
      ∃ k, make .cubicSpline (3 / 2 : ℝ) 3 = .ok k ∧
        ∫ r in (0)..3 / 2, 4 * Real.pi * r ^ 2 * k.value r = 1 := by
  have hkind : KernelKind.cubicSpline ≠ .gaussian := nofun
  have hh : (0 : ℝ) < 3 / 2 := by norm_num
  obtain ⟨⟨k, hk, -, -, hplane⟩, k', hk', -, -, hspace⟩ := integral_over_space hkind hh
  exact ⟨hkind, hh, ⟨k, hk, hplane⟩, k', hk', hspace⟩

end Kernel

end SmoothedParticles
