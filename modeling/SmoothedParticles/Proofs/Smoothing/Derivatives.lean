import SmoothedParticles.Proofs.Smoothing.Slopes

/-!
# Slopes are derivatives

Weights and slopes of kernels are two tables of formulas. Of the polynomial kinds, each formula of one table
is the derivative of that of the other one, and both are zero at the support, where the formulas end. So they
join with the zero beyond it, and the two pieces of the cubic spline join in the same way. The Gaussian kernel
has a slope at its support, and is left out.

* `hasDerivAt_join`: **two functions that join smoothly**, and the derivative of what they make.
* `Formula`, `exists_formula`: the formulas of a kind inside of the support.
* `Formula.hasDerivAt_value`, `Formula.continuous_derivative`: the same with the zero beyond the support.
* `derivative_of_value`: **the slope is the derivative of the weight**, and the weight its integral.
-/

namespace SmoothedParticles

open Set

/-- **Two functions that join smoothly**: they have the same value and the same slope where one follows
on the other. -/
theorem hasDerivAt_join {f g f' g' : ℝ → ℝ} {a : ℝ} (hf : ∀ r, HasDerivAt f (f' r) r)
    (hg : ∀ r, HasDerivAt g (g' r) r) (hvalue : f a = g a) (hslope : f' a = g' a) (r : ℝ) :
    HasDerivAt (fun r => if r ≤ a then f r else g r) (if r ≤ a then f' r else g' r) r := by
  have hleft : ∀ x ∈ Iic a, (if x ≤ a then f x else g x) = f x := fun x hx => if_pos hx
  have hright : ∀ x ∈ Ici a, (if x ≤ a then f x else g x) = g x := by
    intro x hx
    rcases eq_or_lt_of_le (mem_Ici.1 hx) with rfl | hlt
    · rw [if_pos le_rfl, hvalue]
    · exact if_neg (not_le.2 hlt)
  rcases lt_trichotomy r a with hr | rfl | hr
  · rw [if_pos hr.le]
    exact (hf r).congr_of_eventuallyEq (Filter.eventuallyEq_of_mem (Iic_mem_nhds hr) hleft)
  · -- from both sides, the derivative is that of the piece on this side
    rw [if_pos le_rfl, ← hasDerivWithinAt_univ, ← Iic_union_Ici]
    have hfleft := (hf r).hasDerivWithinAt.congr_of_mem hleft self_mem_Iic
    have hgright := (hg r).hasDerivWithinAt.congr_of_mem hright self_mem_Ici
    rw [← hslope] at hgright
    exact hfleft.union hgright
  · rw [if_neg (not_le.2 hr)]
    exact (hg r).congr_of_eventuallyEq (Filter.eventuallyEq_of_mem (Ici_mem_nhds hr) hright)

namespace Kernel

variable {k : Kernel ℝ} {w w' : ℝ → ℝ} {r : ℝ}

/-- **The formulas of a kind** for the weight and the slope inside of the support. -/
structure Formula (k : Kernel ℝ) (w w' : ℝ → ℝ) : Prop where
  value : ∀ r < k.h, k.value r = w r
  derivative : ∀ r < k.h, k.derivative r = w' r
  hasDerivAt : ∀ r, HasDerivAt w (w' r) r
  continuous : Continuous w'
  value_support : w k.h = 0
  derivative_support : w' k.h = 0

/-- Beyond the support the weight goes on as zero. -/
theorem Formula.value_eq (h : Formula k w w') : k.value = fun r => if r ≤ k.h then w r else 0 := by
  funext r
  rcases lt_trichotomy r k.h with hr | rfl | hr
  · rw [if_pos hr.le, h.value r hr]
  · rw [if_pos le_rfl, value_of_le le_rfl, h.value_support]
  · rw [if_neg (not_le.2 hr), value_of_le hr.le]

/-- Beyond the support the slope goes on as zero. -/
theorem Formula.derivative_eq (h : Formula k w w') :
    k.derivative = fun r => if r ≤ k.h then w' r else 0 := by
  funext r
  rcases lt_trichotomy r k.h with hr | rfl | hr
  · rw [if_pos hr.le, h.derivative r hr]
  · rw [if_pos le_rfl, derivative_of_le le_rfl, h.derivative_support]
  · rw [if_neg (not_le.2 hr), derivative_of_le hr.le]

/-- **The slope is the derivative of the weight**, also at the support. -/
theorem Formula.hasDerivAt_value (h : Formula k w w') (r : ℝ) :
    HasDerivAt k.value (k.derivative r) r := by
  rw [h.value_eq, h.derivative_eq]
  exact hasDerivAt_join h.hasDerivAt (fun r => hasDerivAt_const r 0) h.value_support
    h.derivative_support r

theorem Formula.continuous_derivative (h : Formula k w w') : Continuous k.derivative := by
  rw [h.derivative_eq]
  refine h.continuous.if_le continuous_const continuous_id continuous_const ?_
  rintro r rfl
  exact h.derivative_support

section Pieces

variable (α h r : ℝ)

theorem hasDerivAt_quotient : HasDerivAt (fun r : ℝ => r / h) (1 / h) r :=
  (hasDerivAt_id r).div_const h

theorem hasDerivAt_lucy : HasDerivAt (fun r => α * (1 + 3 * (r / h)) * (1 - r / h) ^ 3)
    (-12 * α * (r / h) * (1 - r / h) ^ 2 / h) r := by
  have hq := hasDerivAt_quotient h r
  refine (((hq.const_mul 3).const_add 1).const_mul α |>.mul ((hq.const_sub 1).pow 3)).congr_deriv ?_
  simp only [Pi.pow_apply]
  push_cast
  ring

theorem hasDerivAt_poly6 : HasDerivAt (fun r => α * (h * h - r * r) ^ 3)
    (-6 * α * r * (h * h - r * r) ^ 2) r := by
  have hsquare := (hasDerivAt_id' r).mul (hasDerivAt_id' r)
  refine (((hsquare.const_sub (h * h)).pow 3).const_mul α).congr_deriv ?_
  simp only [Pi.mul_apply]
  push_cast
  ring

theorem hasDerivAt_spiky : HasDerivAt (fun r => α * (h - r) ^ 3) (-3 * α * (h - r) ^ 2) r := by
  refine ((((hasDerivAt_id' r).const_sub h).pow 3).const_mul α).congr_deriv ?_
  push_cast
  ring

/-- The piece of the cubic spline around the center. -/
theorem hasDerivAt_inner :
    HasDerivAt (fun r => α * (6 * (r / h * (r / h) * (r / h) - r / h * (r / h)) + 1))
      (α * 6 * (3 * (r / h) * (r / h) - 2 * (r / h)) / h) r := by
  have hq := hasDerivAt_quotient h r
  refine (((((hq.mul hq).mul hq).sub (hq.mul hq)).const_mul 6).add_const 1 |>.const_mul α).congr_deriv ?_
  simp only [Pi.mul_apply]
  ring

/-- The piece of the cubic spline at the support. -/
theorem hasDerivAt_outer : HasDerivAt (fun r => α * 2 * (1 - r / h) ^ 3)
    (-6 * α * (1 - r / h) ^ 2 / h) r := by
  refine ((((hasDerivAt_quotient h r).const_sub 1).pow 3).const_mul (α * 2)).congr_deriv ?_
  push_cast
  ring

end Pieces

/-- The two pieces of the cubic spline meet at half of the support. -/
theorem quotient_le_half_iff (k : Kernel ℝ) : r / k.h ≤ 0.5 ↔ r ≤ k.h / 2 := by
  rw [div_le_iff₀ k.support_pos, show (0.5 : ℝ) * k.h = k.h / 2 by ring]

/-- **Each polynomial kind has formulas** that end smoothly at the support. -/
theorem exists_formula (hkind : k.kind ≠ .gaussian) : ∃ w w', Formula k w w' := by
  have hh := k.support_pos.ne'
  have hend : k.h / k.h = 1 := div_self hh
  have hvalue : ∀ r < k.h, k.value r = _ := fun r hr => if_neg (not_le.2 hr)
  have hderivative : ∀ r < k.h, k.derivative r = _ := fun r hr => if_neg (not_le.2 hr)
  cases hk : k.kind <;> simp only [hk, Scalar.power_eq, Scalar.one_eq] at hvalue hderivative
  case lucy =>
    refine ⟨_, _, hvalue, hderivative, hasDerivAt_lucy k.alpha k.h, by fun_prop, ?_, ?_⟩
    · simp only [hend]
      ring
    · simp only [hend]
      ring
  case poly6 =>
    refine ⟨_, _, hvalue, hderivative, hasDerivAt_poly6 k.alpha k.h, by fun_prop, ?_, ?_⟩
    · ring
    · ring
  case cubicSpline =>
    simp only [quotient_le_half_iff] at hvalue hderivative
    have hhalf : k.h / 2 / k.h = 1 / 2 := by field_simp
    have hlast : ¬k.h ≤ k.h / 2 := not_le.2 (half_lt_self k.support_pos)
    refine ⟨_, _, hvalue, hderivative, ?_, ?_, ?_, ?_⟩
    · refine hasDerivAt_join (hasDerivAt_inner k.alpha k.h) (hasDerivAt_outer k.alpha k.h) ?_ ?_
      · rw [hhalf]
        ring
      · rw [hhalf]
        ring
    · refine Continuous.if_le (by fun_prop) (by fun_prop) continuous_id continuous_const ?_
      rintro r rfl
      simp only [hhalf]
      ring
    · simp only [if_neg hlast, hend]
      ring
    · simp only [if_neg hlast, hend]
      ring
  case spiky =>
    refine ⟨_, _, hvalue, hderivative, hasDerivAt_spiky k.alpha k.h, by fun_prop, ?_, ?_⟩
    · ring
    · ring
  case gaussian => exact absurd hk hkind

/-- **The slope is the derivative of the weight**, for the polynomial kinds of kernels: everywhere, also where
the pieces of the cubic spline join and where the weight ends. So the weight is continuous, and it changes by
the integral of the slope. -/
theorem derivative_of_value (k : Kernel ℝ) (hkind : k.kind ≠ .gaussian) :
    (∀ r, HasDerivAt k.value (k.derivative r) r) ∧ ContinuousAt k.value k.h ∧
      ∀ r s, IntervalIntegrable k.derivative MeasureTheory.volume r s ∧
        ∫ x in r..s, k.derivative x = k.value s - k.value r := by
  obtain ⟨w, w', h⟩ := exists_formula hkind
  refine ⟨h.hasDerivAt_value, (h.hasDerivAt_value k.h).continuousAt, fun r s => ?_⟩
  have hint := h.continuous_derivative.intervalIntegrable (μ := MeasureTheory.volume) r s
  exact ⟨hint, intervalIntegral.integral_eq_sub_of_hasDerivAt (fun x _ => h.hasDerivAt_value x) hint⟩

/-- The cubic spline with the support two, where its pieces join, and over all of its support. -/
theorem derivative_of_value_joint :
    let k : Kernel ℝ := ⟨.cubicSpline, 2, .three, Scalar.zero_eq.trans_lt two_pos⟩
    k.kind ≠ .gaussian ∧ HasDerivAt k.value (-3 / (4 * Real.pi)) 1 ∧
      ∫ x in (0)..2, k.derivative x = -1 / Real.pi := by
  intro k
  have hkind : k.kind ≠ .gaussian := nofun
  obtain ⟨hderiv, -, hintegral⟩ := derivative_of_value k hkind
  have halpha : k.alpha = 1 / Real.pi := by
    show 8 / (Real.pi * Scalar.power 2 3) = 1 / Real.pi
    rw [Scalar.power_eq]
    field_simp
    norm_num
  have hslope : k.derivative 1 = -3 / (4 * Real.pi) := by
    rw [derivative, if_neg (not_le.2 one_lt_two)]
    show (if 1 / 2 ≤ (0.5 : ℝ) then k.alpha * 6 * (3 * (1 / 2) * (1 / 2) - 2 * (1 / 2)) / 2 else _) = _
    rw [if_pos (by norm_num), halpha]
    ring
  have hcenter : k.value 0 = 1 / Real.pi := by
    rw [value, if_neg (not_le.2 two_pos), Scalar.one_eq]
    show (if 0 / 2 ≤ (0.5 : ℝ) then k.alpha * (6 * (0 / 2 * (0 / 2) * (0 / 2) - 0 / 2 * (0 / 2)) + 1)
      else _) = _
    rw [if_pos (by norm_num), halpha]
    ring
  refine ⟨hkind, ?_, ?_⟩
  · rw [← hslope]
    exact hderiv 1
  · rw [(hintegral 0 2).2, hcenter, value_of_le le_rfl]
    ring

end Kernel

end SmoothedParticles
