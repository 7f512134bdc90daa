import SmoothedParticles.Proofs.Exact.Vectors
import SmoothedParticles.Proofs.Smoothing.Derivatives

/-!
# Weights fall off to nothing

The weight of a polynomial kernel is positive up to its support and zero beyond it. On the way it falls all
the time, since its slope is negative between the center and the support, so its gradient points towards the
center.

* `derivative_nonpos_of_nonneg`: the slope is not positive at the center either.
* `strictAntiOn_value`: **the weight falls all the time** up to the support.
* `gradient_zero`, `gradient_of_ne_zero`: the gradient at the center, and elsewhere.
* `weights_fall_off`: **what falls off how**, for all polynomial kinds.
-/

namespace SmoothedParticles.Kernel

open Set

variable {k : Kernel ℝ} {r : ℝ} {v : Vec3 ℝ}

/-- **The slope is never positive**, at the center by continuity. -/
theorem derivative_nonpos_of_nonneg (hkind : k.kind ≠ .gaussian) (hr : 0 ≤ r) : k.derivative r ≤ 0 := by
  obtain ⟨w, w', h⟩ := exists_formula hkind
  have hclosed : IsClosed {r | k.derivative r ≤ 0} := isClosed_le h.continuous_derivative continuous_const
  have hafter : Ioi 0 ⊆ {r | k.derivative r ≤ 0} := fun r hr => derivative_nonpos hr
  have hfrom : Ici 0 ⊆ {r | k.derivative r ≤ 0} := by
    rw [← closure_Ioi]
    exact hclosed.closure_subset_iff.2 hafter
  exact hfrom hr

/-- **The weight falls all the time** up to the support. -/
theorem strictAntiOn_value (hkind : k.kind ≠ .gaussian) : StrictAntiOn k.value (Icc 0 k.h) := by
  obtain ⟨w, w', h⟩ := exists_formula hkind
  have hcontinuous : ContinuousOn k.value (Icc 0 k.h) := fun r _ =>
    (h.hasDerivAt_value r).continuousAt.continuousWithinAt
  refine strictAntiOn_of_deriv_neg (convex_Icc 0 k.h) hcontinuous fun r hr => ?_
  rw [interior_Icc] at hr
  rw [(h.hasDerivAt_value r).deriv]
  exact derivative_neg hr.1 hr.2

theorem gradient_zero (k : Kernel ℝ) : k.gradient .zero = .zero := by
  rw [gradient, Vec3.norm_zero, Scalar.zero_eq]
  exact if_pos (beq_self_eq_true 0)

theorem gradient_of_ne_zero (hv : v.norm ≠ 0) : k.gradient v = (k.derivative v.norm / v.norm) * v := by
  rw [gradient, Scalar.zero_eq]
  exact if_neg fun h => hv (eq_of_beq h)

/-- **What falls off how**: the weight of a polynomial kernel is positive up to the support and falls all the
time, the weight and its slope are zero beyond the support, and the slope is never positive. The gradient is
zero at the center; elsewhere it is as long as the slope is steep, and points to the center as long as the
slope is not zero. -/
theorem weights_fall_off (k : Kernel ℝ) (hkind : k.kind ≠ .gaussian) :
    (∀ r, 0 ≤ r → r < k.h → 0 < k.value r) ∧
    (∀ r, k.h ≤ r → k.value r = 0 ∧ k.derivative r = 0) ∧
    StrictAntiOn k.value (Icc 0 k.h) ∧
    (∀ r, 0 ≤ r → k.derivative r ≤ 0) ∧
    k.gradient .zero = .zero ∧
    ∀ v, v ≠ .zero → (k.gradient v).norm = |k.derivative v.norm| ∧
      ∃ c : ℝ, k.gradient v = c * v ∧ c ≤ 0 ∧ (c < 0 ↔ v.norm < k.h) := by
  refine ⟨fun r hr hrh => value_pos hkind hr hrh, fun r hr => ⟨value_of_le hr, derivative_of_le hr⟩,
    strictAntiOn_value hkind, fun r hr => derivative_nonpos_of_nonneg hkind hr, gradient_zero k,
    fun v hv => ?_⟩
  have hpos : 0 < v.norm := Vec3.norm_pos hv
  rw [gradient_of_ne_zero hpos.ne']
  refine ⟨?_, _, rfl, ?_, ?_⟩
  · rw [Vec3.norm_smul, abs_div, abs_of_pos hpos, div_mul_cancel₀ _ hpos.ne']
  · exact div_nonpos_of_nonpos_of_nonneg (derivative_nonpos hpos) hpos.le
  · constructor
    · intro hc
      by_contra hbeyond
      rw [derivative_of_le (not_lt.1 hbeyond), zero_div] at hc
      exact lt_irrefl 0 hc
    · intro hwithin
      exact div_neg_of_neg_of_pos (derivative_neg hpos hwithin) hpos

/-- The cubic spline with the support two falls from its center through the joint of its pieces to the support,
and its gradient at a point of the plane points to the center. -/
theorem weights_fall_off_spline :
    let k : Kernel ℝ := ⟨.cubicSpline, 2, .two, Scalar.zero_eq.trans_lt two_pos⟩
    k.kind ≠ .gaussian ∧ k.value 1 < k.value 0 ∧ k.value 2 < k.value 1 ∧ 0 < k.value 1 ∧ k.value 2 = 0 ∧
      ∃ c : ℝ, c < 0 ∧ k.gradient ⟨1, 0, 0⟩ = c * (⟨1, 0, 0⟩ : Vec3 ℝ) := by
  intro k
  have hkind : k.kind ≠ .gaussian := nofun
  obtain ⟨hpos, hbeyond, hfalls, -, -, hgradient⟩ := weights_fall_off k hkind
  have hne : (⟨1, 0, 0⟩ : Vec3 ℝ) ≠ .zero := fun h =>
    one_ne_zero (congrArg Vec3.x h |>.trans Scalar.zero_eq)
  have hnorm : (⟨1, 0, 0⟩ : Vec3 ℝ).norm = 1 := by
    simp [Vec3.norm, Vec3.norm2_eq, Vec3.get]
  have hlt : (⟨1, 0, 0⟩ : Vec3 ℝ).norm < k.h := hnorm.trans_lt one_lt_two
  have hzero : (0 : ℝ) ∈ Icc 0 k.h := ⟨le_rfl, two_pos.le⟩
  have hone : (1 : ℝ) ∈ Icc 0 k.h := ⟨zero_le_one, one_lt_two.le⟩
  have htwo : (2 : ℝ) ∈ Icc 0 k.h := ⟨two_pos.le, le_rfl⟩
  obtain ⟨-, c, hc, -, hneg⟩ := hgradient ⟨1, 0, 0⟩ hne
  exact ⟨hkind, hfalls hzero hone one_pos, hfalls hone htwo one_lt_two, hpos 1 zero_le_one one_lt_two,
    (hbeyond 2 le_rfl).1, c, hneg.2 hlt, hc⟩

end SmoothedParticles.Kernel
