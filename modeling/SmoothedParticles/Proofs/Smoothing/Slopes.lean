import SmoothedParticles.Proofs.Exact.Reals
import SmoothedParticles.Smoothing.Kernel

/-!
# Kernels fall off

A kernel is largest at the separation zero and falls off up to its support. The sign of its slope is the
sign of the formula of each kind, the factors of which are positive inside of the support. Of the
exponential in the Gaussian kernel only the sign matters.

* `value_of_le`, `derivative_of_le`: **nothing beyond the support**.
* `alpha_pos`: **the normalization is positive**.
* `value_pos`, `value_nonneg`: **the weight is positive** within the support, and never negative. This is
  said of the polynomial kinds: in the Gaussian kernel it would depend on the value of the exponential.
* `derivative_neg`: **the slope is negative** between the center and the support.
* `derivative_nonpos`: it is never positive.
-/

namespace SmoothedParticles.Kernel

variable {k : Kernel ℝ} {r : ℝ}

theorem support_pos (k : Kernel ℝ) : 0 < k.h := by
  have h := k.h_pos
  rwa [Scalar.zero_eq] at h

/-- **There is no weight beyond the support.** -/
theorem value_of_le (hr : k.h ≤ r) : k.value r = 0 := by
  rw [value, if_pos hr, Scalar.zero_eq]

/-- **There is no slope beyond the support.** -/
theorem derivative_of_le (hr : k.h ≤ r) : k.derivative r = 0 := by
  rw [derivative, if_pos hr, Scalar.zero_eq]

section Gaussian

/-- What the kernel falls by at the support is small, in the plane. -/
theorem gaussian_plane_pos : 0 < (1 - expMinusNine) / 9 - (expMinusNine : ℝ) := by
  show (0 : ℝ) < (1 - 1.2340980408667956e-4) / 9 - 1.2340980408667956e-4
  norm_num

/-- What the kernel falls by at the support is small, in space. -/
theorem gaussian_space_pos : 0 < Real.pi ^ (1.5 : ℝ) * erfThree / 27 - 2 * Real.pi * expMinusNine / 9
    - 4 * Real.pi * expMinusNine / 3 := by
  have hpi : Real.pi ≤ Real.pi ^ (1.5 : ℝ) :=
    Real.self_le_rpow_of_one_le (by linarith [Real.pi_gt_three]) (by norm_num)
  have hconst : (0 : ℝ) < 0.9999779095030014 / 27 - 2 * 1.2340980408667956e-4 / 9 -
      4 * 1.2340980408667956e-4 / 3 := by
    norm_num
  show 0 < Real.pi ^ (1.5 : ℝ) * 0.9999779095030014 / 27 - 2 * Real.pi * 1.2340980408667956e-4 / 9
    - 4 * Real.pi * 1.2340980408667956e-4 / 3
  have h := mul_pos Real.pi_pos hconst
  linarith

end Gaussian

/-- **The normalization is positive.** -/
theorem alpha_pos (k : Kernel ℝ) : 0 < k.alpha := by
  have hh := k.support_pos
  have hpi := Real.pi_pos
  obtain ⟨kind, h, d, _⟩ := k
  cases kind <;> cases d <;>
    simp only [alpha, Scalar.pi_eq, Scalar.power_eq, Scalar.rpow_eq, Scalar.one_eq]
  · show 0 < 5 / (Real.pi * h * h)
    positivity
  · show 0 < 105 / (16 * Real.pi * h ^ 3)
    positivity
  · show 0 < 4 / (Real.pi * h ^ 8)
    positivity
  · show 0 < 315 / (64 * Real.pi * h ^ 9)
    positivity
  · show 0 < 40 / (7 * Real.pi * h * h)
    positivity
  · show 0 < 8 / (Real.pi * h ^ 3)
    positivity
  · show 0 < 10 / (Real.pi * h ^ 5)
    positivity
  · show 0 < 15 / (Real.pi * h ^ 6)
    positivity
  · exact one_div_pos.2 (mul_pos (mul_pos (mul_pos hpi hh) hh) gaussian_plane_pos)
  · exact one_div_pos.2 (mul_pos (pow_pos hh 3) gaussian_space_pos)

/-- **The weight is positive** within the support. -/
theorem value_pos (hkind : k.kind ≠ .gaussian) (hr : 0 ≤ r) (hrh : r < k.h) : 0 < k.value r := by
  have hh := k.support_pos
  have halpha := k.alpha_pos
  have hq : 0 ≤ r / k.h := div_nonneg hr hh.le
  have hq1 : 0 < 1 - r / k.h := sub_pos.2 ((div_lt_one hh).2 hrh)
  have hdiff : 0 < k.h * k.h - r * r := sub_pos.2 (mul_self_lt_mul_self hr hrh)
  have hrest : 0 < k.h - r := sub_pos.2 hrh
  rw [value, if_neg (not_le.2 hrh)]
  cases hk : k.kind <;> simp only [Scalar.power_eq, Scalar.exp_eq, Scalar.one_eq]
  case lucy =>
    show 0 < k.alpha * (1 + 3 * (r / k.h)) * (1 - r / k.h) ^ 3
    positivity
  case poly6 => positivity
  case cubicSpline =>
    split_ifs with hpiece
    · have hhalf : r / k.h ≤ 1 / 2 := by
        have h : r / k.h ≤ 0.5 := hpiece
        norm_num at h
        linarith
      have hpeak : r / k.h * (1 - r / k.h) ≤ 1 / 4 := by nlinarith [sq_nonneg (r / k.h - 1 / 2)]
      have hinner : 0 < 6 * (r / k.h * (r / k.h) * (r / k.h) - r / k.h * (r / k.h)) + 1 := by
        nlinarith
      show 0 < k.alpha * (6 * (r / k.h * (r / k.h) * (r / k.h) - r / k.h * (r / k.h)) + 1)
      exact mul_pos halpha hinner
    · show 0 < k.alpha * 2 * (1 - r / k.h) ^ 3
      positivity
  case spiky => positivity
  case gaussian => exact absurd hk hkind

/-- **The weight is never negative.** -/
theorem value_nonneg (hkind : k.kind ≠ .gaussian) (hr : 0 ≤ r) : 0 ≤ k.value r := by
  rcases lt_or_ge r k.h with hrh | hrh
  · exact (value_pos hkind hr hrh).le
  · exact (value_of_le hrh).ge

/-- **The slope is negative** between the center and the support. -/
theorem derivative_neg (hr : 0 < r) (hrh : r < k.h) : k.derivative r < 0 := by
  have hh := k.support_pos
  have halpha := k.alpha_pos
  have hq : 0 < r / k.h := div_pos hr hh
  have hq1 : 0 < 1 - r / k.h := sub_pos.2 ((div_lt_one hh).2 hrh)
  have hdiff : 0 < k.h * k.h - r * r := sub_pos.2 (mul_self_lt_mul_self hr.le hrh)
  have hrest : 0 < k.h - r := sub_pos.2 hrh
  rw [derivative, if_neg (not_le.2 hrh)]
  -- each formula is a negative number times positive factors
  cases k.kind <;> simp only [Scalar.power_eq, Scalar.exp_eq, Scalar.one_eq]
  case lucy =>
    have h : 0 < 12 * k.alpha * (r / k.h) * (1 - r / k.h) ^ 2 / k.h := by positivity
    show -12 * k.alpha * (r / k.h) * (1 - r / k.h) ^ 2 / k.h < 0
    exact neg_pos.1 (h.trans_eq (by ring))
  case poly6 =>
    have h : 0 < 6 * k.alpha * r * (k.h * k.h - r * r) ^ 2 := by positivity
    show -6 * k.alpha * r * (k.h * k.h - r * r) ^ 2 < 0
    exact neg_pos.1 (h.trans_eq (by ring))
  case cubicSpline =>
    split_ifs with hpiece
    · have hfactor : 0 < 2 - 3 * (r / k.h) := by
        have h : r / k.h ≤ 0.5 := hpiece
        norm_num at h
        linarith
      have h : 0 < k.alpha * 6 * (r / k.h * (2 - 3 * (r / k.h))) / k.h := by positivity
      show k.alpha * 6 * (3 * (r / k.h) * (r / k.h) - 2 * (r / k.h)) / k.h < 0
      exact neg_pos.1 (h.trans_eq (by ring))
    · have h : 0 < 6 * k.alpha * (1 - r / k.h) ^ 2 / k.h := by positivity
      show -6 * k.alpha * (1 - r / k.h) ^ 2 / k.h < 0
      exact neg_pos.1 (h.trans_eq (by ring))
  case spiky =>
    have h : 0 < 3 * k.alpha * (k.h - r) ^ 2 := by positivity
    show -3 * k.alpha * (k.h - r) ^ 2 < 0
    exact neg_pos.1 (h.trans_eq (by ring))
  case gaussian =>
    have h : 0 < 18 * k.alpha * r / (k.h * k.h) * Real.exp (-9 * (r / k.h) * (r / k.h)) := by
      positivity
    show -18 * k.alpha * r / (k.h * k.h) * Real.exp (-9 * (r / k.h) * (r / k.h)) < 0
    exact neg_pos.1 (h.trans_eq (by ring))

/-- **The slope is never positive**: beyond the support there is none. -/
theorem derivative_nonpos (hr : 0 < r) : k.derivative r ≤ 0 := by
  rcases lt_or_ge r k.h with hrh | hrh
  · exact (derivative_neg hr hrh).le
  · exact (derivative_of_le hrh).le

end SmoothedParticles.Kernel
