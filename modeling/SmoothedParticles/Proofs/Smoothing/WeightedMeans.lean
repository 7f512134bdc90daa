import SmoothedParticles.Proofs.Force.Momentum
import SmoothedParticles.Proofs.Smoothing.Interpolations

/-!
# Interpolated fields as weighted means

A field that is normalized by its weights is at each query point a mean of the samples around it. With weights
that are not negative, a mean lies between the smallest and the largest value.

* `exists_le_mean`, `exists_mean_le`: some of the values are below a weighted mean, and some above.
* `combine`, `weightedSum_combine`: **sums are linear in the values**.
* `weightedSum_const`: the sum of equal values.
* `weight_nonneg`: when weights are not negative.
* `Between`, `between_mean`: **a mean lies between the values of a row**.
* `interpolateRow_combine`: **rows are linear in the values**, and missing whatever the values are.
* `interpolated_rows_are_means`: all of this for the field at each query point.
-/

namespace SmoothedParticles

section Means

variable {β : Type} {bs : List β} {w f : β → ℝ}

/-- **Some value is at most the weighted mean.** -/
theorem exists_le_mean (hw : ∀ b ∈ bs, 0 ≤ w b) (hne : (bs.map w).sum ≠ 0) :
    ∃ b ∈ bs, f b ≤ (bs.map fun b => w b * f b).sum / (bs.map w).sum := by
  by_contra h
  push Not at h
  -- a positive weight makes the sum larger than the mean allows
  obtain ⟨b, hb, hpos⟩ : ∃ b ∈ bs, 0 < w b := by
    by_contra hnone
    push Not at hnone
    have hzero : bs.map w = bs.map fun _ => 0 :=
      List.map_congr_left fun b hb => le_antisymm (hnone b hb) (hw b hb)
    rw [hzero, List.sum_map_zero] at hne
    exact hne rfl
  have hlt := List.sum_lt_sum _ _ (fun b hb => mul_le_mul_of_nonneg_left (h b hb).le (hw b hb))
    ⟨b, hb, mul_lt_mul_of_pos_left (h b hb) hpos⟩
  rw [List.sum_map_mul_right, mul_div_cancel₀ _ hne] at hlt
  exact lt_irrefl _ hlt

/-- **Some value is at least the weighted mean.** -/
theorem exists_mean_le (hw : ∀ b ∈ bs, 0 ≤ w b) (hne : (bs.map w).sum ≠ 0) :
    ∃ b ∈ bs, (bs.map fun b => w b * f b).sum / (bs.map w).sum ≤ f b := by
  have hneg : (bs.map fun b => w b * -f b).sum = -(bs.map fun b => w b * f b).sum := by
    simp only [List.sum_neg, List.map_map, Function.comp_def, mul_neg]
  obtain ⟨b, hb, hle⟩ := exists_le_mean (f := fun b => -f b) hw hne
  rw [hneg, neg_div, neg_le_neg_iff] at hle
  exact ⟨b, hb, hle⟩

end Means

section Rows

variable {k : Kernel ℝ} {it : Interpolator ℝ} {volumes : Array ℝ} {c : ℕ}
  {values vs ws : Array (Vector ℝ c)} {row : List (Pair ℝ)} {s t : ℝ} {v u : Vector ℝ c}

/-- A combination of two rows of numbers. -/
noncomputable def combine (s t : ℝ) (v w : Vector ℝ c) : Vector ℝ c :=
  v.zipWith (fun x y => s * x + t * y) w

/-- **Does a row of numbers lie between the values of the samples around a point**, in each column between
the smallest one and the largest one? -/
def Between (values : Array (Vector ℝ c)) (row : List (Pair ℝ)) (v : Vector ℝ c) : Prop :=
  ∀ (j : ℕ) (hj : j < c), (∃ p ∈ row, ∃ y, values[p.second]? = some y ∧ y[j] ≤ v[j]) ∧
    ∃ p ∈ row, ∃ y, values[p.second]? = some y ∧ v[j] ≤ y[j]

namespace Interpolator

/-- The value of a combined field at a sample; both fields are zero where there are no samples. -/
theorem getD_zipWith_combine (hsize : vs.size = ws.size) (i : ℕ) :
    (Array.zipWith (combine s t) vs ws).getD i (.replicate c 0) =
      combine s t (vs.getD i (.replicate c 0)) (ws.getD i (.replicate c 0)) := by
  rw [Array.getD_eq_getD_getElem?, Array.getD_eq_getD_getElem?, Array.getD_eq_getD_getElem?,
    Array.getElem?_zipWith]
  by_cases hi : i < vs.size
  · rw [Array.getElem?_eq_getElem hi, Array.getElem?_eq_getElem (hsize ▸ hi)]
    rfl
  · rw [Array.getElem?_eq_none (not_lt.1 hi), Array.getElem?_eq_none (hsize ▸ not_lt.1 hi)]
    refine Vector.ext fun j hj => ?_
    simp only [Option.getD_none, combine, Vector.getElem_zipWith, Vector.getElem_replicate, mul_zero,
      add_zero]

/-- **Sums are linear in the values.** -/
theorem weightedSum_combine (hsize : vs.size = ws.size) :
    it.weightedSum (Array.zipWith (combine s t) vs ws) volumes row =
      combine s t (it.weightedSum vs volumes row) (it.weightedSum ws volumes row) := by
  refine Vector.ext fun j hj => ?_
  rw [combine, Vector.getElem_zipWith]
  simp only [getElem_weightedSum, getD_zipWith_combine hsize, combine, Vector.getElem_zipWith]
  rw [← List.sum_map_mul_left, ← List.sum_map_mul_left, ← List.sum_map_add]
  refine congrArg List.sum (List.map_congr_left fun p _ => ?_)
  ring

/-- The sum of equal values is a multiple of their value. -/
theorem weightedSum_const (h : ∀ p ∈ row, values[p.second]? = some u) :
    it.weightedSum values volumes row = u.map (it.totalWeight volumes row * ·) := by
  refine Vector.ext fun j hj => ?_
  rw [getElem_weightedSum, Vector.getElem_map, totalWeight, ← List.sum_map_mul_right]
  refine congrArg List.sum (List.map_congr_left fun p hp => ?_)
  rw [Array.getD_eq_getD_getElem?, h p hp, Option.getD_some]

/-- **Weights are not negative** if volumes are not, for the polynomial kernels. -/
theorem weight_nonneg {p : Pair ℝ} (hkind : it.kernel.kind ≠ .gaussian) (hvolumes : ∀ x ∈ volumes, 0 ≤ x)
    (hp : 0 ≤ p.distance) : 0 ≤ it.weight volumes p := by
  refine mul_nonneg (Kernel.value_nonneg hkind hp) ?_
  rw [Array.getD_eq_getD_getElem?]
  cases hi : volumes[p.second]? with
  | none => exact Scalar.zero_eq.ge
  | some x => exact hvolumes x (Array.mem_of_getElem? hi)

/-- **Rows are linear in the values**, and missing whatever the values are. -/
theorem interpolateRow_combine {n : Normalization} (hsize : vs.size = ws.size) :
    interpolateRow ⟨k, n⟩ (Array.zipWith (combine s t) vs ws) volumes row =
      Option.map₂ (combine s t) (interpolateRow ⟨k, n⟩ vs volumes row)
        (interpolateRow ⟨k, n⟩ ws volumes row) := by
  cases n with
  | sum =>
    simp only [interpolateRow_sum, weightedSum_combine hsize]
    split_ifs <;> rfl
  | shepard =>
    simp only [interpolateRow_shepard, weightedSum_combine hsize]
    split_ifs
    · rfl
    · refine congrArg some (Vector.ext fun j hj => ?_)
      simp only [combine, Vector.getElem_map, Vector.getElem_zipWith]
      ring

/-- **A mean lies between the values of a row**, if weights are not negative. -/
theorem between_mean (hw : ∀ p ∈ row, 0 ≤ it.weight volumes p) (hne : it.totalWeight volumes row ≠ 0)
    (hrow : ∀ p ∈ row, p.second < values.size) :
    Between values row ((it.weightedSum values volumes row).map (· / it.totalWeight volumes row)) := by
  intro j hj
  have hvalue : ∀ p ∈ row, ∃ y, values[p.second]? = some y ∧
      (values.getD p.second (.replicate c 0))[j] = y[j] := by
    intro p hp
    refine ⟨_, Array.getElem?_eq_getElem (hrow p hp), ?_⟩
    rw [Array.getD_eq_getD_getElem?, Array.getElem?_eq_getElem (hrow p hp), Option.getD_some]
  rw [Vector.getElem_map, getElem_weightedSum]
  constructor
  · obtain ⟨p, hp, hle⟩ := exists_le_mean
      (f := fun p => (values.getD p.second (.replicate c 0))[j]) hw hne
    obtain ⟨y, hy, hyj⟩ := hvalue p hp
    exact ⟨p, hp, y, hy, hyj ▸ hle⟩
  · obtain ⟨p, hp, hle⟩ := exists_mean_le
      (f := fun p => (values.getD p.second (.replicate c 0))[j]) hw hne
    obtain ⟨y, hy, hyj⟩ := hvalue p hp
    exact ⟨p, hp, y, hy, hyj ▸ hle⟩

/-- **Interpolated fields are weighted means.** Each row of a list is treated on its own. Without normalization
it is missing if and only if it has no samples; normalized by the weights, also if these sum to zero. Both are
linear in the values. A normalized row gives back a constant field, and if volumes are not negative and the
kernel is a polynomial one, it lies between the values of its samples. -/
theorem interpolated_rows_are_means {l : NeighborList ℝ} (hl : l.Reachable)
    (hk : l.dimension = k.dimension) (hvolumes : volumes.size = l.nReference)
    (hvalues : values.size = l.nReference) :
    (∀ n, (interpolate ⟨k, n⟩ l ⟨c, values⟩ volumes).result =
      .ok ⟨c, l.rows.map (interpolateRow ⟨k, n⟩ values volumes)⟩) ∧
    ∀ row ∈ l.rows,
      (interpolateRow ⟨k, .sum⟩ values volumes row = none ↔ row = []) ∧
      (interpolateRow ⟨k, .shepard⟩ values volumes row = none ↔
        row = [] ∨ totalWeight ⟨k, .shepard⟩ volumes row = 0) ∧
      (∀ n s t ws, ws.size = l.nReference →
        interpolateRow ⟨k, n⟩ (Array.zipWith (combine s t) values ws) volumes row =
          Option.map₂ (combine s t) (interpolateRow ⟨k, n⟩ values volumes row)
            (interpolateRow ⟨k, n⟩ ws volumes row)) ∧
      ∀ v, interpolateRow ⟨k, .shepard⟩ values volumes row = some v →
        (∀ u, (∀ y ∈ values, y = u) → v = u) ∧
        (k.kind ≠ .gaussian → (∀ x ∈ volumes, 0 ≤ x) → Between values row v) := by
  refine ⟨fun n => ?_, fun row hrow => ⟨?_, ?_, fun n s t ws hws => ?_, fun v hv => ?_⟩⟩
  · rw [result_interpolate, (checks_ok_iff (⟨k, n⟩ : Interpolator ℝ) l).2 ⟨hk, hvalues, hvolumes⟩]
    rfl
  · rw [interpolateRow_sum]
    split_ifs with hempty
    · exact iff_of_true rfl hempty
    · exact iff_of_false not_false hempty
  · rw [interpolateRow_shepard]
    split_ifs with hzero
    · exact iff_of_true rfl (.inr hzero)
    · refine iff_of_false not_false ?_
      rintro (rfl | h)
      · exact hzero rfl
      · exact hzero h
  · exact interpolateRow_combine (hvalues.trans hws.symm)
  · have hsecond : ∀ p ∈ row, p.second < values.size :=
      fun p hp => hvalues ▸ hl.sound.second_lt hrow hp
    rw [interpolateRow_shepard] at hv
    obtain ⟨hne, hv⟩ := Option.ite_none_left_eq_some.1 hv
    obtain rfl := Option.some.inj hv
    refine ⟨fun u hu => ?_, fun hkind hpositive => ?_⟩
    · have hconst : ∀ p ∈ row, values[p.second]? = some u := fun p hp => by
        rw [Array.getElem?_eq_getElem (hsecond p hp), hu _ (Array.getElem_mem _)]
      rw [weightedSum_const hconst]
      refine Vector.ext fun j hj => ?_
      rw [Vector.getElem_map, Vector.getElem_map, mul_div_cancel_left₀ _ hne]
    · exact between_mean (fun p hp => weight_nonneg hkind hpositive (hl.sound.distance_nonneg hrow hp))
        hne hsecond

/-- Two particles, the second of which has no volume. Around the first one the weights sum to zero, so that the
mean is missing there, although there is a sample. -/
theorem interpolated_rows_are_means_two :
    let o : SearchOptions ℝ := ⟨2, false, 0⟩
    let t : Table ℝ := ⟨2, #[#v[0, 0], #v[1, 0]]⟩
    let k : Kernel ℝ := ⟨.cubicSpline, 2, .two, Scalar.zero_eq.trans_lt two_pos⟩
    let volumes : Array ℝ := #[1, 0]
    let values : Array (Vector ℝ 1) := #[#v[3], #v[3]]
    ∃ l, (NeighborList.direct o t none .keepAll).result = .ok l ∧ l.Reachable ∧
      l.dimension = k.dimension ∧ volumes.size = l.nReference ∧ values.size = l.nReference ∧
      l.rows = #[[unitPair], [unitPair.flip]] ∧
      interpolateRow ⟨k, .shepard⟩ values volumes [unitPair] = none ∧
      interpolateRow ⟨k, .sum⟩ values volumes [unitPair] ≠ none ∧
      interpolateRow ⟨k, .shepard⟩ values volumes [unitPair.flip] = some #v[3] ∧
      Between values [unitPair.flip] #v[3] := by
  intro o t k volumes values
  have hkind : k.kind ≠ .gaussian := by decide
  obtain ⟨l, hl, hd, hself, hrows⟩ := exists_unitPair
  have hreachable : l.Reachable := .direct hl
  have hsize : l.nReference = 2 := by
    rw [NeighborList.nReference, PointSets.reference_of_none hself, ← hreachable.sound.rows.size, hrows]
    rfl
  have hvolumes : volumes.size = l.nReference := hsize.symm
  have hvalues : values.size = l.nReference := hsize.symm
  obtain ⟨-, hmeans⟩ := interpolated_rows_are_means hreachable (k := k) hd hvolumes hvalues
  obtain ⟨hsum, hmissing, -, -⟩ := hmeans [unitPair] (by simp [hrows])
  obtain ⟨-, hmissing', -, hmean⟩ := hmeans [unitPair.flip] (by simp [hrows])
  have hzero : (⟨k, .shepard⟩ : Interpolator ℝ).totalWeight volumes [unitPair] = 0 := by
    rw [totalWeight, List.map_singleton, List.sum_singleton]
    exact mul_zero _
  have hweight : 0 < (⟨k, .shepard⟩ : Interpolator ℝ).totalWeight volumes [unitPair.flip] := by
    rw [totalWeight, List.map_singleton, List.sum_singleton]
    show 0 < k.value unitPair.distance * 1
    rw [distance_unitPair, mul_one]
    exact Kernel.value_pos hkind zero_le_one one_lt_two
  obtain ⟨v, hv⟩ := Option.ne_none_iff_exists'.1
    (hmissing'.not.2 (not_or.2 ⟨List.cons_ne_nil _ _, hweight.ne'⟩))
  obtain ⟨hconst, hbetween⟩ := hmean v hv
  obtain rfl := hconst #v[3] (by simp [values])
  exact ⟨l, hl, hreachable, hd, hvolumes, hvalues, hrows, hmissing.2 (.inr hzero),
    hsum.not.2 (List.cons_ne_nil _ _), hv, hbetween hkind (by simp [volumes])⟩

end Interpolator

end Rows

end SmoothedParticles
