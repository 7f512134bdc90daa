import SmoothedParticles.Proofs.Exact.Reals
import SmoothedParticles.Proofs.Report.Results
import SmoothedParticles.Smoothing.Interpolation

/-!
# Interpolation without logs

An interpolation checks that the list, the kernel and the samples fit together. After that it treats each row
of the list on its own. All kinds of fields have the same checks and the same rows.

* `checks`, `checks_congr`, `checks_ok_iff`: **what is checked**, and when the checks pass.
* `result_interpolate`, `result_interpolateScalar`, `result_interpolateTensors`: the results in any
  arithmetic, each as the rows of the list after the checks.
* `sums_concat`: what one more sample adds to the sums over a row.
* `totalWeight`, `weightedSum`, `sums_eq`: the sums over a row, in exact arithmetic.
* `interpolateRow_sum`, `interpolateRow_shepard`: **a row in closed form**.
-/

namespace SmoothedParticles.Interpolator

section Results

variable {α : Type} [Scalar α] (it : Interpolator α) (l : NeighborList α) (volumes : Array α)

/-- **What an interpolation checks**, in this order: the dimension, the number of values and the number of
volumes. -/
def checks (nValues nVolumes : ℕ) : Except (Error α) Unit := do
  (it.checkList l).result
  checkSamples l nValues nVolumes

/-- After the checks, each row is treated on its own. -/
theorem result_interpolateRows {c : ℕ} (values : Array (Vector α c)) :
    (it.interpolateRows l values volumes).result = (it.checks l values.size volumes.size).map
      fun _ => l.rows.map (it.interpolateRow values volumes) := by
  unfold interpolateRows checks reportMissing
  simp only [Logged.result_bind, Logged.result_monadLift, Logged.result_pure]
  cases (it.checkList l).result with
  | error e => rfl
  | ok _ => cases checkSamples l values.size volumes.size <;> rfl

/-- **A field of rows of numbers.** -/
theorem result_interpolate (values : Table α) :
    (it.interpolate l values volumes).result = (it.checks l values.rows.size volumes.size).map
      fun _ => ⟨values.columns, l.rows.map (it.interpolateRow values.rows volumes)⟩ := by
  unfold interpolate
  rw [Logged.result_bind, result_interpolateRows]
  cases it.checks l values.rows.size volumes.size <;> rfl

/-- **A field of numbers.** -/
theorem result_interpolateScalar (values : Array α) :
    (it.interpolateScalar l values volumes).result = (it.checks l values.size volumes.size).map
      fun _ => l.rows.map fun row =>
        (it.interpolateRow (values.map fun x => #v[x]) volumes row).map fun v => v.get 0 := by
  unfold interpolateScalar
  rw [Logged.result_bind, result_interpolateRows, Array.size_map]
  cases it.checks l values.size volumes.size with
  | error e => rfl
  | ok _ =>
    show Except.ok _ = Except.ok _
    rw [Array.map_map]
    rfl

/-- **A field of matrices.** -/
theorem result_interpolateTensors (values : Tensors α) :
    (it.interpolateTensors l values volumes).result = (it.checks l values.items.size volumes.size).map
      fun _ => ⟨values.height, values.width, l.rows.map fun row =>
        (it.interpolateRow values.flatten.rows volumes row).map unflatten⟩ := by
  unfold interpolateTensors
  have hsize : values.flatten.rows.size = values.items.size := Array.size_map
  rw [Logged.result_bind, result_interpolateRows, hsize]
  cases it.checks l values.items.size volumes.size with
  | error e => rfl
  | ok _ =>
    show Except.ok _ = Except.ok _
    rw [Array.map_map]
    rfl

/-- A warning about the cutoff is not a failure. -/
theorem result_checkList : (it.checkList l).result = if l.dimension ≠ it.kernel.dimension then
    mismatch (.kernelOfList l.dimension.toNat it.kernel.dimension.toNat) else .ok () := by
  unfold checkList
  rw [Logged.result_bind, Logged.result_tellIf]
  show (if l.dimension ≠ it.kernel.dimension then (monadLift _ : Logged α Unit) else pure ()).result = _
  split_ifs <;> rfl

/-- **The checks ask for the dimension and the number of samples** of a list, and for nothing else. -/
theorem checks_congr {l' : NeighborList α} {nValues nVolumes : ℕ} (hd : l'.dimension = l.dimension)
    (hn : l'.nReference = l.nReference) :
    it.checks l' nValues nVolumes = it.checks l nValues nVolumes := by
  unfold checks checkSamples
  rw [result_checkList, result_checkList, hd, hn]

/-- **When the checks pass.** -/
theorem checks_ok_iff {nValues nVolumes : ℕ} : it.checks l nValues nVolumes = .ok () ↔
    l.dimension = it.kernel.dimension ∧ nValues = l.nReference ∧ nVolumes = l.nReference := by
  have hlist : (it.checkList l).result = .ok () ↔ l.dimension = it.kernel.dimension := by
    rw [result_checkList]
    split_ifs with h
    · exact iff_of_false mismatch_ne_ok h
    · exact iff_of_true rfl (not_not.1 h)
  have hsamples : checkSamples l nValues nVolumes = .ok () ↔
      nValues = l.nReference ∧ nVolumes = l.nReference := by
    unfold checkSamples
    simp only [mismatch_bind, ite_mismatch_iff, not_not]
    exact ⟨fun h => ⟨h.1, h.2.1⟩, fun h => ⟨h.1, h.2, rfl⟩⟩
  unfold checks
  rw [bind_eq_ok_iff, ← hlist, ← hsamples]
  exact ⟨fun ⟨_, h⟩ => h, fun h => ⟨(), h⟩⟩

/-- One more sample adds its weight and its weighted values. -/
theorem sums_concat {c : ℕ} (values : Array (Vector α c)) (row : List (Pair α)) (p : Pair α) :
    it.sums values volumes (row ++ [p]) = ((it.sums values volumes row).1 + it.weight volumes p,
      (it.sums values volumes row).2.zipWith (fun sum v => sum + it.weight volumes p * v)
        (values.getD p.second (.replicate c 0))) := by
  rw [sums, List.foldl_concat]
  rfl

end Results

section Exact

variable {k : Kernel ℝ} {it : Interpolator ℝ} {volumes : Array ℝ} {c : ℕ} {values : Array (Vector ℝ c)}
  {row : List (Pair ℝ)}

/-- The sum of the weights of a row. -/
noncomputable def totalWeight (it : Interpolator ℝ) (volumes : Array ℝ) (row : List (Pair ℝ)) : ℝ :=
  (row.map (it.weight volumes)).sum

/-- The weighted sums of the values of a row, one per column. -/
noncomputable def weightedSum (it : Interpolator ℝ) (values : Array (Vector ℝ c)) (volumes : Array ℝ)
    (row : List (Pair ℝ)) : Vector ℝ c :=
  .ofFn fun j => (row.map fun p =>
    it.weight volumes p * (values.getD p.second (.replicate c 0))[j]).sum

theorem getElem_weightedSum {j : ℕ} (hj : j < c) : (it.weightedSum values volumes row)[j] =
    (row.map fun p => it.weight volumes p * (values.getD p.second (.replicate c 0))[j]).sum := by
  rw [weightedSum, Vector.getElem_ofFn]
  rfl

/-- **The sums over a row**, which are added up in one pass. -/
theorem sums_eq (it : Interpolator ℝ) (values : Array (Vector ℝ c)) (volumes : Array ℝ)
    (row : List (Pair ℝ)) :
    it.sums values volumes row = (it.totalWeight volumes row, it.weightedSum values volumes row) := by
  -- on the pass, the last sample first
  induction row using List.reverseRecOn with
  | nil =>
    refine Prod.ext Scalar.zero_eq (Vector.ext fun j hj => ?_)
    show (Vector.replicate c _)[j] = _
    rw [getElem_weightedSum, Vector.getElem_replicate]
    exact Scalar.zero_eq
  | append_singleton row p ih =>
    rw [sums_concat, ih]
    refine Prod.ext ?_ (Vector.ext fun j hj => ?_)
    · rw [totalWeight, totalWeight, List.map_append, List.map_singleton, List.sum_append,
        List.sum_singleton]
    · simp only [getElem_weightedSum, Vector.getElem_zipWith, List.map_append, List.map_singleton,
        List.sum_append, List.sum_singleton, Scalar.zero_eq]

/-- **A row without normalization**: the weighted sums, if there are any samples. -/
theorem interpolateRow_sum : interpolateRow ⟨k, .sum⟩ values volumes row =
    if row = [] then none else some (weightedSum ⟨k, .sum⟩ values volumes row) := by
  unfold interpolateRow
  rw [sums_eq]
  simp only [List.isEmpty_iff]

/-- **A row normalized by the weights**: their weighted mean, if they do not cancel. A row without samples has
no weights. -/
theorem interpolateRow_shepard : interpolateRow ⟨k, .shepard⟩ values volumes row =
    if totalWeight ⟨k, .shepard⟩ volumes row = 0 then none
    else some ((weightedSum ⟨k, .shepard⟩ values volumes row).map
      (· / totalWeight ⟨k, .shepard⟩ volumes row)) := by
  unfold interpolateRow
  rw [sums_eq]
  simp only [List.isEmpty_iff, beq_iff_eq, Scalar.zero_eq]
  split_ifs with hrow hzero hzero
  · rfl
  · rw [hrow] at hzero
    exact absurd rfl hzero
  · rfl
  · rfl

end Exact

end SmoothedParticles.Interpolator
