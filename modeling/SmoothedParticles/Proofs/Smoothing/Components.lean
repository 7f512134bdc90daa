import SmoothedParticles.Proofs.Smoothing.Interpolations

/-!
# Fields component by component

A field of matrices is read row by row into a field of rows of numbers, which is interpolated with the same
weights for all columns. Each column, and with it each entry of the matrices, is the field of numbers that
would come from its own values alone, in any arithmetic: the sums of a column are taken in the same order.

* `Table.column`, `Tensors.entry`: the values of a component at all samples.
* `getElem_flatten_entry`, `getElem_unflatten`: **where an entry of a matrix is** in a row.
* `sums_column`, `interpolateRow_column`: **a column does not see the others**.
* `components_agree`: fields of matrices, of rows and of numbers agree.
-/

namespace SmoothedParticles

variable {α : Type}

/-- The values in one column. -/
def Table.column (t : Table α) (j : Fin t.columns) : Array α := t.rows.map fun v => v.get j

/-- The entries at one place of the matrices. -/
def Tensors.entry (t : Tensors α) (a : Fin t.height) (b : Fin t.width) : Array α :=
  t.items.map fun m => (m.get a).get b

namespace Interpolator

section Places

variable {m n a b : ℕ}

/-- The place of an entry in a row that is read from a matrix. -/
theorem place_lt (ha : a < m) (hb : b < n) : a * n + b < m * n := by
  calc a * n + b < a * n + n := Nat.add_lt_add_left hb _
    _ = (a + 1) * n := (Nat.succ_mul a n).symm
    _ ≤ m * n := Nat.mul_le_mul_right n ha

theorem getElem_flatten_entry (x : Vector (Vector α n) m) (ha : a < m) (hb : b < n)
    (hplace : a * n + b < m * n) : x.flatten[a * n + b] = x[a][b] := by
  have hdiv : (a * n + b) / n = a := by
    rw [Nat.add_comm, Nat.add_mul_div_right _ _ (Nat.zero_lt_of_lt hb), Nat.div_eq_of_lt hb, Nat.zero_add]
  have hmod : (a * n + b) % n = b := by
    rw [Nat.add_comm, Nat.add_mul_mod_self_right, Nat.mod_eq_of_lt hb]
  rw [Vector.getElem_flatten]
  simp only [hdiv, hmod]

theorem getElem_unflatten (v : Vector α (m * n)) (ha : a < m) (hb : b < n)
    (hplace : a * n + b < m * n) : (unflatten v)[a][b] = v[a * n + b] := by
  rw [unflatten]
  simp only [Vector.getElem_ofFn]

end Places

section Columns

variable [Scalar α] {it : Interpolator α} {c : ℕ} {values : Array (Vector α c)} {volumes : Array α}
  {row : List (Pair α)} {j : ℕ}

/-- The value of a column at a sample, zero where there is no sample. -/
theorem getD_map_column (hj : j < c) (i : ℕ) : (values.map fun v => #v[v[j]]).getD i (.replicate 1 0) =
    #v[(values.getD i (.replicate c 0))[j]] := by
  rw [Array.getD_eq_getD_getElem?, Array.getD_eq_getD_getElem?, Array.getElem?_map]
  cases values[i]? with
  | some v => rfl
  | none =>
    simp only [Option.map_none, Option.getD_none, Vector.getElem_replicate]
    rfl

/-- **The sums of a column** are those that the values of this column alone have. -/
theorem sums_column (hj : j < c) : it.sums (values.map fun v => #v[v[j]]) volumes row =
    ((it.sums values volumes row).1, #v[(it.sums values volumes row).2[j]]) := by
  -- on the pass, the last sample first
  induction row using List.reverseRecOn with
  | nil =>
    refine Prod.ext rfl ?_
    show Vector.replicate 1 _ = #v[(Vector.replicate c _)[j]]
    rw [Vector.getElem_replicate]
    rfl
  | append_singleton row p ih =>
    rw [sums_concat, sums_concat, ih, getD_map_column hj]
    refine Prod.ext rfl ?_
    simp only [Vector.mk_zipWith_mk, List.zipWith_toArray, List.zipWith_cons_cons, List.zipWith_nil_right,
      Vector.getElem_zipWith]

/-- **A column does not see the others.** -/
theorem interpolateRow_column (hj : j < c) :
    it.interpolateRow (values.map fun v => #v[v[j]]) volumes row =
      (it.interpolateRow values volumes row).map fun v => #v[v[j]] := by
  unfold interpolateRow
  rw [sums_column hj]
  split_ifs
  · rfl
  · cases it.normalization with
    | sum => rfl
    | shepard =>
      dsimp only
      split_ifs
      · rfl
      · rw [Option.map_some, Vector.getElem_map]
        simp only [Vector.map_mk, List.map_toArray, List.map_cons, List.map_nil]

end Columns

section Agreement

variable [Scalar α] (it : Interpolator α) (l : NeighborList α) (volumes : Array α)

/-- A column on its own, from a field of rows of numbers that holds the same values in one of its columns. -/
theorem result_interpolateScalar_column {c j : ℕ} (values : Array (Vector α c)) (hj : j < c) :
    (it.interpolateScalar l (values.map fun v => v[j]) volumes).result =
      (it.checks l values.size volumes.size).map fun _ => l.rows.map fun row =>
        (it.interpolateRow values volumes row).map fun v => v[j] := by
  have hrow : ∀ row, (it.interpolateRow ((values.map fun v => v[j]).map fun x => #v[x]) volumes row).map
      (fun v => v.get 0) = (it.interpolateRow values volumes row).map fun v => v[j] := by
    intro row
    rw [Array.map_map]
    refine (congrArg _ (interpolateRow_column hj)).trans ?_
    rw [Option.map_map]
    rfl
  rw [result_interpolateScalar, Array.size_map]
  simp only [hrow]

/-- **Fields of matrices, of rows and of numbers agree.** Interpolating matrices gives in each entry what
interpolating the values of this entry alone gives; in particular both fail together, and for the same reason,
and rows are missing in all entries or in none. The same holds of the columns of a field of rows of numbers. -/
theorem components_agree :
    (∀ values : Tensors α,
      ∃ items : Except (Error α) (Array (Option (Vector (Vector α values.width) values.height))),
        (it.interpolateTensors l values volumes).result = items.map (⟨values.height, values.width, ·⟩) ∧
        ∀ (a : Fin values.height) (b : Fin values.width),
          (it.interpolateScalar l (values.entry a b) volumes).result =
            items.map (·.map (·.map fun m => (m.get a).get b))) ∧
    ∀ values : Table α, ∃ rows : Except (Error α) (Array (Option (Vector α values.columns))),
      (it.interpolate l values volumes).result = rows.map (⟨values.columns, ·⟩) ∧
      ∀ j : Fin values.columns, (it.interpolateScalar l (values.column j) volumes).result =
        rows.map (·.map (·.map fun v => v.get j)) := by
  constructor
  · intro values
    refine ⟨(it.checks l values.items.size volumes.size).map fun _ => l.rows.map fun row =>
      (it.interpolateRow values.flatten.rows volumes row).map unflatten, ?_, fun a b => ?_⟩
    · rw [result_interpolateTensors]
      cases it.checks l values.items.size volumes.size <;> rfl
    · -- an entry is a column of the rows that the matrices are read into
      have hplace : a.val * values.width + b.val < values.height * values.width := place_lt a.isLt b.isLt
      have hentry : values.entry a b = (values.items.map Vector.flatten).map
          fun v => v[a.val * values.width + b.val] := by
        rw [Array.map_map]
        exact Array.map_congr_left fun m _ => (getElem_flatten_entry m a.isLt b.isLt hplace).symm
      rw [hentry, result_interpolateScalar_column, Array.size_map]
      cases it.checks l values.items.size volumes.size with
      | error e => rfl
      | ok _ =>
        have hunflatten : (fun v => v[a.val * values.width + b.val]) =
            (fun m : Vector (Vector α values.width) values.height => (m.get a).get b) ∘ unflatten :=
          funext fun v => (getElem_unflatten v a.isLt b.isLt hplace).symm
        refine congrArg Except.ok (Eq.trans ?_ Array.map_map.symm)
        simp only [hunflatten, ← Option.map_map]
        rfl
  · intro values
    refine ⟨(it.checks l values.rows.size volumes.size).map fun _ =>
      l.rows.map (it.interpolateRow values.rows volumes), ?_, fun j => ?_⟩
    · rw [result_interpolate]
      cases it.checks l values.rows.size volumes.size <;> rfl
    · refine (result_interpolateScalar_column it l volumes values.rows j.isLt).trans ?_
      cases it.checks l values.rows.size volumes.size with
      | error e => rfl
      | ok _ =>
        refine congrArg Except.ok (Eq.trans ?_ Array.map_map.symm)
        rfl

end Agreement

end Interpolator

end SmoothedParticles
