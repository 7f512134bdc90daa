import SmoothedParticles.Proofs.Pairs.RowOrder

/-!
# One pass over all pairs

A list can be split by types in one pass over its pairs: each pair is put at the end of its row in the part
with its two types, which may have to be made first, and in the part with equal or with different types.

* `PartRows.add`, `onePass`: one step, and the whole pass.
* `rowsOf`, `rowsOf_filter_append`: pairs sorted into rows, and what one more pair does to them.
* `onePass_eq`: **the pass sorts the pairs into the rows of each part**.
* `rowsOf_pairs`: the pairs of a part, sorted into rows, are the rows of the part.
-/

namespace SmoothedParticles.NeighborList

variable {α : Type} {p : Pair α} {ps : List (Pair α)} {n : ℕ}

/-- The rows of all parts while they are filled; the parts by types come up one after the other. -/
structure PartRows (α : Type) where
  byTypes : ℤ × ℤ → Option (Array (List (Pair α)))
  same : Array (List (Pair α))
  cross : Array (List (Pair α))

/-- Put a pair at the end of the row of its query point. -/
def putPair (p : Pair α) (rows : Array (List (Pair α))) : Array (List (Pair α)) :=
  rows.modify p.first (· ++ [p])

/-- Put a pair with two types into the parts where it belongs. -/
def PartRows.add (n : ℕ) (t : ℤ × ℤ) (r : PartRows α) (p : Pair α) : PartRows α where
  byTypes := Function.update r.byTypes t
    (some (putPair p ((r.byTypes t).getD (.replicate n []))))
  same := if t.1 = t.2 then putPair p r.same else r.same
  cross := if t.1 = t.2 then r.cross else putPair p r.cross

/-- **One pass over all pairs**, from empty rows on. -/
def onePass (n : ℕ) (types : Pair α → ℤ × ℤ) (ps : List (Pair α)) : PartRows α :=
  ps.foldl (fun r p => r.add n (types p) p) ⟨fun _ => none, .replicate n [], .replicate n []⟩

/-- Pairs, sorted into the rows of their query points. -/
def rowsOf (n : ℕ) (ps : List (Pair α)) : Array (List (Pair α)) :=
  Array.ofFn fun i : Fin n => ps.filter fun p => p.first = i

theorem rowsOf_nil : rowsOf n ([] : List (Pair α)) = .replicate n [] := by
  refine Array.ext (by simp [rowsOf]) fun i hi hi' => ?_
  simp [rowsOf]

/-- One more pair goes to the end of its row. -/
theorem putPair_rowsOf : putPair p (rowsOf n ps) = rowsOf n (ps ++ [p]) := by
  refine Array.ext (by simp [putPair, rowsOf]) fun i hi hi' => ?_
  simp only [putPair, rowsOf, Array.getElem_modify, Array.getElem_ofFn, List.filter_append]
  by_cases hp : p.first = i
  · simp [hp]
  · simp [hp]

/-- **What one step of the pass does** to rows that hold the pairs so far. -/
theorem rowsOf_filter_append {keep : Pair α → Bool} :
    rowsOf n ((ps ++ [p]).filter keep) =
      if keep p = true then putPair p (rowsOf n (ps.filter keep)) else rowsOf n (ps.filter keep) := by
  rw [List.filter_append]
  split_ifs with hp
  · rw [putPair_rowsOf, List.filter_cons_of_pos hp, List.filter_nil]
  · rw [List.filter_cons_of_neg hp, List.filter_nil, List.append_nil]

/-- **The pass sorts the pairs into the rows of each part.** -/
theorem onePass_eq (n : ℕ) (types : Pair α → ℤ × ℤ) (ps : List (Pair α)) :
    onePass n types ps =
      ⟨fun t => if t ∈ ps.map types then some (rowsOf n (ps.filter fun p => types p = t)) else none,
        rowsOf n (ps.filter fun p => (types p).1 = (types p).2),
        rowsOf n (ps.filter fun p => (types p).1 ≠ (types p).2)⟩ := by
  -- on the pairs passed so far
  induction ps using List.reverseRecOn with
  | nil => simp [onePass, rowsOf_nil]
  | append_singleton ps p ih =>
    have hstep : onePass n types (ps ++ [p]) = (onePass n types ps).add n (types p) p := by
      rw [onePass, List.foldl_append]
      rfl
    rw [hstep, ih, PartRows.add, PartRows.mk.injEq]
    refine ⟨funext fun t => ?_, ?_, ?_⟩
    · by_cases ht : t = types p
      · rw [ht, Function.update_self, rowsOf_filter_append]
        simp only [List.map_append, List.mem_append, List.map_cons, List.map_nil, List.mem_singleton,
          or_true, if_true, decide_true]
        split_ifs with hold
        · rfl
        · have hnone : ps.filter (fun q => types q = types p) = [] := by
            rw [List.filter_eq_nil_iff]
            intro q hq heq
            exact hold (List.mem_map.2 ⟨q, hq, of_decide_eq_true heq⟩)
          rw [hnone, rowsOf_nil]
          rfl
      · rw [Function.update_of_ne ht, rowsOf_filter_append]
        simp [ht, Ne.symm ht]
    · rw [rowsOf_filter_append]
      simp only [decide_eq_true_eq]
    · rw [rowsOf_filter_append]
      simp only [decide_eq_true_eq, ite_not]

/-- The pairs of a list, sorted into rows, are its rows. -/
theorem rowsOf_flatten {m : ℕ} {rows : Array (List (Pair α))} (h : OrderedRows n m rows) :
    rowsOf n rows.toList.flatten = rows := by
  refine Array.ext (Array.size_ofFn.trans h.size.symm) fun i hi hi' => ?_
  simp only [rowsOf, Array.getElem_ofFn]
  exact h.filter_first hi'

theorem rowsOf_pairs [Scalar α] {l : NeighborList α} (hl : Ordered l) (keep : Pair α → Bool) :
    rowsOf l.nQuery (l.pairs.filter keep) = (l.filterPart keep).rows := by
  rw [← pairs_filterPart, nQuery, hl.rows.size]
  exact rowsOf_flatten (hl.rows.filter keep)

end SmoothedParticles.NeighborList
