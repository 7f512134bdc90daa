import Mathlib
import SmoothedParticles.Pairs.Search

/-!
# Searches that keep some pairs

A search can keep fewer pairs than another one. Its rows are those of the other one without the pairs that
it does not keep, in any arithmetic: the condition is looked at for each candidate alone, and the rows are
sorted stably.

* `filter_mergeSort`: leaving out members of a list and sorting it stably commute.
* `Search.restrict`: the search that keeps only pairs with a condition.
* `hit?_restrict`, `rowOf_restrict`: its hits.
* `run_restrict`: **its rows are those of the whole search without some pairs**, by pairs and by cells.
-/

namespace SmoothedParticles

section Sorting

variable {β : Type} {le : β → β → Bool} {keep : β → Bool}

/-- A list is split in one way only into members without a property and members with it. -/
theorem append_inj_of_split {q : β → Bool} {l₁ l₂ m₁ m₂ : List β} (h : l₁ ++ l₂ = m₁ ++ m₂)
    (hl₁ : ∀ b ∈ l₁, q b = false) (hl₂ : ∀ b ∈ l₂, q b = true) (hm₁ : ∀ b ∈ m₁, q b = false)
    (hm₂ : ∀ b ∈ m₂, q b = true) : l₁ = m₁ ∧ l₂ = m₂ := by
  have hlast : l₂ = m₂ := by
    have hfilter := congrArg (List.filter q) h
    rw [List.filter_append, List.filter_append, List.filter_eq_self.2 hl₂, List.filter_eq_self.2 hm₂,
      List.filter_eq_nil_iff.2 fun b hb => Bool.not_eq_true _ ▸ hl₁ b hb,
      List.filter_eq_nil_iff.2 fun b hb => Bool.not_eq_true _ ▸ hm₁ b hb] at hfilter
    exact hfilter
  rw [hlast] at h
  exact ⟨List.append_cancel_right h, hlast⟩

/-- **Leaving out members of a list and sorting it stably commute.** -/
theorem filter_mergeSort (htrans : ∀ a b c, le a b = true → le b c = true → le a c = true)
    (htotal : ∀ a b, (le a b || le b a) = true) (l : List β) :
    (l.mergeSort le).filter keep = (l.filter keep).mergeSort le := by
  induction l with
  | nil => rw [List.mergeSort_nil, List.filter_nil, List.mergeSort_nil]
  | cons a l ih =>
    -- the first member goes after those that have to be before it, and before all others
    obtain ⟨l₁, l₂, hsort, hrest, hbefore⟩ := List.mergeSort_cons htrans htotal a l
    rw [hrest, List.filter_append] at ih
    cases hkeep : keep a with
    | false =>
      have hnot : ¬keep a = true := by rw [hkeep]; exact Bool.false_ne_true
      rw [hsort, List.filter_append, List.filter_cons_of_neg hnot, List.filter_cons_of_neg hnot, ih]
    | true =>
      obtain ⟨m₁, m₂, hsort', hrest', hbefore'⟩ :=
        List.mergeSort_cons htrans htotal a (l.filter keep)
      have hafter : ∀ b ∈ l₂, le a b = true := by
        have h := List.pairwise_mergeSort htrans htotal (a :: l)
        rw [hsort] at h
        exact (List.pairwise_cons.1 (List.pairwise_append.1 h).2.1).1
      have hafter' : ∀ b ∈ m₂, le a b = true := by
        have h := List.pairwise_mergeSort htrans htotal (a :: l.filter keep)
        rw [hsort'] at h
        exact (List.pairwise_cons.1 (List.pairwise_append.1 h).2.1).1
      rw [hrest'] at ih
      obtain ⟨h₁, h₂⟩ := append_inj_of_split ih
        (fun b hb => by simpa using hbefore b (List.mem_of_mem_filter hb))
        (fun b hb => hafter b (List.mem_of_mem_filter hb))
        (fun b hb => by simpa using hbefore' b hb) hafter'
      rw [hsort, List.filter_append, List.filter_cons_of_pos hkeep, List.filter_cons_of_pos hkeep, h₁,
        h₂, hsort']

/-- A value that is there on a condition, and kept on another one. -/
theorem filter_ite_some {p q : Prop} [Decidable p] [Decidable q] {b : β}
    (h : q ↔ p ∧ keep b = true) :
    (if q then some b else none) = (if p then some b else none).filter keep := by
  by_cases hp : p
  · rw [if_pos hp, Option.filter_some]
    exact if_congr (h.trans (and_iff_right hp)) rfl rfl
  · rw [if_neg hp, if_neg fun hq => hp (h.1 hq).1, Option.filter_none]

end Sorting

namespace Search

variable {α : Type} [Scalar α]

/-- The search that keeps only pairs with a condition. -/
def restrict (s : Search α) (keep : ℕ → ℕ → Bool) : Search α :=
  { s with keep := fun i j => s.keep i j && keep i j }

/-- A hit is kept by its two indexes. -/
theorem hit?_restrict (s : Search α) (keep : ℕ → ℕ → Bool) (i : ℕ) (p : Vec3 α) (j : ℕ) (q : Vec3 α) :
    (s.restrict keep).hit? i p j q = (s.hit? i p j q).filter fun h => keep i h.second := by
  unfold hit? restrict
  cases s.identity with
  | none => exact filter_ite_some (by simp only [Bool.and_eq_true, and_assoc])
  | some selfPairs =>
    by_cases hij : i = j
    · simp only [decide_eq_true hij]
      exact filter_ite_some (by simp only [Bool.and_eq_true, and_assoc])
    · simp only [decide_eq_false hij]
      exact filter_ite_some (by simp only [Bool.and_eq_true, and_assoc])

theorem rowOf_restrict (s : Search α) (keep : ℕ → ℕ → Bool) (i : ℕ) (p : Vec3 α) (js : List ℕ) :
    (s.restrict keep).rowOf i p js = (s.rowOf i p js).filter fun h => keep i h.second := by
  unfold rowOf
  rw [List.filter_filterMap]
  refine congrArg (js.filterMap ·) (funext fun j => ?_)
  show s.reference[j]?.bind ((s.restrict keep).hit? i p j) = _
  cases s.reference[j]? with
  | none => rfl
  | some q => exact s.hit?_restrict keep i p j q

theorem rowByCells_restrict (s : Search α) (keep : ℕ → ℕ → Bool) (cells : Cells α) (i : ℕ)
    (p : Vec3 α) :
    (s.restrict keep).rowByCells cells i p = (s.rowByCells cells i p).filter fun h => keep i h.second := by
  unfold rowByCells
  rw [rowOf_restrict, filter_mergeSort]
  · intro a b c hab hbc
    rw [decide_eq_true_eq] at hab hbc ⊢
    exact hab.trans hbc
  · intro a b
    rw [Bool.or_eq_true, decide_eq_true_eq, decide_eq_true_eq]
    exact Nat.le_total _ _

/-- **The rows of a search that keeps fewer pairs** are those of the whole search without the pairs that
it does not keep. -/
theorem run_restrict (s : Search α) (keep : ℕ → ℕ → Bool) (d : Dimension) (query : Array (Vec3 α)) :
    (s.restrict keep).run d query = (s.run d query).map fun rows =>
      rows.mapIdx fun i row => row.filter fun h => keep i h.second := by
  unfold run
  show (if query.size * s.reference.size ≤ maxPairs then _ else
    Cells.build d s.reference s.cutoff >>= _) = _
  split_ifs
  · show Except.ok (query.mapIdx (s.restrict keep).rowByPairs) =
      Except.ok ((query.mapIdx s.rowByPairs).mapIdx fun i row => row.filter fun h => keep i h.second)
    rw [Array.mapIdx_mapIdx]
    exact congrArg (Except.ok <| query.mapIdx ·) (funext fun i => funext fun p =>
      s.rowOf_restrict keep i p _)
  · show (Cells.build d s.reference s.cutoff >>= fun cells =>
      pure (query.mapIdx ((s.restrict keep).rowByCells cells))) = _
    cases Cells.build d s.reference s.cutoff with
    | error e => rfl
    | ok cells =>
      show Except.ok (query.mapIdx ((s.restrict keep).rowByCells cells)) =
        Except.ok ((query.mapIdx (s.rowByCells cells)).mapIdx fun i row =>
          row.filter fun h => keep i h.second)
      rw [Array.mapIdx_mapIdx]
      exact congrArg (Except.ok <| query.mapIdx ·) (funext fun i => funext fun p =>
        s.rowByCells_restrict keep cells i p)

end Search

end SmoothedParticles
