import SmoothedParticles.Proofs.Pairs.FilteredSearch
import SmoothedParticles.Proofs.Pairs.RowOrder

/-!
# Merging parts of a list

Parts of a list are merged row by row, by the reference points. Sorting is stable, so this gives the rows of
the whole list back, also where a row has several pairs with the same reference point.

* `eq_of_filter_key`: a sorted list is known by its members of each key.
* `merge_classes`: **the classes of a sorted list merge to the list** if members with the same key are in the
  same class.
* `mergedRows`, `merge_parts`: **parts merge to the whole list**.
-/

namespace SmoothedParticles

section Merging

variable {β γ : Type} {key : β → ℕ} {l l' : List β}

theorem mem_iff_of_filter_key (hkey : ∀ k, l.filter (fun a => key a = k) = l'.filter fun a => key a = k)
    {a : β} : a ∈ l ↔ a ∈ l' := by
  have ha := congrArg (a ∈ ·) (hkey (key a))
  simpa [List.mem_filter] using ha

/-- **A sorted list is known by its members of each key**, in order. -/
theorem eq_of_filter_key (h : l.Pairwise fun a b => key a ≤ key b)
    (h' : l'.Pairwise fun a b => key a ≤ key b)
    (hkey : ∀ k, l.filter (fun a => key a = k) = l'.filter fun a => key a = k) : l = l' := by
  induction l generalizing l' with
  | nil =>
    exact (List.eq_nil_iff_forall_not_mem.2 fun a ha =>
      List.not_mem_nil ((mem_iff_of_filter_key hkey).2 ha)).symm
  | cons a l ih =>
    cases l' with
    | nil => exact absurd ((mem_iff_of_filter_key hkey).1 List.mem_cons_self) List.not_mem_nil
    | cons b l' =>
      obtain ⟨ha, hrest⟩ := List.pairwise_cons.1 h
      obtain ⟨hb, hrest'⟩ := List.pairwise_cons.1 h'
      -- both lists begin with a member of the least key
      have hle : key a ≤ key b := by
        rcases List.mem_cons.1 ((mem_iff_of_filter_key hkey).2 List.mem_cons_self) with heq | hmem
        · rw [heq]
        · exact ha b hmem
      have hge : key b ≤ key a := by
        rcases List.mem_cons.1 ((mem_iff_of_filter_key hkey).1 List.mem_cons_self) with heq | hmem
        · rw [heq]
        · exact hb a hmem
      have hhead := hkey (key a)
      rw [List.filter_cons_of_pos (by simp), List.filter_cons_of_pos (by simpa using hge.antisymm hle)]
        at hhead
      obtain ⟨rfl, -⟩ := List.cons.inj hhead
      refine congrArg (a :: ·) (ih hrest hrest' fun k => ?_)
      have hk := hkey k
      by_cases hak : key a = k
      · rw [List.filter_cons_of_pos (by simpa using hak), List.filter_cons_of_pos (by simpa using hak)]
          at hk
        exact (List.cons.inj hk).2
      · rwa [List.filter_cons_of_neg (by simpa using hak), List.filter_cons_of_neg (by simpa using hak)]
          at hk

/-- Of lists that are empty but for one key, only that one is left. -/
theorem flatMap_ite_eq [DecidableEq γ] {ts : List γ} (hts : ts.Nodup) {t : γ} (ht : t ∈ ts) (xs : List β) :
    (ts.flatMap fun u => if u = t then xs else []) = xs := by
  have hnone : ∀ us : List γ, t ∉ us → (us.flatMap fun u => if u = t then xs else []) = [] := by
    intro us hus
    rw [List.flatMap_eq_nil_iff]
    intro u hu
    refine if_neg fun heq => hus ?_
    rw [← heq]
    exact hu
  obtain ⟨before, after, rfl⟩ := List.append_of_mem ht
  obtain ⟨-, hafter, hdisjoint⟩ := List.nodup_append.1 hts
  rw [List.flatMap_append, List.flatMap_cons, if_pos rfl, hnone before ?_,
    hnone after (List.nodup_cons.1 hafter).1, List.nil_append, List.append_nil]
  exact fun hbefore => hdisjoint t hbefore t List.mem_cons_self rfl

/-- **The classes of a sorted list merge to the list** if members with the same key are in one class. -/
theorem merge_classes [DecidableEq γ] {c : β → γ} {ts : List γ} (hts : ts.Nodup)
    (hl : l.Pairwise fun a b => key a ≤ key b) (hmem : ∀ a ∈ l, c a ∈ ts)
    (hclass : ∀ a ∈ l, ∀ b ∈ l, key a = key b → c a = c b) :
    (ts.flatMap fun t => l.filter fun a => c a = t).mergeSort (fun a b => key a ≤ key b) = l := by
  have htrans : ∀ a b d : β, decide (key a ≤ key b) = true → decide (key b ≤ key d) = true →
      decide (key a ≤ key d) = true := by
    intro a b d hab hbd
    rw [decide_eq_true_eq] at hab hbd ⊢
    exact hab.trans hbd
  have htotal : ∀ a b : β, (decide (key a ≤ key b) || decide (key b ≤ key a)) = true := by
    intro a b
    rw [Bool.or_eq_true, decide_eq_true_eq, decide_eq_true_eq]
    exact Nat.le_total _ _
  refine eq_of_filter_key ((List.pairwise_mergeSort htrans htotal _).imp of_decide_eq_true) hl
    fun k => ?_
  rw [filter_mergeSort htrans htotal, List.filter_flatMap]
  -- the members with the key are all in the class of the first one
  have hone : (ts.flatMap fun t => (l.filter fun a => c a = t).filter fun a => key a = k) =
      l.filter fun a => key a = k := by
    cases hk : l.filter fun a => key a = k with
    | nil =>
      rw [List.flatMap_eq_nil_iff]
      intro t _
      rw [List.filter_comm, hk, List.filter_nil]
    | cons b rest =>
      have hbmem : b ∈ l.filter fun a => key a = k := by
        rw [hk]
        exact List.mem_cons_self
      obtain ⟨hbl, hbk⟩ := List.mem_filter.1 hbmem
      rw [← hk, ← flatMap_ite_eq hts (hmem b hbl) (l.filter fun a => key a = k)]
      refine congrArg (ts.flatMap ·) (funext fun t => ?_)
      rw [List.filter_comm]
      have hsame : ∀ a ∈ l.filter fun a => key a = k, c a = c b := by
        intro a ha
        obtain ⟨hal, hak⟩ := List.mem_filter.1 ha
        exact hclass a hal b hbl ((of_decide_eq_true hak).trans (of_decide_eq_true hbk).symm)
      split_ifs with ht
      · exact List.filter_eq_self.2 fun a ha => decide_eq_true ((hsame a ha).trans ht.symm)
      · exact List.filter_eq_nil_iff.2 fun a ha h =>
          ht ((of_decide_eq_true h).symm.trans (hsame a ha))
  rw [hone]
  exact List.mergeSort_of_pairwise ((hl.filter _).imp decide_eq_true)

end Merging

namespace NeighborList

variable {α : Type} [Scalar α] {l : NeighborList α}

/-- **The rows of several lists merged** by their reference points. -/
def mergedRows (n : ℕ) (parts : List (NeighborList α)) : Array (List (Pair α)) :=
  Array.ofFn fun i : Fin n =>
    (parts.flatMap fun part => part.rows.getD i []).mergeSort fun p q => p.second ≤ q.second

/-- **Parts merge to the whole list**, if each pair is in one of them, and pairs of the same points are in the
same part. -/
theorem merge_parts {γ : Type} [DecidableEq γ] {c : Pair α → γ} {ts : List γ} (hl : Ordered l)
    (hts : ts.Nodup) (hmem : ∀ p ∈ l.pairs, c p ∈ ts)
    (hclass : ∀ p q : Pair α, p.first = q.first → p.second = q.second → c p = c q) :
    mergedRows l.nQuery (ts.map fun t => l.filterPart fun p => c p = t) = l.rows := by
  refine Array.ext Array.size_ofFn fun i hi hi' => ?_
  have hrow := Array.getElem?_eq_getElem hi'
  have hpart : ∀ t, (l.filterPart fun p => c p = t).rows.getD i [] =
      l.rows[i].filter fun p => c p = t := by
    intro t
    show (l.rows.map _).getD i [] = _
    rw [Array.getD_eq_getD_getElem?, Array.getElem?_map, hrow]
    rfl
  simp only [mergedRows, Array.getElem_ofFn, List.flatMap_map, hpart]
  refine merge_classes hts (hl.rows.sorted _ (Array.getElem_mem hi')) (fun p hp => ?_)
    fun p hp q hq => ?_
  · exact hmem p (mem_pairs_iff.2 ⟨i, _, hrow, hp⟩)
  · have hfirst := (hl.rows.indexed i _ hrow p hp).1.trans (hl.rows.indexed i _ hrow q hq).1.symm
    exact hclass p q hfirst

end NeighborList

end SmoothedParticles
