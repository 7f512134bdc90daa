import SmoothedParticles.Proofs.Pairs.CellCover
import SmoothedParticles.Proofs.Report.Results
import SmoothedParticles.Pairs.Search

/-!
# Both ways of searching find the same

A search looks at all pairs if there are few, and at cells otherwise. In exact arithmetic this makes
no difference: each row lists the close reference points, in order.

* `Search.Close`: the reference points that a row has to list.
* `Search.Aligned`: what a search relies on if points are compared with themselves.
* `exists_hit_of_run`, `indexes_of_run`, `pairwise_of_run`: the rows of a search are those of its query
  points, have hits only, and are sorted.
* `hit?_eq`: a hit and its data, in closed form.
* `rowByCells_eq`: a look at the cells gives the same row as a look at all points.
* `run_eq`, `mem_rowByPairs_iff`: what a search returns, and the hits of a row.
* `search_rows_exact`: **the rows are exact on both ways**, and the cells hold each point once.
-/

namespace SmoothedParticles.Search

/-- Is a reference point, given by its index and its position, one of those to find? -/
def Close (s : Search ℝ) (i : ℕ) (p : Vec3 ℝ) (j : ℕ) (q : Vec3 ℝ) : Prop :=
  s.keep i j = true ∧ ((q - p).norm2 < s.cutoff * s.cutoff ∨ (i = j ∧ s.identity = some true)) ∧
    ¬(i = j ∧ s.identity = some false)

/-- **The precondition of a search**: if it is told that points are compared with themselves, a query point and
the reference point with its index are at the same position. -/
def Aligned (s : Search ℝ) (query : Array (Vec3 ℝ)) : Prop :=
  s.identity = some true →
    ∀ (i : ℕ) p q, query[i]? = some p → s.reference[i]? = some q → p = q

section Rows

variable {α : Type} [Scalar α] {s : Search α} {i j : ℕ} {p q : Vec3 α} {h : Hit α}

theorem second_of_hit (hh : s.hit? i p j q = some h) : h.second = j := by
  unfold hit? at hh
  split at hh
  · split at hh <;> simp_all
    rw [← hh]
  · dsimp only at hh
    split at hh <;> simp_all
    rw [← hh]

theorem mem_rowOf {js : List ℕ} : h ∈ s.rowOf i p js ↔
    ∃ j ∈ js, ∃ q, s.reference[j]? = some q ∧ s.hit? i p j q = some h := by
  simp [rowOf, Option.bind_eq_some_iff]

/-- A row lists reference points in the order in which they are looked at. -/
theorem seconds_sublist (s : Search α) (i : ℕ) (p : Vec3 α) (js : List ℕ) :
    ((s.rowOf i p js).map Hit.second).Sublist js := by
  induction js with
  | nil => exact List.Sublist.refl _
  | cons j js ih =>
    unfold rowOf at ih ⊢
    rw [List.filterMap_cons]
    split
    · exact ih.cons j
    · rename_i h hh
      obtain ⟨q, -, hq⟩ := Option.bind_eq_some_iff.1 hh
      rw [List.map_cons, second_of_hit hq]
      exact ih.cons_cons j

/-- **A row is strictly sorted** by the reference points. -/
theorem pairwise_rowByPairs (s : Search α) (i : ℕ) (p : Vec3 α) :
    (s.rowByPairs i p).Pairwise fun g h => g.second < h.second := by
  rw [← List.pairwise_map]
  exact List.pairwise_lt_range.sublist (seconds_sublist s i p _)

/-- Hits found by cells are sorted afterwards. -/
theorem pairwise_rowByCells (s : Search α) (cells : Cells α) (i : ℕ) (p : Vec3 α) :
    (s.rowByCells cells i p).Pairwise fun g h => g.second ≤ h.second := by
  have h := @List.pairwise_mergeSort _ (fun g h : Hit α => decide (g.second ≤ h.second))
    (fun a b c h1 h2 => by simp only [decide_eq_true_eq] at *; omega)
    (fun a b => by simp only [Bool.or_eq_true, decide_eq_true_eq]; omega)
    (s.rowOf i p (cells.candidates p))
  exact h.imp of_decide_eq_true

theorem mem_rowByPairs : h ∈ s.rowByPairs i p ↔
    ∃ j q, s.reference[j]? = some q ∧ s.hit? i p j q = some h := by
  unfold rowByPairs
  rw [mem_rowOf]
  constructor
  · intro h
    obtain ⟨j, -, q, hq, hh⟩ := h
    exact ⟨j, q, hq, hh⟩
  · intro h
    obtain ⟨j, q, hq, hh⟩ := h
    exact ⟨j, List.mem_range.2 (Array.getElem?_eq_some_iff.1 hq).1, q, hq, hh⟩

/-- Looking at other points makes no difference for the hits, as long as no hit is missed. -/
theorem rowOf_perm {js : List ℕ} (hjs : js.Nodup) (hlt : ∀ j ∈ js, j < s.reference.size)
    (hall : ∀ j q h, s.reference[j]? = some q → s.hit? i p j q = some h → j ∈ js) :
    (s.rowOf i p js).Perm (s.rowByPairs i p) := by
  -- looking at the points of `js` in order gives the same hits
  have hperm : js.Perm ((List.range s.reference.size).filter (· ∈ js)) := by
    rw [List.perm_ext_iff_of_nodup hjs (List.nodup_range.filter _)]
    intro j
    simpa using hlt j
  refine (hperm.filterMap _).trans (.of_eq ?_)
  unfold rowByPairs rowOf
  rw [List.filterMap_filter]
  apply List.filterMap_congr
  intro j _
  by_cases hj : j ∈ js
  · simp [hj]
  · simp only [hj, decide_false, Bool.false_eq_true, if_false]
    symm
    rw [Option.bind_eq_none_iff]
    intro q hq
    cases hh : s.hit? i p j q with
    | none => rfl
    | some h => exact absurd (hall j q h hq hh) hj

/-- **A search returns hits only**, on both ways. -/
theorem exists_hit_of_run {d : Dimension} {query : Array (Vec3 α)} {hits : Array (List (Hit α))}
    (h : s.run d query = .ok hits) {row : List (Hit α)} (hrow : row ∈ hits) {hit : Hit α}
    (hhit : hit ∈ row) : ∃ i p j q, s.reference[j]? = some q ∧ s.hit? i p j q = some hit := by
  have hrowOf : ∀ i p js, hit ∈ s.rowOf i p js →
      ∃ i p j q, s.reference[j]? = some q ∧ s.hit? i p j q = some hit := by
    intro i p js hhit
    obtain ⟨j, -, q, hq, hhit⟩ := mem_rowOf.1 hhit
    exact ⟨i, p, j, q, hq, hhit⟩
  unfold run at h
  split_ifs at h
  · rw [← Except.ok.inj h] at hrow
    obtain ⟨i, hi, rfl⟩ := Array.mem_mapIdx.1 hrow
    exact hrowOf _ _ _ hhit
  · obtain ⟨cells, -, h⟩ := bind_eq_ok_iff.1 h
    rw [← Except.ok.inj h] at hrow
    obtain ⟨i, hi, rfl⟩ := Array.mem_mapIdx.1 hrow
    exact hrowOf _ _ _ (List.mem_mergeSort.1 hhit)

/-- **A search returns a row for each query point**, of hits on reference points. -/
theorem indexes_of_run {d : Dimension} {query : Array (Vec3 α)} {hits : Array (List (Hit α))}
    (h : s.run d query = .ok hits) :
    hits.size = query.size ∧ ∀ row ∈ hits, ∀ hit ∈ row, hit.second < s.reference.size := by
  refine ⟨?_, fun row hrow hit hhit => ?_⟩
  · unfold run at h
    split_ifs at h
    · rw [← Except.ok.inj h, Array.size_mapIdx]
    · obtain ⟨cells, -, h⟩ := bind_eq_ok_iff.1 h
      rw [← Except.ok.inj h, Array.size_mapIdx]
  · obtain ⟨i, p, j, q, hq, hhit⟩ := exists_hit_of_run h hrow hhit
    rw [second_of_hit hhit]
    exact (Array.getElem?_eq_some_iff.1 hq).1

/-- **The rows of a search are sorted** by the reference points, on both ways. -/
theorem pairwise_of_run {d : Dimension} {query : Array (Vec3 α)} {hits : Array (List (Hit α))}
    (h : s.run d query = .ok hits) :
    ∀ row ∈ hits, row.Pairwise fun g h => g.second ≤ h.second := by
  unfold run at h
  split_ifs at h
  · rw [← Except.ok.inj h]
    intro row hrow
    obtain ⟨i, hi, rfl⟩ := Array.mem_mapIdx.1 hrow
    exact (pairwise_rowByPairs s i _).imp le_of_lt
  · obtain ⟨cells, -, h⟩ := bind_eq_ok_iff.1 h
    rw [← Except.ok.inj h]
    intro row hrow
    obtain ⟨i, hi, rfl⟩ := Array.mem_mapIdx.1 hrow
    exact pairwise_rowByCells s cells i _

end Rows

variable {s : Search ℝ} {d : Dimension} {query : Array (Vec3 ℝ)} {i j : ℕ} {p q : Vec3 ℝ}

open Classical in
/-- **A hit in closed form**, of a point on itself too. -/
theorem hit?_eq (hself : s.identity = some true → i = j → p = q) :
    s.hit? i p j q = if s.Close i p j q then some ⟨j, (q - p).norm, q - p⟩ else none := by
  unfold hit? Close
  by_cases hij : i = j
  · rcases hid : s.identity with - | b
    · simp [hij, Vec3.norm, and_comm]
    cases b with
    | false => simp [hij]
    | true =>
      have hz : q - p = .zero := by
        rw [hself hid hij]
        exact Vec3.ext_get fun a => by simp
      have hn : (Vec3.zero : Vec3 ℝ).norm = 0 := Vec3.norm_zero
      simp [hij, hz, hn]
  · simp [hij, Vec3.norm, and_comm]

theorem near_of_close (hc : 0 < s.cutoff) (hself : s.identity = some true → i = j → p = q)
    (h : s.Close i p j q) (a : Axis) : |q.get a - p.get a| < s.cutoff := by
  obtain ⟨-, h | ⟨hij, hid⟩, -⟩ := h
  · simpa using Vec3.abs_get_lt_of_norm2_lt hc h a
  · rw [hself hid hij, sub_self, abs_zero]
    exact hc

/-- **A look at the cells gives the same row** as a look at all reference points. -/
theorem rowByCells_eq {cells : Cells ℝ} (hc : 0 < s.cutoff)
    (hcov : cells.Covers s.reference s.cutoff) (hin : cells.Holds s.reference)
    (hself : ∀ q, s.identity = some true → s.reference[i]? = some q → p = q) :
    s.rowByCells cells i p = s.rowByPairs i p := by
  have hperm : (s.rowOf i p (cells.candidates p)).Perm (s.rowByPairs i p) := by
    refine rowOf_perm (Cells.nodup_candidates hin p) (fun j hj => ?_) fun j q h hq hh => ?_
    · obtain ⟨c, hj, -⟩ := Cells.mem_candidates.1 hj
      obtain ⟨q, hq, -⟩ := (hin.mem_bucket c j).1 hj
      exact (Array.getElem?_eq_some_iff.1 hq).1
    · have hpq : s.identity = some true → i = j → p = q := fun hid hij => hself q hid (hij ▸ hq)
      rw [hit?_eq hpq, Option.ite_none_right_eq_some] at hh
      exact Cells.mem_candidates_of_near hcov hin hq (near_of_close hc hpq hh.1)
  -- sorting a permutation of a sorted row gives that row back
  have hsorted := pairwise_rowByPairs s i p
  unfold rowByCells
  refine @List.Perm.eq_of_pairwise _ (fun g h => g.second ≤ h.second) _ _ ?_ ?_
    (hsorted.imp fun h => h.le) ((List.mergeSort_perm _ _).trans hperm)
  · intro g h hg hh h1 h2
    -- two hits with the same reference point are the same hit
    have hg := hperm.subset ((List.mergeSort_perm _ _).subset hg)
    obtain ⟨j, q, hq, hg⟩ := mem_rowByPairs.1 hg
    obtain ⟨k, r, hr, hh⟩ := mem_rowByPairs.1 hh
    have hjk : j = k := by
      rw [← second_of_hit hg, ← second_of_hit hh]
      exact le_antisymm h1 h2
    subst hjk
    rw [hq, Option.some_inj] at hr
    subst hr
    rw [hg, Option.some_inj] at hh
    exact hh
  · exact pairwise_rowByCells s cells i p

theorem mapIdx_rowByCells {cells : Cells ℝ} (hc : 0 < s.cutoff)
    (hcov : cells.Covers s.reference s.cutoff) (hin : cells.Holds s.reference)
    (hal : s.Aligned query) : query.mapIdx (s.rowByCells cells) = query.mapIdx s.rowByPairs := by
  apply Array.ext_getElem?
  intro i
  rw [Array.getElem?_mapIdx, Array.getElem?_mapIdx]
  cases hp : query[i]? with
  | none => rfl
  | some p =>
    rw [Option.map_some, Option.map_some,
      rowByCells_eq hc hcov hin fun q hid hq => hal hid i p q hp hq]

/-- **What a search returns**, on both ways. -/
theorem run_eq (d : Dimension) (hc : 0 < s.cutoff) (hal : s.Aligned query) :
    s.run d query = .ok (query.mapIdx s.rowByPairs) := by
  obtain ⟨cells, hb, hcov, hin⟩ := Cells.build_ok d s.reference hc
  unfold run
  split
  · rfl
  · rw [hb]
    show Except.ok _ = Except.ok _
    rw [mapIdx_rowByCells hc hcov hin hal]

/-- A close point is closer than the cutoff, itself included, unless it is not to be found. -/
theorem close_iff (hc : 0 < s.cutoff) (hself : s.identity = some true → i = j → p = q) :
    s.Close i p j q ↔
      s.keep i j = true ∧ (q - p).norm < s.cutoff ∧ (i = j → s.identity ≠ some false) := by
  have hzero : i = j → s.identity = some true → (q - p).norm < s.cutoff := by
    intro hij hid
    have hz : q - p = .zero := Vec3.ext_get fun a => by simp [hself hid hij]
    rw [hz, Vec3.norm_zero]
    exact hc
  unfold Close
  rw [Vec3.norm_lt_iff hc, not_and] at *
  constructor
  · intro h
    obtain ⟨hk, hnear | ⟨hij, hid⟩, hne⟩ := h
    · exact ⟨hk, hnear, hne⟩
    · exact ⟨hk, hzero hij hid, hne⟩
  · intro h
    obtain ⟨hk, hnear, hne⟩ := h
    exact ⟨hk, .inl hnear, hne⟩

/-- **The hits of a row.** -/
theorem mem_rowByPairs_iff {h : Hit ℝ} (hc : 0 < s.cutoff)
    (hself : ∀ q, s.identity = some true → s.reference[i]? = some q → p = q) :
    h ∈ s.rowByPairs i p ↔ ∃ q, s.reference[h.second]? = some q ∧ s.keep i h.second = true ∧
      (q - p).norm < s.cutoff ∧ (i = h.second → s.identity ≠ some false) ∧
      h = ⟨h.second, (q - p).norm, q - p⟩ := by
  have hhit : ∀ j q, s.reference[j]? = some q → s.identity = some true → i = j → p = q :=
    fun j q hq hid hij => hself q hid (hij ▸ hq)
  rw [mem_rowByPairs]
  constructor
  · intro h
    obtain ⟨j, q, hq, hh⟩ := h
    have hj := second_of_hit hh
    subst hj
    rw [hit?_eq (hhit _ q hq), Option.ite_none_right_eq_some, close_iff hc (hhit _ q hq)] at hh
    obtain ⟨⟨hk, hnear, hne⟩, heq⟩ := hh
    exact ⟨q, hq, hk, hnear, hne, (Option.some.inj heq).symm⟩
  · rintro ⟨q, hq, hk, hnear, hne, heq⟩
    refine ⟨h.second, q, hq, ?_⟩
    rw [hit?_eq (hhit _ q hq), if_pos ((close_iff hc (hhit _ q hq)).2 ⟨hk, hnear, hne⟩), ← heq]

/-- The reference points of a row are the close ones. -/
theorem mem_seconds_iff (hself : ∀ q, s.identity = some true → s.reference[i]? = some q → p = q) :
    j ∈ (s.rowByPairs i p).map Hit.second ↔ ∃ q, s.reference[j]? = some q ∧ s.Close i p j q := by
  have hhit : ∀ q, s.reference[j]? = some q → s.identity = some true → i = j → p = q :=
    fun q hq hid hij => hself q hid (hij ▸ hq)
  rw [List.mem_map]
  constructor
  · intro h
    obtain ⟨h, hh, rfl⟩ := h
    obtain ⟨j, q, hq, hh⟩ := mem_rowByPairs.1 hh
    have hj := second_of_hit hh
    subst hj
    rw [hit?_eq (hhit q hq), Option.ite_none_right_eq_some] at hh
    exact ⟨q, hq, hh.1⟩
  · intro h
    obtain ⟨q, hq, hcl⟩ := h
    refine ⟨⟨j, (q - p).norm, q - p⟩, mem_rowByPairs.2 ⟨j, q, hq, ?_⟩, rfl⟩
    rw [hit?_eq (hhit q hq), if_pos hcl]

/-- **A search finds the same on both ways**, at any positions of the points that meet its precondition, which
`aligned_directSearch` and `aligned_periodicSearch` prove of the searches that lists are built with. Each row
lists the close reference points in order, and the cells hold each reference point once and offer it at most
once. -/
theorem search_rows_exact (s : Search ℝ) (d : Dimension) (query : Array (Vec3 ℝ))
    (hc : 0 < s.cutoff) (hal : s.Aligned query) :
    ∃ cells, Cells.build d s.reference s.cutoff = .ok cells ∧
      query.mapIdx (s.rowByCells cells) = query.mapIdx s.rowByPairs ∧
      s.run d query = .ok (query.mapIdx s.rowByPairs) ∧
      (∀ (i : ℕ) p, query[i]? = some p →
        ((s.rowByPairs i p).map Hit.second).Pairwise (· < ·) ∧
        ∀ j, j ∈ (s.rowByPairs i p).map Hit.second ↔
          ∃ q, s.reference[j]? = some q ∧ s.Close i p j q) ∧
      (∀ j < s.reference.size, ∃ c : Vec3 ℕ, (∀ a, c.get a < cells.counts.get a) ∧
        ∀ c', (cells.bucket c').count j = if c' = c then 1 else 0) ∧
      ∀ q, (cells.candidates q).Nodup := by
  obtain ⟨cells, hb, hcov, hin⟩ := Cells.build_ok d s.reference hc
  refine ⟨cells, hb, mapIdx_rowByCells hc hcov hin hal, run_eq d hc hal,
    fun i p hp => ⟨?_, fun j => ?_⟩, fun j hj => ?_, Cells.nodup_candidates hin⟩
  · exact List.pairwise_map.2 (pairwise_rowByPairs s i p)
  · exact mem_seconds_iff fun q hid hq => hal hid i p q hp hq
  · exact Cells.exists_cell hcov hin hj

/-- Two points at the same place, on the upper face of the box around the points, are found from
outside of it. -/
theorem search_rows_exact_upper_face :
    let s : Search ℝ := ⟨#[⟨0, 0, 0⟩, ⟨3, 0, 0⟩, ⟨3, 0, 0⟩], 1, some true, fun _ _ => true⟩
    let query : Array (Vec3 ℝ) := #[⟨0, 0, 0⟩, ⟨3, 0, 0⟩, ⟨3, 0, 0⟩, ⟨7 / 2, 0, 0⟩]
    0 < s.cutoff ∧ s.Aligned query ∧ ∃ cells, Cells.build .two s.reference s.cutoff = .ok cells ∧
      (s.rowByCells cells 3 ⟨7 / 2, 0, 0⟩).map Hit.second = [1, 2] := by
  intro s query
  have hc : 0 < s.cutoff := one_pos
  have hal : s.Aligned query := by
    rintro - i p q hp hq
    have hi : i < 3 := (Array.getElem?_eq_some_iff.1 hq).1
    interval_cases i <;> simp_all [s, query]
  obtain ⟨cells, hb, hrows, -⟩ := search_rows_exact s .two query hc hal
  refine ⟨hc, hal, cells, hb, ?_⟩
  have hrow : s.rowByCells cells 3 ⟨7 / 2, 0, 0⟩ = s.rowByPairs 3 ⟨7 / 2, 0, 0⟩ := by
    have h := congrArg (·[3]?) hrows
    simpa [Array.getElem?_mapIdx, query] using h
  rw [hrow]
  -- the first point is too far away, and the other two are half of the cutoff away
  have hfar : ¬s.Close 3 ⟨7 / 2, 0, 0⟩ 0 ⟨0, 0, 0⟩ := by
    intro h
    rcases h with ⟨-, h | ⟨h, -⟩, -⟩
    · rw [Vec3.norm2_sub_plane] at h
      norm_num [s] at h
    · omega
  have hnear : ∀ j < 3, s.Close 3 ⟨7 / 2, 0, 0⟩ j ⟨3, 0, 0⟩ := by
    intro j hj
    refine ⟨rfl, .inl ?_, fun h => by omega⟩
    rw [Vec3.norm2_sub_plane]
    norm_num [s]
  have hself : ∀ (j : ℕ) (p q : Vec3 ℝ), j < 3 → s.identity = some true → 3 = j → p = q := by
    intro j p q hj _ h
    omega
  have h0 := (hit?_eq (hself 0 _ _ (by omega))).trans (if_neg hfar)
  have h1 := (hit?_eq (hself 1 _ _ (by omega))).trans (if_pos (hnear 1 (by omega)))
  have h2 := (hit?_eq (hself 2 _ _ (by omega))).trans (if_pos (hnear 2 (by omega)))
  have hrange : List.range s.reference.size = [0, 1, 2] := rfl
  rw [rowByPairs, rowOf, hrange]
  simp [s, h0, h1, h2]

end SmoothedParticles.Search
