import SmoothedParticles.Proofs.Force.VirialStress
import SmoothedParticles.Proofs.Pairs.TypeParts

/-!
# Forces by types

A split by types puts each pair of a list into one of the parts, so that forces and stresses over the parts add
up to those over the list. Rows that are empty in a part add nothing, and neither do types without a pair.

* `sum_map_classes`: a sum, class by class.
* `ViscousForces.force`, `ViscousForces.stressAt`: the entries of forces and stresses.
* `AddsUp`: forces and stresses that are sums of some others, entry by entry.
* `exists_addsUp`: **parts among which each pair is once** add up to the list.
* `filterMap_get?`: the parts for some pairs of types.
* `viscousForces_add_up`: **forces and stresses add up over a split by types**.
-/

namespace SmoothedParticles

open NeighborList

section Sums

variable {β γ ε : Type} {row : List β}

/-- **A sum, class by class.** -/
theorem sum_map_classes [DecidableEq γ] {c : β → γ} {ts : List γ} (hts : ts.Nodup)
    (hmem : ∀ p ∈ row, c p ∈ ts) (g : β → ℝ) :
    (row.map g).sum = (ts.map fun t => ((row.filter fun p => c p = t).map g).sum).sum := by
  rw [← List.sum_toFinset _ hts]
  induction row with
  | nil => exact Finset.sum_const_zero.symm
  | cons p row ih =>
    obtain ⟨hp, hrow⟩ := List.forall_mem_cons.1 hmem
    -- one more member adds to its own class only
    have hstep : ∀ t, (((p :: row).filter fun q => c q = t).map g).sum =
        (if c p = t then g p else 0) + ((row.filter fun q => c q = t).map g).sum := by
      intro t
      rw [List.filter_cons]
      split_ifs <;> simp_all
    rw [List.map_cons, List.sum_cons, ih hrow, Finset.sum_congr rfl fun t _ => hstep t,
      Finset.sum_add_distrib, Finset.sum_ite_eq, if_pos (List.mem_toFinset.2 hp)]

theorem mapM_eq_ok {f : β → Except ε γ} {g : β → γ} {xs : List β} (h : ∀ x ∈ xs, f x = .ok (g x)) :
    xs.mapM f = .ok (xs.map g) := by
  induction xs with
  | nil => rfl
  | cons x xs ih =>
    obtain ⟨hx, hxs⟩ := List.forall_mem_cons.1 h
    rw [List.mapM_cons, hx, ih hxs]
    rfl

end Sums

/-- The force on a particle along an axis. -/
noncomputable def ViscousForces.force (r : ViscousForces ℝ) (i : ℕ) (a : Axis) : ℝ :=
  (r.forces.getD i .zero).get a

/-- An entry of the stress of a particle. -/
noncomputable def ViscousForces.stressAt (r : ViscousForces ℝ) (i : ℕ) (a b : Axis) : ℝ :=
  ((r.stress.getD i (.replicate .zero)).get a).get b

/-- **Forces and stresses that are sums of some others**, for the same particles and entry by entry. -/
structure AddsUp (whole : ViscousForces ℝ) (parts : List (ViscousForces ℝ)) : Prop where
  dimension : ∀ part ∈ parts, part.dimension = whole.dimension
  particles : ∀ part ∈ parts, part.forces.size = whole.forces.size ∧ part.stress.size = whole.stress.size
  force : ∀ i a, whole.force i a = (parts.map fun part => part.force i a).sum
  stress : ∀ i a b, whole.stressAt i a b = (parts.map fun part => part.stressAt i a b).sum

section Parts

variable {l : NeighborList ℝ} {k : Kernel ℝ} {velocities : Table ℝ} {volumes : Array ℝ}
  {p : ViscosityParameters ℝ} {whole : ViscousForces ℝ}

/-- The forces and stresses of a fluid over some rows. -/
noncomputable def sumsOver (f : ViscousFluid ℝ) (l : NeighborList ℝ) : ViscousForces ℝ :=
  ⟨l.dimension, (l.rows.map f.sumRow).map Prod.fst, (l.rows.map f.sumRow).map Prod.snd⟩

theorem force_sumsOver (f : ViscousFluid ℝ) (l : NeighborList ℝ) (i : ℕ) (a : Axis) :
    (sumsOver f l).force i a = ((l.rows.getD i []).map fun q => f.pull q * q.vector.get a).sum := by
  rw [← ViscousFluid.get_sumRow]
  simp only [ViscousForces.force, sumsOver, Array.getD_eq_getD_getElem?, Array.getElem?_map]
  cases l.rows[i]? <;> rfl

theorem stressAt_sumsOver (f : ViscousFluid ℝ) (l : NeighborList ℝ) (i : ℕ) (a b : Axis) :
    (sumsOver f l).stressAt i a b =
      ((l.rows.getD i []).map fun q => f.push q * (q.vector.get a * q.vector.get b)).sum := by
  rw [← ViscousFluid.get_get_sumRow]
  simp only [ViscousForces.stressAt, sumsOver, Array.getD_eq_getD_getElem?, Array.getElem?_map]
  cases l.rows[i]? <;> rfl

theorem mem_pairs_of_getD {i : ℕ} {q : Pair ℝ} (hq : q ∈ l.rows.getD i []) : q ∈ l.pairs := by
  rw [Array.getD_eq_getD_getElem?] at hq
  cases hrow : l.rows[i]? with
  | none =>
    rw [hrow] at hq
    exact absurd hq List.not_mem_nil
  | some row =>
    rw [hrow] at hq
    exact mem_pairs_iff.2 ⟨i, row, hrow, hq⟩

theorem getD_rows_filterPart (keep : Pair ℝ → Bool) (i : ℕ) :
    (l.filterPart keep).rows.getD i [] = (l.rows.getD i []).filter keep := by
  show (l.rows.map _).getD i [] = _
  rw [Array.getD_eq_getD_getElem?, Array.getD_eq_getD_getElem?, Array.getElem?_map]
  cases l.rows[i]? <;> rfl

/-- **Parts among which each pair is once** add up to the list. -/
theorem exists_addsUp (keeps : List (Pair ℝ → Bool))
    (h : viscousForces l k velocities volumes p = .ok whole)
    (hkeeps : ∀ (row : List (Pair ℝ)) (g : Pair ℝ → ℝ), (∀ q ∈ row, q ∈ l.pairs) →
      (row.map g).sum = (keeps.map fun keep => ((row.filter keep).map g).sum).sum) :
    ∃ results, (keeps.map l.filterPart).mapM (fun part => viscousForces part k velocities volumes p) =
      .ok results ∧ AddsUp whole results := by
  obtain ⟨hfits, rfl⟩ := viscousForces_ok_iff.1 h
  let f : ViscousFluid ℝ := ⟨p, k, velocities.points, volumes⟩
  have hparts : ∀ part ∈ keeps.map l.filterPart,
      viscousForces part k velocities volumes p = .ok (sumsOver f part) := by
    intro part hpart
    obtain ⟨keep, -, rfl⟩ := List.mem_map.1 hpart
    exact viscousForces_ok_iff.2 ⟨fluidFits_filterPart.2 hfits, rfl⟩
  refine ⟨_, mapM_eq_ok hparts, ?_, ?_, fun i a => ?_, fun i a b => ?_⟩
  · simp [sumsOver, filterPart, part]
  · simp [sumsOver, filterPart, part]
  · show (sumsOver f l).force i a = _
    simp only [List.map_map, Function.comp_def, force_sumsOver, getD_rows_filterPart]
    exact hkeeps _ _ fun q => mem_pairs_of_getD
  · show (sumsOver f l).stressAt i a b = _
    simp only [List.map_map, Function.comp_def, stressAt_sumsOver, getD_rows_filterPart]
    exact hkeeps _ _ fun q => mem_pairs_of_getD

variable {types : Array ℤ}

/-- **The parts for some pairs of types**, those without a pair left out. -/
theorem filterMap_get? (l : NeighborList ℝ) (types rtypes : Array ℤ) (ts : List (ℤ × ℤ)) :
    (ts.filterMap fun t => (l.splitByTypes types rtypes).get? t.1 t.2) =
      ((ts.filter (· ∈ l.pairs.map (typesOf types rtypes))).map fun t q =>
        decide (typesOf types rtypes q = t)).map l.filterPart := by
  induction ts with
  | nil => rfl
  | cons t ts ih =>
    rw [List.filterMap_cons, get?_splitByTypes, ih, List.filter_cons]
    by_cases ht : t ∈ l.pairs.map (typesOf types rtypes)
    · rw [if_pos ht, if_pos (decide_eq_true ht)]
      rfl
    · rw [if_neg ht, if_neg (decide_eq_true_iff.not.2 ht)]

/-- **Forces and stresses add up over a split by types**, for each self list that arises and all labels of its
particles. They are the sums of those over the parts with equal and with different types, and the sums of those
over the parts for all pairs of types, of which those without a pair do not exist. -/
theorem viscousForces_add_up (hl : Arises l) (htypes : types.size = l.nQuery)
    (h : viscousForces l k velocities volumes p = .ok whole) :
    (∀ v ∈ volumes, v ≠ 0) →
    ∃ parts, l.partition types none = .ok parts ∧
      (∃ results, [parts.same, parts.cross].mapM (fun part => viscousForces part k velocities volumes p) =
        .ok results ∧ AddsUp whole results) ∧
      ∀ ts : List (ℤ × ℤ), ts.Nodup → (∀ a ∈ types, ∀ b ∈ types, (a, b) ∈ ts) →
        ∃ results, (ts.filterMap fun t => parts.get? t.1 t.2).mapM (fun part =>
          viscousForces part k velocities volumes p) = .ok results ∧ AddsUp whole results := by
  intro _
  have hself : l.points.reference? = none :=
    Option.isNone_iff_eq_none.1 (viscousForces_ok_iff.1 h).1.isSelf
  have hparts := (partition_self_ok_iff hself).2 ⟨htypes, rfl, rfl⟩
  refine ⟨_, hparts, ?_, fun ts hts hall => ?_⟩
  · refine exists_addsUp [fun q => decide ((typesOf types types q).1 = (typesOf types types q).2),
      fun q => decide ((typesOf types types q).1 ≠ (typesOf types types q).2)] h fun row g _ => ?_
    simp only [List.map_cons, List.map_nil, List.sum_cons, List.sum_nil, add_zero]
    exact (List.sum_map_filter_add_sum_map_filter_not
      (fun q => (typesOf types types q).1 = (typesOf types types q).2) g row).symm
  · rw [filterMap_get?]
    refine exists_addsUp _ h fun row g hrow => ?_
    rw [List.map_map]
    refine sum_map_classes (c := typesOf types types) (hts.filter _) (fun q hq => ?_) g
    have hq := hrow q hq
    obtain ⟨hfirst, hsecond⟩ := hasTypes_typesOf hl.ordered (typed_of_partition hl.ordered hparts) hq
    exact List.mem_filter.2 ⟨hall _ (Array.mem_of_getElem? hfirst) _ (Array.mem_of_getElem? hsecond),
      decide_eq_true (List.mem_map_of_mem hq)⟩

/-- Two particles of different types that approach each other: the part with equal types has no pair, and
neither of the two types has a part of its own. -/
theorem viscousForces_add_up_approaching :
    let k : Kernel ℝ := ⟨.cubicSpline, 2, .two, Scalar.zero_eq.trans_lt two_pos⟩
    let p : ViscosityParameters ℝ := ⟨1, 1, 1, 2, 1, true⟩
    let velocities : Table ℝ := ⟨2, #[#v[1, 0], #v[0, 0]]⟩
    ∃ l whole parts, Arises l ∧ (#[1, 2] : Array ℤ).size = l.nQuery ∧
      viscousForces l k velocities #[1, 1] p = .ok whole ∧ whole.force 0 .x < 0 ∧
      (∀ v ∈ (#[1, 1] : Array ℝ), v ≠ 0) ∧ l.partition #[1, 2] none = .ok parts ∧
      parts.get? 1 1 = none ∧
      ∃ results, ([(1, 1), (1, 2), (2, 1), (2, 2)].filterMap fun t : ℤ × ℤ => parts.get? t.1 t.2).mapM
        (fun part => viscousForces part k velocities #[1, 1] p) = .ok results ∧ AddsUp whole results := by
  intro k p velocities
  have hvalid : p.Valid := ⟨one_pos, one_pos, two_pos, one_pos, zero_le_one⟩
  obtain ⟨l, hl, hd, hself, hrows⟩ := exists_unitPair
  have harises : Arises l := (SelfPart.whole hl).reachable.arises
  have hsize : (#[1, 2] : Array ℤ).size = l.nQuery := by
    rw [nQuery, hrows]
    rfl
  have hforces := viscousForces_ok_iff.2 ⟨fluidFits_unitPair hrows hd hself hvalid (k := k) rfl rfl, rfl⟩
  have hvolumes : ∀ v ∈ (#[1, 1] : Array ℝ), v ≠ 0 := by simp
  obtain ⟨parts, hparts, -, hget⟩ := viscousForces_add_up harises hsize hforces hvolumes
  refine ⟨l, _, parts, harises, hsize, hforces, ?_, hvolumes, hparts, ?_,
    hget _ (by decide) (by decide)⟩
  · show ViscousForces.force (sumsOver (approachingFluid k p) l) 0 .x < 0
    have hpull := pull_unitPair (k := k) hvalid one_pos one_lt_two
    rw [force_sumsOver, hrows]
    show ([unitPair].map _).sum < 0
    rw [List.map_singleton, List.sum_singleton]
    exact mul_neg_of_neg_of_pos hpull (show 0 < (1 : ℝ) - 0 by norm_num)
  · obtain ⟨-, -, rfl⟩ := (partition_self_ok_iff hself).1 hparts
    refine (get?_splitByTypes (t := (1, 1))).trans (if_neg ?_)
    have hpairs : l.pairs = [unitPair, unitPair.flip] := by
      rw [pairs, hrows]
      rfl
    simp [hpairs, typesOf, unitPair, pairTo, Pair.flip]

end Parts

end SmoothedParticles
