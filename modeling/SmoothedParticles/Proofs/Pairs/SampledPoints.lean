import SmoothedParticles.Proofs.Pairs.UpdateRuns

/-!
# Which points an update looks at

An update looks at some points only, at equal steps from the first one on. The step is rounded down to a whole
number, and no more points are looked at than samples were asked for. So the last points are left out if the
number of samples does not divide the number of points, and these can be almost half of all points.

* `mem_sampledIndexes_iff`: the indexes that are sampled.
* `sampledIndexes_eq_range`: with as many samples as points, these are all indexes.
* `every_run_sampled_iff`: **how long a run of indexes has to be** to contain a sampled one for sure.
* `displacement_congr`: where the other points are does not matter.
* `sampledIndexes_spread_iff`: **when the samples are spread** over all indexes.
* `unsampled_tail`: four of ten points that can move anywhere.
-/

namespace SmoothedParticles

/-- The step from one sampled index to the next. -/
def sampleStep (n samples : ℕ) : ℕ := max (n / samples) 1

variable {n samples i length : ℕ}

theorem sampleStep_pos : 0 < sampleStep n samples := lt_of_lt_of_le one_pos (le_max_right _ _)

theorem sampleStep_of_le (hs : 0 < samples) (hn : samples ≤ n) : sampleStep n samples = n / samples :=
  max_eq_left (Nat.div_pos hn hs)

/-- **The sampled indexes** are the first multiples of the step. -/
theorem mem_sampledIndexes_iff :
    i ∈ sampledIndexes n samples ↔ ∃ k < samples, k * sampleStep n samples = i ∧ i < n := by
  have hstep : ∀ k, k < (n + sampleStep n samples - 1) / sampleStep n samples ↔
      k * sampleStep n samples < n := by
    intro k
    rw [Nat.lt_div_iff_mul_lt sampleStep_pos]
    have hpos := @sampleStep_pos n samples
    omega
  show i ∈ (List.range (min samples ((n + sampleStep n samples - 1) / sampleStep n samples))).map
    (· * sampleStep n samples) ↔ _
  simp only [List.mem_map, List.mem_range, lt_min_iff, hstep]
  constructor
  · rintro ⟨k, ⟨hk, hn⟩, rfl⟩
    exact ⟨k, hk, rfl, hn⟩
  · rintro ⟨k, hk, rfl, hn⟩
    exact ⟨k, ⟨hk, hn⟩, rfl⟩

/-- The sampled indexes follow each other in order. -/
theorem pairwise_sampledIndexes : (sampledIndexes n samples).Pairwise (· < ·) :=
  List.pairwise_map.2 (List.pairwise_lt_range.imp fun h => Nat.mul_lt_mul_of_pos_right h sampleStep_pos)

theorem length_sampledIndexes_le : (sampledIndexes n samples).length ≤ samples := by
  rw [sampledIndexes, List.length_map, List.length_range]
  exact min_le_left _ _

/-- **With as many samples as points**, all indexes are sampled. -/
theorem sampledIndexes_eq_range (hn : n ≤ samples) : sampledIndexes n samples = List.range n := by
  refine pairwise_sampledIndexes.eq_of_mem_iff List.pairwise_lt_range fun i => ?_
  rw [List.mem_range]
  exact ⟨NeighborList.lt_of_mem_sampledIndexes, NeighborList.mem_sampledIndexes hn⟩

/-- **How long a run of indexes has to be** to contain a sampled one for sure. The longest run without one
is at the end: it is a step, and what is left after as many steps as there are samples, less one. -/
theorem every_run_sampled_iff (hs : 0 < samples) (hn : samples ≤ n) (hlength : 0 < length) :
    (∀ first < n, first + length ≤ n → ∃ i ∈ sampledIndexes n samples, first ≤ i ∧ i < first + length) ↔
      n / samples + n % samples ≤ length := by
  have hstep := sampleStep_of_le hs hn
  have hpos : 0 < n / samples := Nat.div_pos hn hs
  -- the last sample, and a step after it, as multiples of the step
  obtain ⟨m, rfl⟩ : ∃ m, samples = m + 1 := ⟨samples - 1, by omega⟩
  have hsplit : m * (n / (m + 1)) + n / (m + 1) + n % (m + 1) = n := by
    rw [← Nat.succ_mul]
    exact Nat.div_add_mod n (m + 1)
  constructor
  · intro h
    by_contra hshort
    -- the run at the very end
    obtain ⟨i, hi, hfirst, -⟩ := h (n - length) (by omega) (by omega)
    obtain ⟨k, hk, rfl, -⟩ := mem_sampledIndexes_iff.1 hi
    rw [hstep] at hfirst
    have hlast : k * (n / (m + 1)) ≤ m * (n / (m + 1)) := Nat.mul_le_mul_right _ (by omega)
    omega
  · intro hlong first _ hend
    -- the first multiple of the step in the run
    have hceil := Nat.div_add_mod (first + n / (m + 1) - 1) (n / (m + 1))
    have hlt := Nat.mod_lt (first + n / (m + 1) - 1) hpos
    obtain ⟨k, hk⟩ : ∃ k, k = (first + n / (m + 1) - 1) / (n / (m + 1)) := ⟨_, rfl⟩
    rw [← hk, mul_comm] at hceil
    have hkm : k < m + 1 := by
      by_contra hge
      have hmul : (m + 1) * (n / (m + 1)) ≤ k * (n / (m + 1)) := Nat.mul_le_mul_right _ (by omega)
      rw [Nat.succ_mul] at hmul
      omega
    refine ⟨k * (n / (m + 1)), mem_sampledIndexes_iff.2 ⟨k, hkm, by rw [hstep], ?_⟩, ?_, ?_⟩ <;> omega

/-- Twice the step rounded up, compared with the longest run that may be left out. -/
theorem le_two_mul_ceilDiv_iff (hs : 0 < samples) :
    n / samples + n % samples ≤ 2 * (n ⌈/⌉ samples) ↔ n % samples ≤ n / samples + 2 := by
  have hsplit := Nat.div_add_mod n samples
  have hlt := Nat.mod_lt n hs
  rw [Nat.ceilDiv_eq_add_pred_div]
  rcases Nat.eq_zero_or_pos (n % samples) with hzero | hpos
  · have hceil : (n + samples - 1) / samples = n / samples := by
      refine Nat.div_eq_of_lt_le ?_ ?_
      · rw [mul_comm]
        omega
      · rw [Nat.succ_mul, mul_comm]
        omega
    omega
  · have hceil : (n + samples - 1) / samples = n / samples + 1 := by
      refine Nat.div_eq_of_lt_le ?_ ?_
      · rw [Nat.succ_mul, mul_comm]
        omega
      · rw [Nat.succ_mul, Nat.succ_mul, mul_comm]
        omega
    omega

namespace NeighborList

/-- **Points that are not sampled do not matter**: wherever they are, the displacement is the same. -/
theorem displacement_congr {α : Type} [Scalar α] {l : NeighborList α} {old new new' : Array (Vec3 α)}
    (hsize : new.size = new'.size) (h : ∀ i ∈ sampledIndexes new.size samples, new[i]? = new'[i]?) :
    l.displacement old new samples = l.displacement old new' samples := by
  unfold displacement
  rw [← hsize]
  refine List.foldl_ext _ _ _ fun m i hi => ?_
  rw [Array.getD_eq_getD_getElem?, Array.getD_eq_getD_getElem?, Array.getD_eq_getD_getElem?, h i hi]

end NeighborList

/-- **How samples are spread over the indexes** of `n` points. There are no more of them than were asked for,
all of them are indexes, they follow each other in order, and with as many as there are points they are all
indexes. Each run of twice the step, rounded up, contains a sampled index exactly if the points that are left
over when `n` is divided by the number of samples are at most two more than a step. The update does not see
where the points are that are not sampled. -/
theorem sampledIndexes_spread_iff (n : ℕ) {samples : ℕ} (hs : 1 ≤ samples) :
    (sampledIndexes n samples).Pairwise (· < ·) ∧ (∀ i ∈ sampledIndexes n samples, i < n) ∧
      (sampledIndexes n samples).length ≤ samples ∧
      (n ≤ samples → sampledIndexes n samples = List.range n) ∧
      ((∀ first < n, first + 2 * (n ⌈/⌉ samples) ≤ n →
          ∃ i ∈ sampledIndexes n samples, first ≤ i ∧ i < first + 2 * (n ⌈/⌉ samples)) ↔
        n ≤ samples ∨ n % samples ≤ n / samples + 2) ∧
      ∀ (l : NeighborList ℝ) (old new new' : Array (Vec3 ℝ)), new.size = n → new'.size = n →
        (∀ i ∈ sampledIndexes n samples, new[i]? = new'[i]?) →
        l.displacement old new samples = l.displacement old new' samples := by
  refine ⟨pairwise_sampledIndexes, fun i => NeighborList.lt_of_mem_sampledIndexes, length_sampledIndexes_le,
    sampledIndexes_eq_range, ?_, ?_⟩
  · have hceil : 0 < n → 0 < n ⌈/⌉ samples := by
      intro hn
      rw [Nat.ceilDiv_eq_add_pred_div]
      exact Nat.div_pos (by omega) hs
    rcases le_total n samples with hn | hn
    · refine iff_of_true (fun first hfirst _ => ?_) (.inl hn)
      rw [sampledIndexes_eq_range hn]
      have hpos := hceil (by omega)
      exact ⟨first, List.mem_range.2 hfirst, le_rfl, by omega⟩
    · have hpos := hceil (by omega)
      rw [every_run_sampled_iff hs hn (by omega), le_two_mul_ceilDiv_iff hs]
      constructor
      · exact .inr
      · rintro (heq | h)
        · rw [le_antisymm heq hn, Nat.mod_self]
          exact Nat.zero_le _
        · exact h
  · rintro l old new new' rfl hsize h
    exact NeighborList.displacement_congr hsize.symm h

/-- Three of ten points are looked at, and seven others. No eight points follow each other without one of
them. -/
theorem sampledIndexes_spread_iff_ten :
    1 ≤ 3 ∧ sampledIndexes 10 3 = [0, 3, 6] ∧ ∀ first < 10, first + 2 * (10 ⌈/⌉ 3) ≤ 10 →
      ∃ i ∈ sampledIndexes 10 3, first ≤ i ∧ i < first + 2 * (10 ⌈/⌉ 3) :=
  ⟨by decide, by decide, (sampledIndexes_spread_iff 10 (by decide)).2.2.2.2.1.2 (.inr (by decide))⟩

/-- **Points that are left out.** With six samples of ten points an update looks at the first six of them, and
not at the four that follow. When these move next to the first ones, it computes known pairs again. -/
theorem unsampled_tail :
    let o : SearchOptions ℝ := ⟨1, false, 0⟩
    let t : Table ℝ := ⟨2, .ofFn fun i : Fin 10 => #v[5 * (i : ℕ), 0]⟩
    let t' : Table ℝ := ⟨2, .ofFn fun i : Fin 10 =>
      #v[if (i : ℕ) < 6 then 5 * (i : ℕ) else 5 * (i - 6 : ℕ) + 1 / 2, 0]⟩
    (¬∀ first < 10, first + 2 * (10 ⌈/⌉ 6) ≤ 10 →
        ∃ i ∈ sampledIndexes 10 6, first ≤ i ∧ i < first + 2 * (10 ⌈/⌉ 6)) ∧
      ∃ start l, (NeighborList.direct o t none .keepAll).result = .ok start ∧
        (start.update t' none 1 6).result = .ok (l, .revalidated) ∧
        start.points.query[6]? = some ⟨30, 0, 0⟩ ∧ l.points.query[6]? = some ⟨1 / 2, 0, 0⟩ := by
  intro o t t'
  have ho : o.Valid := ⟨one_pos, le_rfl⟩
  have hget : ∀ i < 10, t.points[i]? = some ⟨5 * (i : ℕ), 0, 0⟩ := by
    intro i hi
    simp [t, Table.points, Vec3.ofList, hi]
  have hget' : ∀ i < 10, t'.points[i]? =
      some ⟨if i < 6 then 5 * (i : ℕ) else 5 * (i - 6 : ℕ) + 1 / 2, 0, 0⟩ := by
    intro i hi
    simp [t', Table.points, Vec3.ofList, hi]
  obtain ⟨start, hstart, hd, hp⟩ := NeighborList.exists_direct_self (t := t) ho rfl
  have hrun : NeighborList.UpdateRun none o .keepAll start.points start :=
    @NeighborList.UpdateRun.built none _ _ _ _ _ hstart
  have hself : start.points.reference? = none := by rw [hp]
  have hupdate : (start.update t' none 1 6).result =
      .ok (start.revalidate ⟨t'.points, none⟩, .revalidated) := by
    refine hrun.searchedAt.update_revalidated hself zero_le_one (by decide) ?_ forall_mem_none ?_
    · rw [hp, hd]
      simp [t, t', Table.shape, Table.size, Table.points, Dimension.toNat]
    · intro i hi
      have hsize : t'.points.size = 10 := by simp [t', Table.points]
      rw [hsize] at hi
      obtain ⟨k, hk, rfl, -⟩ := mem_sampledIndexes_iff.1 hi
      have hstep : sampleStep 10 6 = 1 := rfl
      rw [hstep, mul_one, hrun.searchedAt.points_baseline, if_neg (lt_irrefl _), hp,
        Array.getD_eq_getD_getElem?, Array.getD_eq_getD_getElem?, hget k (by omega), hget' k (by omega),
        if_pos hk, Option.getD_some, NeighborList.norm_nearestIn_sub_self]
      exact le_min zero_le_one (div_nonneg le_rfl zero_le_two)
  refine ⟨?_, start, _, hstart, hupdate, ?_, ?_⟩
  · decide
  · rw [hp, hget 6 (by decide)]
    norm_num
  · show t'.points[6]? = _
    rw [hget' 6 (by decide)]
    norm_num

end SmoothedParticles
