import SmoothedParticles.Proofs.Exact.WordReals
import SmoothedParticles.Proofs.Pairs.CellLimit
import SmoothedParticles.Proofs.Pairs.UpdateFailures

/-!
# Cells around a position far away

The place of a position among the cells is kept in signed machine words, so that it is the largest word for
all positions that are far enough away. The cells within reach begin one cell before this place and end one
behind it, and one of these two sums is not a word any more. What happens then depends on how sums are
computed.

* `candidatesBy`, `candidatesBy_exact`: the candidates of a position, with a given way to compute sums.
* `candidatesBy_checked`: what the candidates are if a sum that is not a word is an error.
* `place_of_build`, `reach_of_build`, `count_bounds_of_build`: the words of a cell list.
* `overflows_iff`, `inReach_ne_nil_iff`: when a sum is not a word, and when there are cells within reach.
* `ranges_fit_iff`: **when the sums are words**, and what the candidates are if they are not.
* `far_range_overflows`: a sum that is not a word, beside doubles.
-/

namespace SmoothedParticles.Cells

section Sums

variable {α : Type} [Scalar α] {sum : ℤ → Except (Error α) ℤ} {cells : Cells α} {p : Vec3 α} {a : Axis}

/-- The cells within reach of a position along one axis. -/
def inReach (cells : Cells α) (p : Vec3 α) (a : Axis) : List ℕ :=
  around ((cells.place p).get a) (cells.reach.get a) (cells.counts.get a)

/-- The cells along one axis that are within reach of a place, with a given way to compute sums of words. -/
def aroundBy (sum : ℤ → Except (Error α) ℤ) (i reach : ℤ) (count : ℕ) : Except (Error α) (List ℕ) := do
  let first ← sum (i - reach)
  let last ← sum (i + reach)
  let start := max first 0
  let stop := min last ((count : ℤ) - 1)
  return List.range' start.toNat (stop - start + 1).toNat

/-- The cells within reach of a position along one axis, with a given way to compute sums of words. -/
def cellsAlong (sum : ℤ → Except (Error α) ℤ) (cells : Cells α) (p : Vec3 α) (a : Axis) :
    Except (Error α) (List ℕ) :=
  aroundBy sum ((cells.place p).get a) (cells.reach.get a) (cells.counts.get a)

/-- **The points that can be neighbors** of a position, with a given way to compute sums of words. An axis is
looked at only if there are cells within reach along the ones before. -/
def candidatesBy (sum : ℤ → Except (Error α) ℤ) (cells : Cells α) (p : Vec3 α) :
    Except (Error α) (List ℕ) := do
  let xs ← cellsAlong sum cells p .x
  if xs = [] then return []
  let ys ← cellsAlong sum cells p .y
  if ys = [] then return []
  let zs ← cellsAlong sum cells p .z
  return xs.flatMap fun x => ys.flatMap fun y => zs.flatMap fun z => cells.bucket ⟨x, y, z⟩

/-- Is a sum of words along the axis not a word? -/
def Overflows (cells : Cells α) (p : Vec3 α) (a : Axis) : Prop :=
  ¬(Scalar.IsWord α ((cells.place p).get a - cells.reach.get a) ∧
    Scalar.IsWord α ((cells.place p).get a + cells.reach.get a))

theorem candidates_eq : cells.candidates p = (cells.inReach p .x).flatMap fun x =>
    (cells.inReach p .y).flatMap fun y => (cells.inReach p .z).flatMap fun z => cells.bucket ⟨x, y, z⟩ := rfl

/-- **No cells within reach** along some axis. -/
theorem candidates_eq_nil (h : cells.inReach p a = []) : cells.candidates p = [] := by
  rw [candidates_eq]
  cases a with
  | x => rw [h, List.flatMap_nil]
  | y => exact List.flatMap_eq_nil_iff.2 fun x _ => by rw [h, List.flatMap_nil]
  | z =>
    refine List.flatMap_eq_nil_iff.2 fun x _ => List.flatMap_eq_nil_iff.2 fun y _ => ?_
    rw [h, List.flatMap_nil]

/-- With sums that do not change what is within reach, the candidates do not change. -/
theorem candidatesBy_of_forall (h : ∀ a, cellsAlong sum cells p a = .ok (cells.inReach p a)) :
    candidatesBy sum cells p = .ok (cells.candidates p) := by
  rw [candidatesBy, h, h, h]
  show (if _ then _ else if _ then _ else _) = _
  split_ifs with hx hy
  · rw [candidates_eq_nil hx]
    rfl
  · rw [candidates_eq_nil hy]
    rfl
  · rfl

/-- **With exact sums** these are the candidates. -/
theorem candidatesBy_exact : candidatesBy .ok cells p = .ok (cells.candidates p) :=
  candidatesBy_of_forall fun _ => rfl

theorem cellsAlong_checked (h : ¬cells.Overflows p a) :
    cellsAlong (Scalar.checkedWord α) cells p a = .ok (cells.inReach p a) := by
  obtain ⟨hfirst, hlast⟩ := not_not.1 h
  rw [cellsAlong, aroundBy, Scalar.checkedWord, if_pos hfirst, Scalar.checkedWord, if_pos hlast]
  rfl

theorem cellsAlong_overflow (h : cells.Overflows p a) :
    cellsAlong (Scalar.checkedWord α) cells p a = .error .fault := by
  rw [cellsAlong, aroundBy, Scalar.checkedWord, Scalar.checkedWord]
  rcases not_and_or.1 h with h | h
  · rw [if_neg h]
    rfl
  · rw [if_neg h]
    split_ifs <;> rfl

/-- Does the loop over the axes come to a sum that is not a word? -/
def Fails (cells : Cells α) (p : Vec3 α) : Prop :=
  cells.Overflows p .x ∨ cells.inReach p .x ≠ [] ∧
    (cells.Overflows p .y ∨ cells.inReach p .y ≠ [] ∧ cells.Overflows p .z)

/-- **With checked sums** the candidates are the same, or an error. -/
theorem candidatesBy_checked : (cells.Fails p → candidatesBy (Scalar.checkedWord α) cells p = .error .fault) ∧
    (¬cells.Fails p → candidatesBy (Scalar.checkedWord α) cells p = .ok (cells.candidates p)) := by
  by_cases hx : cells.Overflows p .x
  · rw [candidatesBy, cellsAlong_overflow hx]
    exact ⟨fun _ => rfl, fun h => absurd (.inl hx) h⟩
  rw [Fails, or_iff_right hx, candidatesBy, cellsAlong_checked hx]
  by_cases hxs : cells.inReach p .x = []
  · rw [candidates_eq_nil hxs]
    exact ⟨fun h => absurd hxs h.1, fun _ => if_pos hxs⟩
  show (_ → (if _ then _ else _) = _) ∧ (_ → (if _ then _ else _) = _)
  rw [and_iff_right hxs, if_neg hxs]
  by_cases hy : cells.Overflows p .y
  · rw [cellsAlong_overflow hy]
    exact ⟨fun _ => rfl, fun h => absurd (.inl hy) h⟩
  rw [or_iff_right hy, cellsAlong_checked hy]
  by_cases hys : cells.inReach p .y = []
  · rw [candidates_eq_nil hys]
    exact ⟨fun h => absurd hys h.1, fun _ => if_pos hys⟩
  show (_ → (if _ then _ else _) = _) ∧ (_ → (if _ then _ else _) = _)
  rw [and_iff_right hys, if_neg hys]
  by_cases hz : cells.Overflows p .z
  · rw [cellsAlong_overflow hz]
    exact ⟨fun _ => rfl, fun h => absurd hz h⟩
  · rw [cellsAlong_checked hz]
    exact ⟨fun h => absurd h hz, fun _ => rfl⟩

theorem index_place (cells : Cells α) (p : Vec3 α) (a : Axis) : (cells.place p).get a =
    Scalar.index (Scalar.floor ((p.get a - cells.origin.get a) / cells.size.get a)) := by
  rw [place, Vec3.get_map, Vec3.get_zipWith, Vec3.get_sub]

end Sums

section Words

variable {t : ℤ} {n : ℕ}

/-- The signed word that is the nearest one to an integer. -/
def nearestWord (t : ℤ) : ℤ := max (-2 ^ 63) (min t (2 ^ 63 - 1))

theorem nearestWord_overflows_iff :
    ¬(Scalar.IsWord WordReal (nearestWord t - 1) ∧ Scalar.IsWord WordReal (nearestWord t + 1)) ↔
      t ≤ -2 ^ 63 ∨ 2 ^ 63 - 1 ≤ t := by
  rw [WordReal.isWord_iff, WordReal.isWord_iff, nearestWord]
  omega

/-- There are cells within reach exactly if the place is among the cells, or next to them. -/
theorem around_ne_nil_iff (hpos : 0 < n) (hn : n < 2 ^ 62) :
    around (nearestWord t) 1 n ≠ [] ↔ -1 ≤ t ∧ t ≤ n := by
  rw [around, Ne, List.range'_eq_nil_iff, nearestWord]
  omega

/-- **With wrapped sums** the cells within reach are the same: there are none if a sum is not a word. -/
theorem aroundBy_wrapped (hn : n < 2 ^ 62) :
    aroundBy (fun m => .ok (Scalar.wrappedWord WordReal m) : ℤ → Except (Error WordReal) ℤ)
      (nearestWord t) 1 n = .ok (around (nearestWord t) 1 n) := by
  show Except.ok (List.range' _ _) = Except.ok (List.range' _ _)
  rw [WordReal.wrappedWord_eq, WordReal.wrappedWord_eq]
  by_cases h : Scalar.IsWord WordReal (nearestWord t - 1) ∧ Scalar.IsWord WordReal (nearestWord t + 1)
  · rw [WordReal.isWord_iff, WordReal.isWord_iff] at h
    rw [Int.bmod_eq_of_le_mul_two (by push_cast; omega) (by push_cast; omega),
      Int.bmod_eq_of_le_mul_two (by push_cast; omega) (by push_cast; omega)]
  · have hfar := nearestWord_overflows_iff.1 h
    have hwrapped : (min ((nearestWord t + 1).bmod (2 ^ 64)) ((n : ℤ) - 1) -
        max ((nearestWord t - 1).bmod (2 ^ 64)) 0 + 1).toNat = 0 := by
      rw [nearestWord, Int.bmod_def, Int.bmod_def]
      omega
    have hexact : (min (nearestWord t + 1) ((n : ℤ) - 1) - max (nearestWord t - 1) 0 + 1).toNat = 0 := by
      rw [nearestWord]
      omega
    rw [hwrapped, hexact, List.range'_zero, List.range'_zero]

end Words

section Built

variable {d : Dimension} {ps : Array (Vec3 ℝ)} {cutoff : ℝ} {cells : Cells WordReal} {p : Vec3 WordReal}
  {a : Axis}

/-- How many cells behind the beginning of the first one a position is. -/
noncomputable def scaled (d : Dimension) (ps : Array (Vec3 ℝ)) (cutoff : ℝ) (p : Vec3 ℝ) (a : Axis) : ℝ :=
  (p.get a - (lower ps).get a) / (layout d ps cutoff).size.get a

theorem place_of_build (hbuild : @build WordReal _ d ps cutoff = .ok cells) :
    (cells.place p).get a = nearestWord ⌊scaled d ps cutoff p a⌋ := by
  obtain ⟨buckets, rfl⟩ := layout_of_build hbuild
  exact (@index_place WordReal _ _ p a).trans (WordReal.index_intCast _)

theorem cutoff_pos_of_build (hbuild : @build WordReal _ d ps cutoff = .ok cells) : 0 < cutoff := by
  have h := (exists_build_iff.1 ⟨cells, hbuild⟩).positive.1
  exact Scalar.isPositive_iff.1 ⟨h, rfl⟩

/-- **One cell on either side** is within reach, since a cell is at least as long as the cutoff. -/
theorem reach_of_build (hflat : d = .two → ∀ p ∈ ps, p.z = 0)
    (hbuild : @build WordReal _ d ps cutoff = .ok cells) (a : Axis) : cells.reach.get a = 1 := by
  have hc := cutoff_pos_of_build hbuild
  have hsize := cutoff_le_size hc hflat a
  have hpos : 0 < (layout d ps cutoff).size.get a := hc.trans_le hsize
  have hceil : ⌈cutoff / (layout d ps cutoff).size.get a⌉ = 1 := by
    rw [Int.ceil_eq_iff]
    norm_num
    exact ⟨div_pos hc hpos, (div_le_one hpos).2 hsize⟩
  -- a quotient of at most one takes one cell
  have hindex : @Scalar.index WordReal _ (⌈cutoff / (layout d ps cutoff).size.get a⌉ : ℝ) = 1 := by
    rw [WordReal.index_intCast, hceil]
    norm_num
  obtain ⟨buckets, rfl⟩ := layout_of_build hbuild
  refine (@get_reach_layout WordReal _ d ps cutoff a).trans ?_
  exact (congrArg (max · 1) hindex).trans (max_self 1)

theorem count_of_build (hbuild : @build WordReal _ d ps cutoff = .ok cells) (a : Axis) :
    ∃ n : ℕ, 0 < n ∧ cells.counts.get a = min n (2 ^ 64 - 1) := by
  obtain ⟨n, hn, h⟩ := isCount_reduced d (isCount_wanted (extent ps cutoff) cutoff) a
  obtain ⟨buckets, rfl⟩ := layout_of_build hbuild
  refine ⟨n, hn, (@get_counts_layout WordReal _ d ps cutoff a).trans ?_⟩
  exact (congrArg (@Scalar.count WordReal _) h).trans (WordReal.count_natCast n)

/-- **The numbers of cells** are small words, since the table of all cells can be addressed. -/
theorem count_bounds_of_build (hbuild : @build WordReal _ d ps cutoff = .ok cells) (a : Axis) :
    0 < cells.counts.get a ∧ cells.counts.get a < 2 ^ 62 := by
  have hpos : ∀ a, 0 < cells.counts.get a := by
    intro a
    obtain ⟨n, hn, h⟩ := count_of_build hbuild a
    omega
  have haddressable := (exists_build_iff.1 ⟨cells, hbuild⟩).addressable
  have htotal : cells.counts.x * cells.counts.y * cells.counts.z * cellBytes < 2 ^ 63 := by
    obtain ⟨buckets, rfl⟩ := layout_of_build hbuild
    exact WordReal.indexable_iff.1 haddressable
  have hprod : 0 < cells.counts.x * cells.counts.y * cells.counts.z :=
    Nat.mul_pos (Nat.mul_pos (hpos .x) (hpos .y)) (hpos .z)
  have hle : cells.counts.get a ≤ cells.counts.x * cells.counts.y * cells.counts.z := by
    refine Nat.le_of_dvd hprod ?_
    cases a with
    | x => exact (Nat.dvd_mul_right _ _).mul_right _
    | y => exact (Nat.dvd_mul_left _ _).mul_right _
    | z => exact Nat.dvd_mul_left _ _
  have hbytes : cellBytes = 24 := rfl
  rw [hbytes] at htotal
  exact ⟨hpos a, by omega⟩

/-- Is the position so far away along the axis that its place has no word next to it? -/
def Far (x : Axis → ℝ) (a : Axis) : Prop := x a < -(2 ^ 63 - 1) ∨ 2 ^ 63 - 1 ≤ x a

/-- Is the position between the first and the last cell, or not further than a cell away from these? -/
def Near (counts : Vec3 ℕ) (x : Axis → ℝ) (a : Axis) : Prop := -1 ≤ x a ∧ x a < counts.get a + 1

theorem overflows_iff (hflat : d = .two → ∀ p ∈ ps, p.z = 0)
    (hbuild : @build WordReal _ d ps cutoff = .ok cells) (p : Vec3 WordReal) (a : Axis) :
    cells.Overflows p a ↔ Far (scaled d ps cutoff p) a := by
  rw [Overflows, place_of_build hbuild, reach_of_build hflat hbuild, nearestWord_overflows_iff, Far]
  refine or_congr ?_ ?_
  · rw [← Int.lt_add_one_iff, Int.floor_lt]
    norm_num
  · rw [Int.le_floor]
    norm_num

theorem inReach_ne_nil_iff (hflat : d = .two → ∀ p ∈ ps, p.z = 0)
    (hbuild : @build WordReal _ d ps cutoff = .ok cells) (p : Vec3 WordReal) (a : Axis) :
    cells.inReach p a ≠ [] ↔ Near cells.counts (scaled d ps cutoff p) a := by
  obtain ⟨hpos, hlt⟩ := count_bounds_of_build hbuild a
  rw [inReach, place_of_build hbuild, reach_of_build hflat hbuild, around_ne_nil_iff hpos hlt, Near]
  refine and_congr ?_ ?_
  · rw [Int.le_floor]
    norm_num
  · rw [← Int.lt_add_one_iff, Int.floor_lt]
    norm_num

/-- **Nothing is close to a position far away.** -/
theorem inReach_of_far (hflat : d = .two → ∀ p ∈ ps, p.z = 0)
    (hbuild : @build WordReal _ d ps cutoff = .ok cells) (h : Far (scaled d ps cutoff p) a) :
    cells.inReach p a = [] := by
  by_contra hne
  obtain ⟨hbegin, hend⟩ := (inReach_ne_nil_iff hflat hbuild p a).1 hne
  have hcount : (cells.counts.get a : ℝ) < 2 ^ 62 := by exact_mod_cast (count_bounds_of_build hbuild a).2
  rcases h with h | h <;> linarith

/-- **When the sums are words.** Along each axis, both of them are if the position is not as far as `2 ^ 63 -
1` cells away from where the cells begin. So a position far away is an error with checked sums, unless no
cells are within reach along an axis before. Sums that lose their high digits do no harm: as with unbounded
ones, no points are close to a position whose sums are not words. -/
theorem ranges_fit_iff (hflat : d = .two → ∀ p ∈ ps, p.z = 0)
    (hbuild : @build WordReal _ d ps cutoff = .ok cells) (p : Vec3 WordReal) :
    let far := Far (scaled d ps cutoff p)
    let near := Near cells.counts (scaled d ps cutoff p)
    let fails := far .x ∨ near .x ∧ (far .y ∨ near .y ∧ far .z)
    (∀ a, Scalar.IsWord WordReal ((cells.place p).get a - cells.reach.get a) ∧
      Scalar.IsWord WordReal ((cells.place p).get a + cells.reach.get a) ↔ ¬far a) ∧
    (candidatesBy (Scalar.checkedWord WordReal) cells p = .error .fault ↔ fails) ∧
    (candidatesBy (Scalar.checkedWord WordReal) cells p = .ok (cells.candidates p) ↔ ¬fails) ∧
    candidatesBy (fun n => .ok (Scalar.wrappedWord WordReal n)) cells p = .ok (cells.candidates p) ∧
    ∀ a, far a → cells.candidates p = [] ∧ ∀ (s : Search WordReal) (i : ℕ), s.rowByCells cells i p = [] := by
  intro far near fails
  have hfails : cells.Fails p ↔ fails := by
    simp only [Fails, overflows_iff hflat hbuild, inReach_ne_nil_iff hflat hbuild, far, near, fails]
  obtain ⟨herror, hok⟩ := @candidatesBy_checked WordReal _ cells p
  rw [hfails] at herror hok
  refine ⟨fun a => ?_, ⟨fun h => ?_, herror⟩, ⟨fun h hfail => ?_, hok⟩, ?_, fun a ha => ?_⟩
  · exact (not_iff_comm.1 (overflows_iff hflat hbuild p a)).symm
  · by_contra hnot
    rw [hok hnot] at h
    exact nomatch h
  · rw [herror hfail] at h
    exact nomatch h
  · refine candidatesBy_of_forall fun a => ?_
    rw [cellsAlong, inReach, place_of_build hbuild, reach_of_build hflat hbuild]
    exact aroundBy_wrapped (count_bounds_of_build hbuild a).2
  · have hnone := candidates_eq_nil (inReach_of_far hflat hbuild ha)
    refine ⟨hnone, fun s i => ?_⟩
    rw [Search.rowByCells, hnone]
    exact List.mergeSort_nil

section Origin

variable (hc : 0 < cutoff) (hzero : ∀ a, ∀ p ∈ ps, p.get a = 0)

include hc hzero

/-- **Points at the origin** are in one cell. -/
theorem reduced_of_origin : reduced d (wanted (extent ps cutoff) cutoff) = .replicate 1 := by
  have hwanted : wanted (extent ps cutoff) cutoff = .replicate 1 :=
    Vec3.ext_get fun a => (wanted_of_forall hc (hzero a)).trans (Vec3.get_replicate 1 a).symm
  rw [hwanted]
  exact reduced_of_le (by norm_num [Vec3.replicate, maxCells])

theorem scaled_of_origin (p : Vec3 ℝ) (a : Axis) : scaled d ps cutoff p a = p.get a / cutoff := by
  rw [scaled, get_size_layout, lower_of_forall (hzero a), extent_of_forall hc (hzero a),
    reduced_of_origin hc hzero, Vec3.get_replicate, sub_zero, div_one]

theorem exists_build_of_origin (d : Dimension) : ∃ cells, @build WordReal _ d ps cutoff = .ok cells := by
  have hcounts : (@layout WordReal _ d ps cutoff).counts = .replicate 1 := by
    refine Vec3.ext_get fun a => (@get_counts_layout WordReal _ d ps cutoff a).trans ?_
    have hone : (reduced d (wanted (extent ps cutoff) cutoff)).get a = ((1 : ℕ) : ℝ) := by
      rw [reduced_of_origin hc hzero, Vec3.get_replicate, Nat.cast_one]
    rw [Vec3.get_replicate]
    exact (congrArg (@Scalar.count WordReal _) hone).trans (WordReal.count_natCast 1)
  refine exists_build_iff.2 ⟨⟨(Scalar.isPositive_iff.2 hc).1, rfl⟩, rfl, WordReal.indexable_iff.2 ?_⟩
  rw [hcounts]
  decide

end Origin

/-- A cell around one point, and a position that no word can be next to. -/
theorem ranges_fit_iff_far :
    let ps : Array (Vec3 ℝ) := #[⟨0, 0, 0⟩]
    let far : Vec3 ℝ := ⟨2 ^ 63, 0, 0⟩
    (∀ p ∈ ps, p.z = 0) ∧ ∃ cells, @build WordReal _ .two ps (1 : ℝ) = .ok cells ∧
      candidatesBy (Scalar.checkedWord WordReal) cells far = .error .fault ∧ cells.candidates far = [] := by
  intro ps far
  have hzero : ∀ a, ∀ p ∈ ps, p.get a = 0 := by
    intro a p hp
    obtain rfl := List.mem_singleton.1 (Array.mem_toList_iff.2 hp)
    cases a <;> rfl
  obtain ⟨cells, hbuild⟩ := exists_build_of_origin one_pos hzero .two
  have hfar : Far (scaled .two ps 1 far) .x := by
    right
    rw [scaled_of_origin one_pos hzero, div_one]
    exact sub_le_self _ zero_le_one
  obtain ⟨-, hchecked, -, -, hnone⟩ := ranges_fit_iff (fun _ => hzero .z) hbuild far
  exact ⟨hzero .z, cells, hbuild, hchecked.2 (.inl hfar), (hnone .x hfar).1⟩

/-- **A position far away from a row of points**, in doubles. Its place is the largest signed word, and the
place behind it is not a word. -/
theorem far_range_overflows :
    let far : Vec3 Float := ⟨1e300, 0, 0⟩
    far.isFinite = true ∧ ∃ cells, build .two (spacedRow 64).points 1 = .ok cells ∧
      (cells.place far).x + cells.reach.x = 2 ^ 63 ∧
      ¬Scalar.IsWord Float ((cells.place far).x + cells.reach.x) ∧
      candidatesBy (Scalar.checkedWord Float) cells far = .error .fault := by
  intro far
  have hfeasible : Feasible .two (spacedRow 64).points 1 :=
    ⟨by decide +kernel, by decide +kernel, by decide +kernel⟩
  obtain ⟨cells, hbuild⟩ := exists_build_iff.2 hfeasible
  have hsum : (cells.place far).x + cells.reach.x = 2 ^ 63 := by
    obtain ⟨buckets, rfl⟩ := layout_of_build hbuild
    show ((layout .two (spacedRow 64).points 1).place far).x +
      (layout .two (spacedRow 64).points 1).reach.x = 2 ^ 63
    decide +kernel
  have hword : ¬Scalar.IsWord Float ((cells.place far).x + cells.reach.x) := by
    rw [hsum]
    decide
  refine ⟨by decide +kernel, cells, hbuild, hsum, hword, ?_⟩
  exact candidatesBy_checked.1 (.inl fun h => hword h.2)

end Built

end SmoothedParticles.Cells
