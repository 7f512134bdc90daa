import SmoothedParticles.Proofs.Pairs.FreshPairs

/-!
# Pairs from both sides

A list over one set of points has each pair from both of its points, and so have its parts with the pairs
of equal and of different types. What the points of a pair do to each other then cancels in the sum over
all pairs, in whatever order the rows have them.

* `Pair.flip`: the pair as its second point has it.
* `Mutual`: lists that have each pair from both sides.
* `Mutual.sum_add_flip`: a sum over all pairs, side by side.
* `Mutual.sum_eq_zero`: **what changes its sign from one side to the other sums to zero**.
* `sum_map_pairs`: a sum over all pairs, row by row.
* `SeenPair.flip`: the pairs of a search, seen from the other set of points.
* `SelfPart`, `SelfPart.mutual`: **lists over one set of points, split by types any number of times, are
  mutual**.
-/

namespace SmoothedParticles

/-- The pair as its second point has it. -/
noncomputable def Pair.flip (p : Pair ℝ) : Pair ℝ :=
  ⟨p.second, p.first, p.distance, -p.vector, p.shift.map (- ·)⟩

theorem Pair.flip_flip (p : Pair ℝ) : p.flip.flip = p := by
  have hvector : -(-p.vector) = p.vector := Vec3.ext_get fun a => by
    rw [Vec3.get_neg, Vec3.get_neg, neg_neg]
  have hshift : (p.shift.map (- ·)).map (- ·) = p.shift := Vec3.ext_get fun a => by
    rw [Vec3.get_map, Vec3.get_map, neg_neg]
  simp only [flip, hvector, hshift]

theorem Pair.flip_injective : Function.Injective Pair.flip :=
  Function.Involutive.injective Pair.flip_flip

namespace NeighborList

variable {o : SearchOptions ℝ} {t : Table ℝ} {l : NeighborList ℝ} {p : Pair ℝ} {i j : ℕ}
  {x y : Vec3 ℝ}

/-- Without a shift, the other side of a pair is the pair of the other point. -/
theorem flip_pairTo :
    (pairTo i x j y (.replicate 0)).flip = pairTo j y i x (.replicate 0) := by
  have hvector : -(y - x) = x - y := Vec3.ext_get fun a => by
    rw [Vec3.get_neg, Vec3.get_sub, Vec3.get_sub, neg_sub]
  simp only [Pair.flip, pairTo, hvector, Vec3.norm_sub_comm y x]
  rfl

/-- **A list that has each pair from both sides**, and from each side once. -/
structure Mutual (l : NeighborList ℝ) : Prop where
  nodup : l.pairs.Nodup
  flip : ∀ p ∈ l.pairs, p.flip ∈ l.pairs

/-- The other sides of all pairs are all pairs, in another order. -/
theorem Mutual.perm (h : Mutual l) : (l.pairs.map Pair.flip).Perm l.pairs := by
  refine (List.perm_ext_iff_of_nodup (h.nodup.map Pair.flip_injective) h.nodup).2 fun p => ?_
  rw [List.mem_map]
  constructor
  · rintro ⟨q, hq, rfl⟩
    exact h.flip q hq
  · intro hp
    exact ⟨p.flip, h.flip p hp, p.flip_flip⟩

/-- **What both sides of a pair add up to**, summed over all pairs, counts each pair twice. -/
theorem Mutual.sum_add_flip (h : Mutual l) (g : Pair ℝ → ℝ) :
    (l.pairs.map fun p => g p + g p.flip).sum = 2 * (l.pairs.map g).sum := by
  have hflip : (l.pairs.map fun p => g p.flip).sum = (l.pairs.map g).sum := by
    rw [← (h.perm.map g).sum_eq, List.map_map]
    rfl
  rw [List.sum_map_add, hflip, two_mul]

/-- **What changes its sign from one side to the other sums to zero.** -/
theorem Mutual.sum_eq_zero (h : Mutual l) {g : Pair ℝ → ℝ} (hg : ∀ p ∈ l.pairs, g p.flip = -g p) :
    (l.pairs.map g).sum = 0 := by
  have hzero : (l.pairs.map fun p => g p + g p.flip) = l.pairs.map fun _ => 0 :=
    List.map_congr_left fun p hp => by rw [hg p hp, add_neg_cancel]
  have htwice := h.sum_add_flip g
  rw [hzero, List.sum_map_zero] at htwice
  linarith

section Rows

/-- A sum over all pairs is the sum of those over the rows. -/
theorem sum_map_pairs (g : Pair ℝ → ℝ) :
    (l.pairs.map g).sum = (l.rows.toList.map fun row => (row.map g).sum).sum := by
  rw [pairs, List.map_flatten, List.sum_flatten, List.map_map]
  rfl

/-- What each point has to do with the pairs of its row, for all points at once. -/
theorem zipWith_map_rows {β γ δ : Type} {xs : Array β} {F : List (Pair ℝ) → γ} {g : β → γ → δ}
    {G : List (Pair ℝ) → δ} (hsize : xs.size = l.nQuery)
    (h : ∀ (i : ℕ) x row, xs[i]? = some x → l.rows[i]? = some row → g x (F row) = G row) :
    Array.zipWith g xs (l.rows.map F) = l.rows.map G := by
  apply Array.ext_getElem?
  intro i
  rw [Array.getElem?_zipWith, Array.getElem?_map, Array.getElem?_map]
  cases hrow : l.rows[i]? with
  | none => cases xs[i]? <;> rfl
  | some row =>
    have hlt : i < xs.size := by
      rw [hsize]
      exact (Array.getElem?_eq_some_iff.1 hrow).1
    have hx := Array.getElem?_eq_getElem hlt
    rw [hx, Option.map_some, Option.map_some]
    exact congrArg some (h i _ row hx hrow)

end Rows

/-- **Without a box and a filter**, a search among the query points sees the other sides of the pairs that
a search among the reference points sees. -/
theorem SeenPair.flip {points points' : PointSets ℝ} (h : SeenPair none o .keepAll points p)
    (hquery : points'.query = points.reference) (hreference : points'.reference = points.query) :
    SeenPair none o .keepAll points' p.flip := by
  obtain ⟨x, y, hx, hy, hzero, -, hnear, heq⟩ := h
  have hzero : p.shift = .replicate 0 := hzero
  rw [hzero] at hnear heq
  rw [heq, flip_pairTo]
  refine ⟨y, x, by rwa [hquery], by rwa [hreference], rfl, rfl, ?_, rfl⟩
  show (x - y).norm < o.cutoff
  rw [Vec3.norm_sub_comm]
  exact hnear

/-- Without a filter, a list over one set of points is mutual. -/
theorem mutual_direct (h : (direct o t none .keepAll).result = .ok l) : Mutual l := by
  have hbuild : (build none o t none .keepAll).result = .ok l := h
  have hsound := sound_build hbuild
  obtain ⟨ho, d, _, -, -, -, rfl, -, rfl⟩ := build_ok_iff.1 hbuild
  refine ⟨hsound.nodup_pairs, fun p hp => ?_⟩
  obtain ⟨hseen, hitself⟩ := (mem_pairs_fresh ho).1 hp
  have hzero : p.shift = .replicate 0 := by
    obtain ⟨_, _, -, -, hsees, -⟩ := hseen
    exact hsees
  exact (mem_pairs_fresh ho).2 ⟨hseen.flip rfl rfl, fun _ hij _ => hitself rfl hij.symm hzero⟩

/-- A condition that is the same on both sides of a pair leaves a mutual list mutual. -/
theorem Mutual.filterPart (h : Mutual l) {keep : Pair ℝ → Bool}
    (hkeep : ∀ p : Pair ℝ, keep p.flip = keep p) : Mutual (l.filterPart keep) := by
  refine ⟨?_, fun p hp => ?_⟩
  · rw [pairs_filterPart]
    exact h.nodup.filter keep
  · rw [pairs_filterPart, List.mem_filter] at hp ⊢
    exact ⟨h.flip p hp.1, (hkeep p).trans hp.2⟩

/-- **The list of some points**, and its parts with the pairs of equal and of different types. -/
inductive SelfPart (o : SearchOptions ℝ) (t : Table ℝ) : NeighborList ℝ → Prop
  | whole {l : NeighborList ℝ} : (direct o t none .keepAll).result = .ok l → SelfPart o t l
  | same {l : NeighborList ℝ} {types : Array ℤ} {referenceTypes? : Option (Array ℤ)}
      {parts : TypePartition ℝ} : SelfPart o t l →
      l.partition types referenceTypes? = .ok parts → SelfPart o t parts.same
  | cross {l : NeighborList ℝ} {types : Array ℤ} {referenceTypes? : Option (Array ℤ)}
      {parts : TypePartition ℝ} : SelfPart o t l →
      l.partition types referenceTypes? = .ok parts → SelfPart o t parts.cross

/-- The parts have the points of the whole list, and no box either. -/
theorem SelfPart.points_eq (h : SelfPart o t l) : l.points = ⟨t.points, none⟩ ∧ l.box? = none := by
  induction h with
  | whole h =>
    obtain ⟨-, d, points, -, -, rfl, -, rfl⟩ := direct_ok_iff.1 h
    exact ⟨points_ofRows, box?_ofRows⟩
  | same _ h ih =>
    obtain ⟨⟨keep, hpart⟩, -, -⟩ := partition_cases h
    rw [hpart]
    exact ih
  | cross _ h ih =>
    obtain ⟨-, ⟨keep, hpart⟩, -⟩ := partition_cases h
    rw [hpart]
    exact ih

theorem SelfPart.reachable (h : SelfPart o t l) : Reachable l := by
  induction h with
  | whole h => exact .direct h
  | same _ h ih => exact ih.same h
  | cross _ h ih => exact ih.cross h

/-- The pairs of a part are right at the positions of the points. -/
theorem SelfPart.vector_eq (h : SelfPart o t l) (hp : p ∈ l.pairs) :
    p.vector = t.points.getD p.second .zero - t.points.getD p.first .zero := by
  obtain ⟨hpoints, hbox⟩ := h.points_eq
  obtain ⟨i, row, hi, hp⟩ := mem_pairs_iff.1 hp
  obtain ⟨x, y, hx, hy, hvector⟩ :=
    (h.reachable.sound.measured row (Array.mem_of_getElem? hi) p hp).vector
  rw [hpoints] at hx hy
  have hy : t.points[p.second]? = some y := hy
  rw [hvector, hbox, Array.getD_eq_getD_getElem?, Array.getD_eq_getD_getElem?, hx, hy]
  rfl

/-- **Lists over one set of points are mutual**, split by types any number of times. -/
theorem SelfPart.mutual (h : SelfPart o t l) : Mutual l := by
  -- on the splits; whether two types are equal does not depend on the side
  induction h with
  | whole h => exact mutual_direct h
  | same hl h ih =>
    obtain ⟨-, -, rfl⟩ := (partition_self_ok_iff (by rw [hl.points_eq.1])).1 h
    exact ih.filterPart fun p => decide_eq_decide.2 eq_comm
  | cross hl h ih =>
    obtain ⟨-, -, rfl⟩ := (partition_self_ok_iff (by rw [hl.points_eq.1])).1 h
    exact ih.filterPart fun p => decide_eq_decide.2 ne_comm

theorem SelfPart.first_lt (h : SelfPart o t l) (hp : p ∈ l.pairs) : p.first < l.nQuery := by
  obtain ⟨i, row, hi, hp⟩ := mem_pairs_iff.1 hp
  rw [(h.reachable.sound.rows.indexed i row hi p hp).first]
  exact (Array.getElem?_eq_some_iff.1 hi).1

theorem SelfPart.second_lt (h : SelfPart o t l) (hp : p ∈ l.pairs) : p.second < l.nQuery :=
  h.first_lt (h.mutual.flip p hp)

theorem SelfPart.distance_nonneg (h : SelfPart o t l) (hp : p ∈ l.pairs) : 0 ≤ p.distance := by
  obtain ⟨i, row, hi, hp⟩ := mem_pairs_iff.1 hp
  exact h.reachable.sound.distance_nonneg (Array.mem_of_getElem? hi) hp

end NeighborList

end SmoothedParticles
