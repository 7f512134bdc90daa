import SmoothedParticles.Proofs.Periodic.Places
import SmoothedParticles.Periodic.Reunion

/-!
# The spread of points

A pass of a reunion pulls points towards the centroid that they had before it. Each point that is pulled
comes closer to it, and the centroid that the points have afterwards is the point from which they are spread
the least.

* `spreadFrom`, `spread_le_spreadFrom`: **the centroid is the point with the least spread** from it.
* `pull?_cases`, `Box.pull_cases`: what a pull does along one axis.
* `Box.Far`, `Box.gather_eq_some_iff`: a pass moves something exactly if a coordinate is far.
* `Box.spread_lt_of_gather`, `Box.exists_far_iff`: **a pass that moves something decreases the spread**.
-/

namespace SmoothedParticles

section Centroid

variable {ps : Array (Vec3 ℝ)}

theorem get_centroid (ps : Array (Vec3 ℝ)) (a : Axis) :
    (centroid ps).get a = (ps.toList.map fun p => p.get a).sum / ps.size := by
  have hsum : (ps.foldl (· + ·) (Vec3.zero : Vec3 ℝ)).get a = (ps.toList.map fun p => p.get a).sum :=
    calc (ps.foldl (· + ·) (Vec3.zero : Vec3 ℝ)).get a
        = ps.toList.foldl (fun sum p => sum + p.get a) ((Vec3.zero : Vec3 ℝ).get a) := by
          rw [← Array.foldl_toList]
          refine (List.foldl_hom (fun v : Vec3 ℝ => v.get a) ?_).symm
          exact fun v p => (Vec3.get_add v p a).symm
      _ = (ps.toList.map fun p => p.get a).sum := by
          rw [Vec3.get_zero, List.sum_eq_foldl, List.foldl_map]
  rw [centroid, Vec3.get_div, hsum, Scalar.ofNat_eq]

/-- The sum of the squared distances from a point. -/
noncomputable def spreadFrom (c : Vec3 ℝ) (ps : Array (Vec3 ℝ)) : ℝ :=
  (ps.toList.map fun p => (p - c).norm2).sum

theorem spread_eq (ps : Array (Vec3 ℝ)) : spread ps = spreadFrom (centroid ps) ps := by
  rw [spread, spreadFrom, ← Array.foldl_toList, List.sum_eq_foldl, List.foldl_map, Scalar.zero_eq]

/-- The squared distances from two points differ by what the second one is off the mean. -/
theorem sum_sq_sub (l : List ℝ) (m c : ℝ) : (l.map fun x => (x - c) ^ 2).sum =
    (l.map fun x => (x - m) ^ 2).sum + 2 * (m - c) * (l.sum - l.length * m) +
      l.length * (m - c) ^ 2 := by
  induction l with
  | nil => simp
  | cons x l ih =>
    simp only [List.map_cons, List.sum_cons, List.length_cons, ih]
    push_cast
    ring

/-- **The mean has the least sum of squared distances.** -/
theorem sum_sq_sub_mean_le (l : List ℝ) (c : ℝ) : (l.map fun x => (x - l.sum / l.length) ^ 2).sum ≤
    (l.map fun x => (x - c) ^ 2).sum := by
  have hmean : l.sum - l.length * (l.sum / l.length) = 0 := by
    cases l with
    | nil => simp
    | cons x l =>
      have hne : ((x :: l).length : ℝ) ≠ 0 := Nat.cast_ne_zero.2 (Nat.succ_ne_zero _)
      rw [mul_div_cancel₀ _ hne, sub_self]
  rw [sum_sq_sub l (l.sum / l.length) c, hmean, mul_zero, add_zero]
  exact le_add_of_nonneg_right (by positivity)

/-- Along the axes, squared distances add up. -/
theorem spreadFrom_eq (c : Vec3 ℝ) (ps : Array (Vec3 ℝ)) : spreadFrom c ps =
    (((ps.toList.map fun p => p.get .x).map fun x => (x - c.get .x) ^ 2).sum +
      ((ps.toList.map fun p => p.get .y).map fun x => (x - c.get .y) ^ 2).sum) +
      ((ps.toList.map fun p => p.get .z).map fun x => (x - c.get .z) ^ 2).sum := by
  simp only [spreadFrom, Vec3.norm2_eq, Vec3.get_sub, List.map_map, Function.comp_def, List.sum_map_add]

/-- **The centroid is the point with the least spread** from it. -/
theorem spread_le_spreadFrom (c : Vec3 ℝ) (ps : Array (Vec3 ℝ)) : spread ps ≤ spreadFrom c ps := by
  rw [spread_eq, spreadFrom_eq, spreadFrom_eq]
  have hax : ∀ a, ((ps.toList.map fun p => p.get a).map fun x => (x - (centroid ps).get a) ^ 2).sum ≤
      ((ps.toList.map fun p => p.get a).map fun x => (x - c.get a) ^ 2).sum := by
    intro a
    have h := sum_sq_sub_mean_le (ps.toList.map fun p => p.get a) (c.get a)
    rwa [List.length_map, Array.length_toList, ← get_centroid] at h
  exact add_le_add (add_le_add (hax .x) (hax .y)) (hax .z)

end Centroid

theorem pull?_eq (length center x : ℝ) : pull? length center x =
    if length / 2 < x - center then some (x - length)
    else if x - center < -(length / 2) then some (x + length) else none := by
  have hhalf : (0.5 : ℝ) = 1 / 2 := by norm_num
  simp only [pull?, hhalf, neg_mul, one_div_mul_eq_div]

/-- **What a pull does to a coordinate**: nothing, or it moves it by one length, which brings it closer to
the center. -/
theorem pull?_cases {length : ℝ} (h : 0 < length) (center x : ℝ) :
    (¬length / 2 < |x - center| ∧ pull? length center x = none) ∨
    (length / 2 < |x - center| ∧ ∃ k : ℤ, |k| = 1 ∧ pull? length center x = some (x + k * length) ∧
      (x + k * length - center) ^ 2 < (x - center) ^ 2) := by
  rw [pull?_eq, lt_abs]
  split_ifs with hhigh hlow
  · refine .inr ⟨.inl hhigh, -1, rfl, by push_cast; ring_nf, ?_⟩
    push_cast
    nlinarith
  · refine .inr ⟨.inr (by linarith), 1, rfl, by push_cast; ring_nf, ?_⟩
    push_cast
    nlinarith
  · exact .inl ⟨by rintro (h | h) <;> linarith, rfl⟩

namespace Box

variable {box : Box ℝ} {ps next : Array (Vec3 ℝ)} {center p : Vec3 ℝ} {a : Axis}

/-- **Is the point far from a center** along an axis: is the axis periodic, and the point more than half a
length away? -/
def Far (box : Box ℝ) (center p : Vec3 ℝ) (a : Axis) : Prop :=
  box.periodic.get a = true ∧ box.length a / 2 < |p.get a - center.get a|

/-- **What a pull does along one axis.** -/
theorem pull_cases (box : Box ℝ) (center p : Vec3 ℝ) (a : Axis) :
    (¬box.Far center p a ∧ box.pullAlong? center p a = none ∧
      (box.pull center p).get a = p.get a) ∨
    (box.Far center p a ∧ (box.pullAlong? center p a).isSome = true ∧ ∃ k : ℤ, |k| = 1 ∧
      (box.pull center p).get a = p.get a + k * box.period a ∧
      ((box.pull center p).get a - center.get a) ^ 2 < (p.get a - center.get a) ^ 2) := by
  have hget : (box.pull center p).get a = (box.pullAlong? center p a).getD (p.get a) := by
    rw [pull, Vec3.get_ofFn]
  by_cases hper : box.periodic.get a = true
  · have halong : box.pullAlong? center p a =
        pull? (box.length a) (center.get a) (p.get a) := if_pos hper
    rw [Far, and_iff_right hper, hget, halong, period_of_periodic hper]
    rcases pull?_cases (length_pos_of_periodic hper) (center.get a) (p.get a) with
      ⟨hnear, hnone⟩ | ⟨hfar, k, hk, hsome, hlt⟩
    · rw [hnone]
      exact .inl ⟨hnear, rfl, rfl⟩
    · rw [hsome]
      exact .inr ⟨hfar, rfl, k, hk, rfl, hlt⟩
  · have halong : box.pullAlong? center p a = none := if_neg hper
    rw [hget, halong]
    exact .inl ⟨fun hfar => hper hfar.1, rfl, rfl⟩

theorem moves_iff : box.moves center p = true ↔ ∃ a, box.Far center p a := by
  rw [moves, List.any_eq_true]
  constructor
  · rintro ⟨a, -, hsome⟩
    rcases box.pull_cases center p a with ⟨-, hnone, -⟩ | ⟨hfar, -⟩
    · rw [hnone] at hsome
      exact absurd hsome Bool.false_ne_true
    · exact ⟨a, hfar⟩
  · rintro ⟨a, hfar⟩
    rcases box.pull_cases center p a with ⟨hnear, -⟩ | ⟨-, hsome, -⟩
    · exact absurd hfar hnear
    · exact ⟨a, mem_axes_of_periodic hfar.1, hsome⟩

/-- **What a pass does**, if it moves something: it pulls all points towards their centroid. -/
theorem gather_eq_some_iff : box.gather ps = some next ↔
    (∃ p ∈ ps, ∃ a, box.Far (centroid ps) p a) ∧ ps.map (box.pull (centroid ps)) = next := by
  have hany : ps.any (box.moves (centroid ps)) = true ↔ ∃ p ∈ ps, ∃ a, box.Far (centroid ps) p a := by
    simp only [Array.any_eq_true', moves_iff]
  show (if ps.any (box.moves (centroid ps)) = true then _ else none) = some next ↔ _
  rw [Option.ite_none_right_eq_some, hany, Option.some.injEq]

theorem gather_eq_none_iff : box.gather ps = none ↔ ∀ p ∈ ps, ∀ a, ¬box.Far (centroid ps) p a := by
  constructor
  · intro h p hp a hfar
    have hsome := gather_eq_some_iff.2 ⟨⟨p, hp, a, hfar⟩, rfl⟩
    rw [h] at hsome
    nomatch hsome
  · intro h
    refine Option.eq_none_iff_forall_ne_some.2 fun next hnext => ?_
    obtain ⟨⟨p, hp, a, hfar⟩, -⟩ := gather_eq_some_iff.1 hnext
    exact h p hp a hfar

theorem norm2_pull_sub_le (box : Box ℝ) (center p : Vec3 ℝ) :
    (box.pull center p - center).norm2 ≤ (p - center).norm2 ∧
      ((∃ a, box.Far center p a) → (box.pull center p - center).norm2 < (p - center).norm2) := by
  have hle : ∀ a, ((box.pull center p).get a - center.get a) ^ 2 ≤ (p.get a - center.get a) ^ 2 := by
    intro a
    rcases box.pull_cases center p a with ⟨-, -, heq⟩ | ⟨-, -, _, -, -, hlt⟩
    · rw [heq]
    · exact hlt.le
  simp only [Vec3.norm2_eq, Vec3.get_sub]
  have hx := hle .x
  have hy := hle .y
  have hz := hle .z
  refine ⟨by linarith, ?_⟩
  rintro ⟨a, hfar⟩
  rcases box.pull_cases center p a with ⟨hnear, -⟩ | ⟨-, -, _, -, -, hlt⟩
  · exact absurd hfar hnear
  · cases a <;> linarith

/-- **A pass that moves something decreases the spread.** The points come closer to the centroid that they
had before, and their spread from the new centroid is no larger than that. -/
theorem spread_lt_of_gather (h : box.gather ps = some next) : spread next < spread ps := by
  obtain ⟨⟨p, hp, hfar⟩, rfl⟩ := gather_eq_some_iff.1 h
  calc spread (ps.map (box.pull (centroid ps)))
      ≤ spreadFrom (centroid ps) (ps.map (box.pull (centroid ps))) := spread_le_spreadFrom _ _
    _ < spreadFrom (centroid ps) ps := by
        rw [spreadFrom, spreadFrom, Array.toList_map, List.map_map]
        refine List.sum_lt_sum _ _ (fun q _ => (box.norm2_pull_sub_le _ q).1) ⟨p, ?_, ?_⟩
        · exact Array.mem_toList_iff.2 hp
        · exact (box.norm2_pull_sub_le _ p).2 hfar
    _ = spread ps := (spread_eq ps).symm

/-- **If a coordinate is far**, a pass decreases the spread, and it does nothing otherwise. -/
theorem exists_far_iff : (∃ p ∈ ps, ∃ a, box.Far (centroid ps) p a) ↔
    ∃ next, box.gather ps = some next ∧ spread next < spread ps := by
  constructor
  · intro hfar
    have hsome := gather_eq_some_iff.2 ⟨hfar, rfl⟩
    exact ⟨_, hsome, spread_lt_of_gather hsome⟩
  · rintro ⟨next, hsome, -⟩
    exact (gather_eq_some_iff.1 hsome).1

end Box

end SmoothedParticles
