import SmoothedParticles.Proofs.Periodic.Spread

/-!
# Reunions

A reunion is a run of passes that move something, until one does not or until there have been too many. In
exact arithmetic, each of them decreases the spread, so that a run is never rejected.

* `Box.GatherRun`: **a run of passes that move something**, by their number.
* `Box.gatherUpTo_run`: what the bounded loop does is such a run.
* `Box.GatherRun.spread_lt`: **a run decreases the spread**.
* `Box.reunitePoints_eq`, `Box.reunite_eq`: the outcome of a reunion, and its events.
* `Box.reunion_never_rejected`: **points are reunited exactly if the first pass moves something**, and then
  they are less spread out.
* `Box.cluster`, `Box.gather_cluster`: three points that wrapping has split, and the pass that reunites them.
-/

namespace SmoothedParticles.Box

variable {box : Box ℝ} {ps next last : Array (Vec3 ℝ)} {n k : ℕ} {t : Table ℝ}

/-- **A run of passes**, each of which moves something. -/
inductive GatherRun (box : Box ℝ) : ℕ → Array (Vec3 ℝ) → Array (Vec3 ℝ) → Prop
  | rest {ps : Array (Vec3 ℝ)} : GatherRun box 0 ps ps
  | pass {n : ℕ} {ps next last : Array (Vec3 ℝ)} :
      box.gather ps = some next → GatherRun box n next last → GatherRun box (n + 1) ps last

theorem gatherUpTo_of_none (h : box.gather ps = none) : box.gatherUpTo (n + 1) ps = (ps, 1) := by
  rw [gatherUpTo, h]

theorem gatherUpTo_of_some (h : box.gather ps = some next) : box.gatherUpTo (n + 1) ps =
    ((box.gatherUpTo n next).1, (box.gatherUpTo n next).2 + 1) := by
  rw [gatherUpTo, h]

/-- **The bounded loop is a run**, which ends before a pass that moves nothing, or at the bound. The pass
that moves nothing is counted too. -/
theorem gatherUpTo_run (box : Box ℝ) (n : ℕ) (ps : Array (Vec3 ℝ)) :
    ∃ k, box.GatherRun k ps (box.gatherUpTo n ps).1 ∧
      ((box.gather (box.gatherUpTo n ps).1 = none ∧ (box.gatherUpTo n ps).2 = k + 1 ∧ k < n) ∨
        ((box.gatherUpTo n ps).2 = k ∧ k = n)) := by
  -- on the bound, for any points to start from
  induction n generalizing ps with
  | zero => exact ⟨0, .rest, .inr ⟨rfl, rfl⟩⟩
  | succ n ih =>
    cases h : box.gather ps with
    | none =>
      rw [gatherUpTo_of_none h]
      exact ⟨0, .rest, .inl ⟨h, rfl, n.succ_pos⟩⟩
    | some next =>
      rw [gatherUpTo_of_some h]
      obtain ⟨k, hrun, hend⟩ := ih next
      refine ⟨k + 1, .pass h hrun, hend.imp ?_ ?_⟩
      · rintro ⟨hnone, hk, hlt⟩
        exact ⟨hnone, by rw [hk], by omega⟩
      · rintro ⟨hk, hn⟩
        exact ⟨by rw [hk], by rw [hn]⟩

/-- No run increases the spread. -/
theorem GatherRun.spread_le (h : box.GatherRun n ps last) : spread last ≤ spread ps := by
  induction h with
  | rest => exact le_rfl
  | pass hpass _ ih => exact ih.trans (spread_lt_of_gather hpass).le

/-- **A run decreases the spread**, if there is a pass in it. -/
theorem GatherRun.spread_lt (h : box.GatherRun (n + 1) ps last) : spread last < spread ps := by
  cases h with
  | pass hpass hrun => exact hrun.spread_le.trans_lt (spread_lt_of_gather hpass)

theorem spread_gatherUpTo_lt (h : box.gather ps = some next) :
    spread (box.gatherUpTo (n + 1) ps).1 < spread ps := by
  obtain ⟨k, hrun, -⟩ := box.gatherUpTo_run n next
  rw [gatherUpTo_of_some h]
  exact (GatherRun.pass h hrun).spread_lt

/-- **The outcome of a reunion**, and all that is told about it. The points of the last pass are always
taken: if nothing moves these are the given ones, and otherwise they are less spread out. -/
theorem reunitePoints_eq (box : Box ℝ) (h : 0 < ps.size) : box.reunitePoints ps =
    ⟨[.reunified (box.gatherUpTo maxPasses ps).2 (spread ps) (spread (box.gatherUpTo maxPasses ps).1)],
      .ok ⟨box.dimension, (box.gatherUpTo maxPasses ps).1, (box.gather ps).isSome,
        (box.gatherUpTo maxPasses ps).2⟩⟩ := by
  have hempty : ps.isEmpty = false := by simpa using h.ne'
  unfold reunitePoints
  rw [hempty]
  cases hfirst : box.gather ps with
  | none =>
    have hrun : box.gatherUpTo maxPasses ps = (ps, 1) := gatherUpTo_of_none hfirst
    rw [hrun]
    rfl
  | some next =>
    have hlt : spread (box.gatherUpTo maxPasses ps).1 < spread ps := spread_gatherUpTo_lt hfirst
    simp only [Bool.false_eq_true, if_false, Option.isSome_some, true_and, if_pos hlt]
    rfl

theorem reunite_eq (ht : t.columns = box.dimension.toNat) :
    box.reunite t = box.reunitePoints t.points := by
  have hpoints : box.pointsOf t = .ok t.points := pointsOf_ok_iff.2 ⟨ht, rfl⟩
  unfold reunite
  rw [hpoints]
  rfl

/-- Three points of a square of length eight, one of them across a face from the others. -/
noncomputable def cluster : Table ℝ := ⟨2, #[#v[0, 4], #v[1, 4], #v[7, 4]]⟩

theorem points_cluster : cluster.points = #[⟨0, 4, 0⟩, ⟨1, 4, 0⟩, ⟨7, 4, 0⟩] := by
  simp [cluster, Table.points_plane]

theorem centroid_row (x y z : ℝ) :
    centroid #[⟨x, 4, 0⟩, ⟨y, 4, 0⟩, ⟨z, 4, 0⟩] = ⟨(x + y + z) / 3, 4, 0⟩ := by
  refine Vec3.ext_get fun a => ?_
  rw [get_centroid]
  cases a <;> simp [Vec3.get] <;> ring

/-- On a row along the first axis, a point is far from the centroid if it is along this axis. -/
theorem far_row_iff {c x : ℝ} {a : Axis} :
    (square 8 (by norm_num) true).Far ⟨c, 4, 0⟩ ⟨x, 4, 0⟩ a ↔ a = .x ∧ 4 < |x - c| := by
  have hhalf : (8 : ℝ) / 2 = 4 := by norm_num
  rw [Far, length_square]
  cases a <;> simp [square, Vec3.get, hhalf]

theorem pull_row (c x : ℝ) : (square 8 (by norm_num) true).pull ⟨c, 4, 0⟩ ⟨x, 4, 0⟩ =
    ⟨if 4 < x - c then x - 8 else if x - c < -4 then x + 8 else x, 4, 0⟩ := by
  have hhalf : (8 : ℝ) / 2 = 4 := by norm_num
  refine Vec3.ext_get fun a => ?_
  rw [pull, Vec3.get_ofFn, pullAlong?, length_square, pull?_eq]
  cases a with
  | x =>
    simp only [square, Vec3.get, reduceCtorEq, if_true, if_false, hhalf]
    split_ifs <;> rfl
  | y =>
    simp only [square, Vec3.get, reduceCtorEq, if_true, if_false, hhalf, sub_self]
    norm_num
  | z => simp [square, Vec3.get]

/-- The first pass brings the point that is across the face back to the others. -/
theorem gather_cluster : (square 8 (by norm_num) true).gather cluster.points =
    some #[⟨0, 4, 0⟩, ⟨1, 4, 0⟩, ⟨-1, 4, 0⟩] := by
  rw [points_cluster, gather_eq_some_iff, centroid_row]
  refine ⟨⟨⟨7, 4, 0⟩, by simp, .x, far_row_iff.2 ⟨rfl, by norm_num⟩⟩, ?_⟩
  simp only [List.map_toArray, List.map_cons, List.map_nil, pull_row]
  norm_num

/-- The second pass leaves them there. -/
theorem gather_gathered_cluster : (square 8 (by norm_num) true).gather
    #[⟨0, 4, 0⟩, ⟨1, 4, 0⟩, ⟨-1, 4, 0⟩] = none := by
  have hcenter : ((0 : ℝ) + 1 + -1) / 3 = 0 := by norm_num
  have hnear : ∀ x : ℝ, |x| ≤ 1 → ∀ a, ¬(square 8 (by norm_num) true).Far ⟨0, 4, 0⟩ ⟨x, 4, 0⟩ a := by
    intro x hx a hfar
    obtain ⟨-, hlt⟩ := far_row_iff.1 hfar
    rw [sub_zero] at hlt
    linarith
  rw [gather_eq_none_iff, centroid_row, hcenter]
  intro p hp
  simp only [List.mem_toArray, List.mem_cons, List.not_mem_nil, or_false] at hp
  rcases hp with rfl | rfl | rfl
  · exact hnear 0 (by norm_num)
  · exact hnear 1 (by norm_num)
  · exact hnear (-1) (by norm_num)

/-- **A reunion is never rejected**, in exact arithmetic. A pass decreases the spread exactly if it moves
something, which it does if a coordinate is far from the centroid. So the points are reunited exactly if
the first pass moves something, and then they are less spread out than before. Otherwise they are given
back as they are, and there is never a warning. -/
theorem reunion_never_rejected (ht : t.columns = box.dimension.toNat) :
    (∀ ps, (∃ p ∈ ps, ∃ a, box.Far (centroid ps) p a) ↔
      ∃ next, box.gather ps = some next ∧ spread next < spread ps) ∧
    ∃ r, (box.reunite t).result = .ok r ∧
      (r.reunited = true ↔ ∃ p ∈ t.points, ∃ a, box.Far (centroid t.points) p a) ∧
      (r.reunited = true → spread r.points < spread t.points) ∧
      (r.reunited = false → r.points = t.points) ∧
      ∀ count before after, .reunificationRejected count before after ∉ (box.reunite t).events := by
  refine ⟨fun _ => exists_far_iff, ?_⟩
  rw [reunite_eq ht]
  rcases t.points.size.eq_zero_or_pos with hsize | hsize
  · -- without points there is no pass, and nothing is told
    have hempty : t.points = #[] := Array.eq_empty_of_size_eq_zero hsize
    rw [hempty]
    refine ⟨_, rfl, ?_, fun h => absurd h Bool.false_ne_true, fun _ => rfl, fun _ _ _ => List.not_mem_nil⟩
    exact iff_of_false Bool.false_ne_true fun ⟨p, hp, _⟩ => absurd hp (Array.not_mem_empty p)
  · rw [reunitePoints_eq box hsize]
    refine ⟨_, rfl, ?_, fun hsome => ?_, fun hnone => ?_, fun _ _ _ hmem => ?_⟩
    · rw [exists_far_iff, Option.isSome_iff_exists]
      exact exists_congr fun next => (and_iff_left_of_imp spread_lt_of_gather).symm
    · obtain ⟨next, hnext⟩ := Option.isSome_iff_exists.1 hsome
      exact spread_gatherUpTo_lt hnext
    · -- the points of the last pass are taken here too, but there was only one, which moved nothing
      have hrun : box.gatherUpTo maxPasses t.points = (t.points, 1) :=
        gatherUpTo_of_none (Option.isNone_iff_eq_none.1 (Option.isSome_eq_false_iff.1 hnone))
      exact congrArg Prod.fst hrun
    · nomatch List.mem_singleton.1 hmem

/-- A reunion of the cluster brings its points together. -/
theorem reunion_never_rejected_cluster :
    cluster.columns = (square 8 (by norm_num) true).dimension.toNat ∧
      ∃ r, ((square 8 (by norm_num) true).reunite cluster).result = .ok r ∧ r.reunited = true ∧
        spread r.points < spread cluster.points := by
  have hcolumns : cluster.columns = (square 8 (by norm_num) true).dimension.toNat := rfl
  obtain ⟨-, r, hr, hiff, hlt, -⟩ := reunion_never_rejected hcolumns
  have hreunited : r.reunited = true := hiff.2 ((gather_eq_some_iff.1 gather_cluster).1)
  exact ⟨hcolumns, r, hr, hreunited, hlt hreunited⟩

end SmoothedParticles.Box
