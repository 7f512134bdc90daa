import SmoothedParticles.Proofs.Periodic.Reunions

/-!
# Reunited points

A reunion moves points by whole lengths along periodic axes, so that they stay at their places. If it has
ended before the bound on its passes, then no point is far from the centroid any more, and another reunion
changes nothing.

* `Box.MovedBy`: points that differ by at most so many lengths along each periodic axis.
* `Box.GatherRun.movedBy`: **a run moves each point** by at most one length per pass.
* `Box.reunite_gatherRun`: what a reunion returns is the end of a run.
* `Box.GatherRun.points_ofPoints`: the points at its end are those of a table.
* `Box.reunited_points_settle`: **reunited points are the same places**, and settled if the run has ended
  before the bound.
-/

namespace SmoothedParticles.Box

open AddCommGroup

variable {box : Box ℝ} {p q r : Vec3 ℝ} {m n : ℕ} {ps last : Array (Vec3 ℝ)} {t : Table ℝ}

/-- **Is a point moved to another one** by whole lengths along periodic axes, at most `n` along each? -/
def MovedBy (box : Box ℝ) (n : ℕ) (p q : Vec3 ℝ) : Prop :=
  ∀ a, ∃ k : ℤ, |k| ≤ n ∧ q.get a = p.get a + k * box.period a

theorem MovedBy.refl (box : Box ℝ) (p : Vec3 ℝ) : box.MovedBy 0 p p :=
  fun _ => ⟨0, abs_zero.le, by rw [Int.cast_zero, zero_mul, add_zero]⟩

theorem MovedBy.trans (h : box.MovedBy m p q) (h' : box.MovedBy n q r) : box.MovedBy (m + n) p r := by
  intro a
  obtain ⟨k, hk, hq⟩ := h a
  obtain ⟨l, hl, hr⟩ := h' a
  refine ⟨k + l, ?_, ?_⟩
  · calc |k + l| ≤ |k| + |l| := abs_add_le k l
      _ ≤ m + n := add_le_add hk hl
      _ = (m + n : ℕ) := (Nat.cast_add m n).symm
  · rw [hr, hq]
    push_cast
    ring

theorem MovedBy.mono (h : box.MovedBy m p q) (hmn : m ≤ n) : box.MovedBy n p q := by
  intro a
  obtain ⟨k, hk, hq⟩ := h a
  exact ⟨k, hk.trans (Int.ofNat_le.2 hmn), hq⟩

/-- A moved point is at the same place. -/
theorem MovedBy.samePlace (h : box.MovedBy n p q) : box.SamePlace p q := by
  intro a
  obtain ⟨k, -, hq⟩ := h a
  rw [modEq_iff_eq_add_zsmul]
  exact ⟨k, by rw [hq, zsmul_eq_mul]⟩

/-- Along other axes, a moved point is where it was. -/
theorem MovedBy.get_eq {a : Axis} (h : box.MovedBy n p q) (ha : ¬box.periodic.get a = true) :
    q.get a = p.get a := by
  obtain ⟨k, -, hq⟩ := h a
  rw [hq, period_of_not_periodic ha, mul_zero, add_zero]

/-- **A pull moves a point** by at most one length along each axis. -/
theorem movedBy_pull (box : Box ℝ) (center p : Vec3 ℝ) : box.MovedBy 1 p (box.pull center p) := by
  intro a
  rcases box.pull_cases center p a with ⟨-, -, hstay⟩ | ⟨-, -, k, hk, hmove, -⟩
  · exact ⟨0, by norm_num, by rw [hstay, Int.cast_zero, zero_mul, add_zero]⟩
  · exact ⟨k, hk.le, hmove⟩

/-- **A run moves each point** by at most one length per pass along each axis. -/
theorem GatherRun.movedBy (h : box.GatherRun n ps last) : last.size = ps.size ∧
    ∀ (i : ℕ) p q, ps[i]? = some p → last[i]? = some q → box.MovedBy n p q := by
  -- on the run, for any points that its first pass leads to
  induction h with
  | rest =>
    refine ⟨rfl, fun i p q hp hq => ?_⟩
    obtain rfl := Option.some.inj (hp.symm.trans hq)
    exact .refl box p
  | @pass n ps next last hpass _ ih =>
    obtain ⟨-, rfl⟩ := gather_eq_some_iff.1 hpass
    obtain ⟨hsize, hmoved⟩ := ih
    refine ⟨by rw [hsize, Array.size_map], fun i p q hp hq => ?_⟩
    have hpull : (ps.map (box.pull (centroid ps)))[i]? = some (box.pull (centroid ps) p) := by
      rw [Array.getElem?_map, hp, Option.map_some]
    rw [Nat.add_comm]
    exact (box.movedBy_pull _ p).trans (hmoved i _ q hpull hq)

/-- **What a reunion returns is the end of a run**: one after which nothing would move, or one that has
reached the bound. -/
theorem reunite_gatherRun (ht : t.columns = box.dimension.toNat) (hne : 0 < t.size) :
    ∃ k r, (box.reunite t).result = .ok r ∧ r.dimension = box.dimension ∧
      box.GatherRun k t.points r.points ∧ k ≤ r.passes ∧
      (r.passes < maxPasses → box.gather r.points = none) := by
  have hsize : 0 < t.points.size := by rwa [Table.size_points]
  obtain ⟨k, hrun, hend⟩ := box.gatherUpTo_run maxPasses t.points
  rw [reunite_eq ht, reunitePoints_eq box hsize]
  refine ⟨k, _, rfl, rfl, hrun, ?_⟩
  rcases hend with ⟨hnone, hpasses, -⟩ | ⟨hpasses, hk⟩
  · exact ⟨k.le_succ.trans hpasses.ge, fun _ => hnone⟩
  · exact ⟨hpasses.ge, fun hlt => absurd (hpasses.trans hk) hlt.ne⟩

/-- **The points at the end of a run** are those of a table, as the ones at its start. -/
theorem GatherRun.points_ofPoints (h : box.GatherRun n t.points last)
    (ht : t.columns = box.dimension.toNat) : (Table.ofPoints box.dimension last).points = last := by
  obtain ⟨hsize, hmoved⟩ := h.movedBy
  refine points_ofPoints_of_flat fun q hq a ha => ?_
  obtain ⟨i, hi, rfl⟩ := Array.mem_iff_getElem.1 hq
  have hi' : i < t.points.size := hsize ▸ hi
  have hmove : box.MovedBy n t.points[i] last[i] :=
    hmoved i _ _ (Array.getElem?_eq_getElem hi') (Array.getElem?_eq_getElem hi)
  rw [hmove.get_eq fun hper => ha (mem_axes_of_periodic hper)]
  exact Table.get_points ht (Array.getElem_mem hi') ha

/-- **Reunited points are the same places, and settled.** Along periodic axes, a reunion moves a point by
at most as many lengths as there are passes, and along the others not at all. So the points are wrapped to
the same ones as before. If there were fewer passes than the bound, then all of them are within half a
length of their centroid along periodic axes, and another reunion gives them back after one pass. -/
theorem reunited_points_settle (ht : t.columns = box.dimension.toNat) (hne : 0 < t.size) :
    ∃ r, (box.reunite t).result = .ok r ∧ r.dimension = box.dimension ∧ r.points.size = t.size ∧
      (∀ (i : ℕ) p q, t.points[i]? = some p → r.points[i]? = some q → box.MovedBy r.passes p q) ∧
      (∃ w, box.wrapTable t = .ok w ∧ box.wrapTable (.ofPoints r.dimension r.points) = .ok w) ∧
      (r.passes < maxPasses →
        (∀ q ∈ r.points, ∀ a, box.periodic.get a = true →
          |q.get a - (centroid r.points).get a| ≤ box.length a / 2) ∧
        (box.reunite (.ofPoints r.dimension r.points)).result =
          .ok ⟨r.dimension, r.points, false, 1⟩) := by
  obtain ⟨k, r, hr, hdim, hrun, hk, hend⟩ := reunite_gatherRun ht hne
  obtain ⟨hsize, hmoved⟩ := hrun.movedBy
  have hcolumns : (Table.ofPoints box.dimension r.points).columns = box.dimension.toNat :=
    box.dimension.length_axes
  have hpoints : (Table.ofPoints box.dimension r.points).points = r.points := hrun.points_ofPoints ht
  refine ⟨r, hr, hdim, hsize.trans t.size_points, fun i p q hp hq => (hmoved i p q hp hq).mono hk, ?_⟩
  rw [hdim]
  refine ⟨?_, fun hlt => ⟨fun q hq a hper => ?_, ?_⟩⟩
  · obtain ⟨w, hw⟩ : ∃ w, box.wrapTable t = .ok w := ⟨_, wrapTable_ok_iff.2 ⟨ht, rfl⟩⟩
    refine ⟨w, hw, (wrapTable_eq_iff hw hcolumns).2 ?_⟩
    rw [hpoints]
    exact ⟨hsize.symm, fun i p q hp hq => (hmoved i p q hp hq).samePlace⟩
  · have hnear : ¬box.Far (centroid r.points) q a := gather_eq_none_iff.1 (hend hlt) q hq a
    exact not_lt.1 fun hfar => hnear ⟨hper, hfar⟩
  · have hnonempty : 0 < r.points.size := by rwa [hsize, Table.size_points]
    have hrest : box.gatherUpTo maxPasses r.points = (r.points, 1) := gatherUpTo_of_none (hend hlt)
    rw [reunite_eq hcolumns, hpoints, reunitePoints_eq box hnonempty, hrest, hend hlt]
    rfl

/-- The cluster is settled after two passes, the second of which moves nothing. -/
theorem reunited_points_settle_cluster :
    let box := square 8 (by norm_num) true
    cluster.columns = box.dimension.toNat ∧ 0 < cluster.size ∧
      ∃ r, (box.reunite cluster).result = .ok r ∧ r.passes < maxPasses ∧
        (box.reunite (.ofPoints r.dimension r.points)).result =
          .ok ⟨r.dimension, r.points, false, 1⟩ := by
  intro box
  have hcolumns : cluster.columns = box.dimension.toNat := rfl
  have hpoints : 0 < cluster.points.size := by
    rw [points_cluster]
    exact Nat.succ_pos 2
  have hsize : 0 < cluster.size := by rwa [← Table.size_points]
  obtain ⟨r, hr, -, -, -, -, hsettled⟩ := reunited_points_settle hcolumns hsize
  have hpasses : r.passes = 2 := by
    have hruns : box.gatherUpTo maxPasses cluster.points = (#[⟨0, 4, 0⟩, ⟨1, 4, 0⟩, ⟨-1, 4, 0⟩], 2) := by
      rw [maxPasses, gatherUpTo_of_some gather_cluster, gatherUpTo_of_none gather_gathered_cluster]
    rw [reunite_eq hcolumns, reunitePoints_eq box hpoints, hruns] at hr
    exact congrArg Reunion.passes (Except.ok.inj hr).symm
  have hlt : r.passes < maxPasses := by
    rw [hpasses]
    decide
  exact ⟨hcolumns, hsize, r, hr, hlt, (hsettled hlt).2⟩

end SmoothedParticles.Box
