import SmoothedParticles.Proofs.Pairs.UpdateRuns
import SmoothedParticles.Proofs.Periodic.NearestImages

/-!
# Periodic distances of moving points

A list in a periodic box measures with the nearest image how far its points have moved, and by this bounds
how much the distances of its pairs have changed.

* `NeighborList.StaysWithin.abs_distance_sub_le`: distances change by at most the skin, while no point is
  further than half of it from where it was.
* `Box.periodic_distance_least`: **the periodic distance** is the least distance over all copies, and a distance
  between places.
-/

namespace SmoothedParticles

open NeighborList

/-- **Distances change by at most the skin**, while no point is further than half of it from where it was. -/
theorem NeighborList.StaysWithin.abs_distance_sub_le {box : Box ℝ} {skin : ℝ} {old new : PointSets ℝ}
    {i j : ℕ} {x' y' : Vec3 ℝ} (h : StaysWithin (some box) (skin / 2) old new)
    (hx : new.query[i]? = some x') (hy : new.reference[j]? = some y') :
    ∃ x y, old.query[i]? = some x ∧ old.reference[j]? = some y ∧
      |box.distance x' y' - box.distance x y| ≤ skin := by
  obtain ⟨x, hx, hxle⟩ : ∃ x, old.query[i]? = some x ∧ box.distance x x' ≤ skin / 2 := h.query i x' hx
  obtain ⟨y, hy, hyle⟩ : ∃ y, old.reference[j]? = some y ∧ box.distance y y' ≤ skin / 2 :=
    h.reference j y' hy
  have hle := Box.abs_distance_sub_le hxle hyle
  rw [add_halves] at hle
  exact ⟨x, y, hx, hy, hle⟩

namespace Box

/-- **The periodic distance is the least distance over all copies.** The nearest image moves a separation by
whole lengths along periodic axes only, to at most half a length along each of them, and no such move makes
it shorter. So the periodic distance is symmetric, the same for all copies of a point, and satisfies the
triangle inequality. It changes by at most the skin if both points move by at most half of it, which is so
for all pairs of a list whose points stay within half of the skin. -/
theorem periodic_distance_least (box : Box ℝ) :
    (∀ v, box.SamePlace v (box.nearestImage v) ∧
      (∀ a, box.periodic.get a = true → |(box.nearestImage v).get a| ≤ box.length a / 2) ∧
      IsLeast {c | ∃ s, box.Supports s ∧ (box.displace s v).norm = c} (box.nearestImage v).norm) ∧
    (∀ u v, IsLeast {c | ∃ s, box.Supports s ∧ (box.displace s v - u).norm = c} (box.distance u v)) ∧
    (∀ u, box.distance u u = 0) ∧
    (∀ u v, box.distance u v = box.distance v u) ∧
    (∀ u v s, box.Supports s → box.distance (box.displace s u) v = box.distance u v ∧
      box.distance u (box.displace s v) = box.distance u v) ∧
    (∀ u v w, box.distance u w ≤ box.distance u v + box.distance v w) ∧
    (∀ u v u' v' skin, box.distance u u' ≤ skin / 2 → box.distance v v' ≤ skin / 2 →
      |box.distance u' v' - box.distance u v| ≤ skin) ∧
    ∀ (old new : PointSets ℝ) (skin : ℝ), StaysWithin (some box) (skin / 2) old new →
      ∀ (i j : ℕ) x' y', new.query[i]? = some x' → new.reference[j]? = some y' →
        ∃ x y, old.query[i]? = some x ∧ old.reference[j]? = some y ∧
          |box.distance x' y' - box.distance x y| ≤ skin := by
  refine ⟨fun v => ⟨box.samePlace_nearestImage v, fun a hper => Box.abs_get_nearestImage_le hper v,
    box.isLeast_norm_nearestImage v⟩, box.isLeast_distance, box.distance_self, box.distance_comm,
    fun u v s hs => ?_, box.distance_triangle, fun u v u' v' skin hu hv => ?_,
    fun old new skin h i j x' y' hx hy => h.abs_distance_sub_le hx hy⟩
  · have hcopy : ∀ p, box.SamePlace (box.displace s p) p := fun p => (Box.samePlace_displace hs p).symm
    exact ⟨Box.distance_congr (hcopy u) (.refl box v), Box.distance_congr (.refl box u) (hcopy v)⟩
  · have hle := Box.abs_distance_sub_le hu hv
    rwa [add_halves] at hle

/-- In a square of length eight, a point crosses a face, next to another one that rests. From a point on a
face to one in the middle, there are two nearest images. -/
theorem periodic_distance_least_crossing :
    let box := Box.square 8 (by norm_num) true
    let old : PointSets ℝ := ⟨#[⟨1 / 8, 4, 0⟩], some #[⟨4, 4, 0⟩]⟩
    let new : PointSets ℝ := ⟨#[⟨63 / 8, 4, 0⟩], some #[⟨4, 4, 0⟩]⟩
    box.Supports ⟨1, 0, 0⟩ ∧
      box.distance (box.displace ⟨1, 0, 0⟩ ⟨0, 4, 0⟩) ⟨4, 4, 0⟩ = box.distance ⟨0, 4, 0⟩ ⟨4, 4, 0⟩ ∧
      box.distance ⟨1 / 8, 4, 0⟩ ⟨63 / 8, 4, 0⟩ ≤ 1 / 2 / 2 ∧
      box.distance ⟨4, 4, 0⟩ ⟨4, 4, 0⟩ ≤ 1 / 2 / 2 ∧
      |box.distance ⟨63 / 8, 4, 0⟩ ⟨4, 4, 0⟩ - box.distance ⟨1 / 8, 4, 0⟩ ⟨4, 4, 0⟩| ≤ 1 / 2 ∧
      StaysWithin (some box) (1 / 2 / 2) old new ∧
      ∃ x y, old.query[0]? = some x ∧ old.reference[0]? = some y ∧
        |box.distance ⟨63 / 8, 4, 0⟩ ⟨4, 4, 0⟩ - box.distance x y| ≤ 1 / 2 := by
  intro box old new
  obtain ⟨-, -, hself, -, hcopy, -, hmoved, hstays⟩ := periodic_distance_least box
  have hs : box.Supports ⟨1, 0, 0⟩ := supports_square rfl
  have hcross : box.distance ⟨1 / 8, 4, 0⟩ ⟨63 / 8, 4, 0⟩ ≤ 1 / 2 / 2 := by
    have hsub : (⟨63 / 8, 4, 0⟩ : Vec3 ℝ) - ⟨1 / 8, 4, 0⟩ = ⟨31 / 4, 0, 0⟩ :=
      Vec3.ext_get fun a => by rw [Vec3.get_sub]; cases a <;> norm_num [Vec3.get]
    have hround : nearestWhole (31 / 4 / 8) = 1 := by
      rw [nearestWhole, if_pos (by norm_num), Int.floor_eq_iff]
      norm_num
    rw [distance_eq, hsub, norm_nearestImage_square_le (by norm_num), hround, zero_div, nearestWhole_zero]
    norm_num
  have hrest : box.distance ⟨4, 4, 0⟩ ⟨4, 4, 0⟩ ≤ 1 / 2 / 2 := by
    rw [hself]
    norm_num
  have hnear : StaysWithin (some box) (1 / 2 / 2) old new := by
    refine ⟨fun i y hy => ?_, fun i y hy => ?_⟩
    · obtain rfl : i = 0 := Nat.lt_one_iff.1 (Array.getElem?_eq_some_iff.1 hy).1
      rw [← Option.some.inj hy]
      exact ⟨_, rfl, hcross⟩
    · obtain rfl : i = 0 := Nat.lt_one_iff.1 (Array.getElem?_eq_some_iff.1 hy).1
      rw [← Option.some.inj hy]
      exact ⟨_, rfl, hrest⟩
  exact ⟨hs, (hcopy _ _ _ hs).1, hcross, hrest, hmoved _ _ _ _ _ hcross hrest, hnear,
    hstays old new _ hnear 0 0 _ _ rfl rfl⟩

end Box

end SmoothedParticles
