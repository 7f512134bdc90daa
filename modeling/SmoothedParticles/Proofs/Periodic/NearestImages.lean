import SmoothedParticles.Proofs.Periodic.Places

/-!
# Nearest images

Of all separations at the same place, the nearest image is a shortest one, also where two of them are
equally short. So the periodic distance of two points is the least distance between their copies, and it is
a distance between places.

* `abs_le_of_modEq`: within half a period of zero, no other number of the same class is closer to zero.
* `Box.samePlace_nearestImage`, `Box.abs_get_nearestImage_le`, `Box.norm_nearestImage_le`: the nearest image
  is at the same place, within half a length along periodic axes, and **no longer than any other**.
* `Box.isLeast_distance`: the periodic distance is the least one between copies.
* `Box.distance_congr`, `Box.distance_comm`, `Box.distance_triangle`: **the periodic distance** belongs to
  places, is symmetric, and satisfies the triangle inequality.
* `Box.abs_distance_sub_le`: how much it changes when both points move.
-/

namespace SmoothedParticles

open AddCommGroup

/-- **Within half a period of zero**, no other number of the same class is closer to zero. -/
theorem abs_le_of_modEq {length x y : ℝ} (hx : |x| ≤ length / 2) (h : x ≡ y [PMOD length]) :
    |x| ≤ |y| := by
  obtain ⟨k, rfl⟩ := modEq_iff_eq_add_zsmul.1 h
  have hlength : 0 ≤ length := by linarith [abs_nonneg x]
  rw [zsmul_eq_mul]
  by_cases hk : k = 0
  · rw [hk, Int.cast_zero, zero_mul, add_zero]
  · have hone : (1 : ℝ) ≤ |(k : ℝ)| := by exact_mod_cast Int.one_le_abs hk
    have hfar : length ≤ |k * length| := by
      rw [abs_mul, abs_of_nonneg hlength]
      exact le_mul_of_one_le_left hlength hone
    have hsub := abs_sub_abs_le_abs_sub (k * length) (-x)
    rw [abs_neg, sub_neg_eq_add, add_comm (k * length)] at hsub
    linarith

theorem modEq_nearestImage (length x : ℝ) : x ≡ nearestImage length x [PMOD length] := by
  refine modEq_iff_eq_add_zsmul.2 ⟨-nearestWhole (x / length), ?_⟩
  rw [zsmul_eq_mul, Int.cast_neg, neg_mul, ← sub_eq_add_neg]
  rfl

theorem abs_nearestImage_le {length : ℝ} (h : 0 < length) (x : ℝ) :
    |nearestImage length x| ≤ length / 2 :=
  calc |nearestImage length x| = |(x / length - nearestWhole (x / length)) * length| := by
        rw [sub_mul, div_mul_cancel₀ x h.ne']
        rfl
    _ = |x / length - nearestWhole (x / length)| * length := by rw [abs_mul, abs_of_pos h]
    _ ≤ 1 / 2 * length := mul_le_mul_of_nonneg_right (abs_sub_nearestWhole_le _) h.le
    _ = length / 2 := by ring

namespace Box

variable {box : Box ℝ} {u v w u' v' : Vec3 ℝ} {s : Vec3 ℤ} {c : ℝ} {a : Axis}

/-- The nearest image of a separation is at the same place. -/
theorem samePlace_nearestImage (box : Box ℝ) (v : Vec3 ℝ) : box.SamePlace v (box.nearestImage v) := by
  intro a
  rw [nearestImage, Vec3.get_ofFn]
  split_ifs with hper
  · rw [period_of_periodic hper]
    exact modEq_nearestImage _ _
  · exact modEq_rfl

/-- **Along a periodic axis**, the nearest image is at most half a length. -/
theorem abs_get_nearestImage_le (h : box.periodic.get a = true) (v : Vec3 ℝ) :
    |(box.nearestImage v).get a| ≤ box.length a / 2 := by
  rw [nearestImage, Vec3.get_ofFn, if_pos h]
  exact abs_nearestImage_le (length_pos_of_periodic h) _

/-- **No separation at the same place is shorter** than the nearest image. -/
theorem norm_nearestImage_le (h : box.SamePlace v w) : (box.nearestImage v).norm ≤ w.norm := by
  refine Vec3.norm_le_norm fun a => ?_
  have ha := (box.samePlace_nearestImage v).symm.trans h a
  by_cases hper : box.periodic.get a = true
  · rw [period_of_periodic hper] at ha
    exact abs_le_of_modEq (abs_get_nearestImage_le hper v) ha
  · rw [period_of_not_periodic hper, modEq_zero] at ha
    rw [ha]

/-- The length of the nearest image is the least length of a separation at the same place. -/
theorem isLeast_norm_nearestImage (box : Box ℝ) (v : Vec3 ℝ) :
    IsLeast {c | ∃ s, box.Supports s ∧ (box.displace s v).norm = c} (box.nearestImage v).norm := by
  refine ⟨?_, ?_⟩
  · obtain ⟨s, hs, heq⟩ := samePlace_iff_displace.1 (box.samePlace_nearestImage v)
    exact ⟨s, hs, by rw [heq]⟩
  · rintro _ ⟨s, hs, rfl⟩
    exact norm_nearestImage_le (samePlace_displace hs v)

theorem distance_eq (box : Box ℝ) (u v : Vec3 ℝ) : box.distance u v = (box.nearestImage (v - u)).norm :=
  rfl

/-- **The periodic distance is the least distance** of a copy of the one point from the other. -/
theorem isLeast_distance (box : Box ℝ) (u v : Vec3 ℝ) :
    IsLeast {c | ∃ s, box.Supports s ∧ (box.displace s v - u).norm = c} (box.distance u v) := by
  have hmove : ∀ s, box.displace s v - u = box.displace s (v - u) := by
    intro s
    refine Vec3.ext_get fun a => ?_
    rw [Vec3.get_sub, get_displace, get_displace, Vec3.get_sub]
    ring
  simp only [hmove]
  exact box.isLeast_norm_nearestImage (v - u)

theorem distance_self (box : Box ℝ) (u : Vec3 ℝ) : box.distance u u = 0 := by
  have h := norm_nearestImage_le (SamePlace.refl box (u - u))
  have hzero : u - u = .zero := Vec3.ext_get fun a => by rw [Vec3.get_sub, sub_self, Vec3.get_zero]
  rw [hzero, Vec3.norm_zero] at h
  rw [distance_eq, hzero]
  exact le_antisymm h (Real.sqrt_nonneg _)

theorem distance_le_of_samePlace (hu : box.SamePlace u u') (hv : box.SamePlace v v') :
    box.distance u v ≤ box.distance u' v' :=
  norm_nearestImage_le ((hv.sub hu).trans (box.samePlace_nearestImage _))

/-- **The periodic distance belongs to places**: it does not change when points move by whole lengths. -/
theorem distance_congr (hu : box.SamePlace u u') (hv : box.SamePlace v v') :
    box.distance u v = box.distance u' v' :=
  le_antisymm (distance_le_of_samePlace hu hv) (distance_le_of_samePlace hu.symm hv.symm)

theorem distance_comm (box : Box ℝ) (u v : Vec3 ℝ) : box.distance u v = box.distance v u := by
  have hle : ∀ u v : Vec3 ℝ, box.distance u v ≤ box.distance v u := by
    intro u v
    have hflip : -(u - v) = v - u := Vec3.ext_get fun a => by
      rw [Vec3.get_neg, Vec3.get_sub, Vec3.get_sub, neg_sub]
    have h := (box.samePlace_nearestImage (u - v)).neg
    rw [hflip] at h
    calc box.distance u v ≤ (-box.nearestImage (u - v)).norm := norm_nearestImage_le h
      _ = box.distance v u := Vec3.norm_neg _
  exact le_antisymm (hle u v) (hle v u)

/-- **The triangle inequality**: two nearest images one after the other are at the place of the separation
of their ends, and the nearest image of that is no longer. -/
theorem distance_triangle (box : Box ℝ) (u v w : Vec3 ℝ) :
    box.distance u w ≤ box.distance u v + box.distance v w := by
  have hsum : v - u + (w - v) = w - u := Vec3.ext_get fun a => by
    rw [Vec3.get_add, Vec3.get_sub, Vec3.get_sub, Vec3.get_sub]
    ring
  have h := (box.samePlace_nearestImage (v - u)).add (box.samePlace_nearestImage (w - v))
  rw [hsum] at h
  exact (norm_nearestImage_le h).trans (Vec3.norm_add_le _ _)

/-- **If both points move**, their distance changes by no more than they have moved. -/
theorem abs_distance_sub_le (hu : box.distance u u' ≤ c) (hv : box.distance v v' ≤ c) :
    |box.distance u' v' - box.distance u v| ≤ c + c := by
  have h1 := box.distance_triangle u' u v'
  have h2 := box.distance_triangle u v v'
  have h3 := box.distance_triangle u u' v
  have h4 := box.distance_triangle u' v' v
  rw [box.distance_comm u' u] at h1
  rw [box.distance_comm v' v] at h4
  exact abs_le.2 ⟨by linarith, by linarith⟩

end Box

end SmoothedParticles
