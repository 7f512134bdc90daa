import SmoothedParticles.Proofs.Pairs.Outcomes
import SmoothedParticles.Proofs.Periodic.FirstCopies
import SmoothedParticles.Proofs.Periodic.ImageShifts

/-!
# The images of points

In exact arithmetic, for points inside of a box and a cutoff of at most half of each periodic length,
one layer of images is enough: every copy within the cutoff of the box has an image at its position.

* `AcceptsCutoff`, `images_ok_iff`: when images are made, and which.
* `shift_cases`: along one axis, a copy close to the box is moved by one length at most.
* `mem_copies`, `mem_copies_of_near`: the copies, and which of them are certain to be among them.
* `images_complete`: **the images are complete**, exact and free of repetitions.
-/

namespace SmoothedParticles

namespace Box

variable {box : Box ℝ} {cutoff : Vec3 ℝ} {ps : List (Vec3 ℝ)} {c : Image ℝ} {t : Table ℝ}

@[simp] theorem get_displace (box : Box ℝ) (s : Vec3 ℤ) (p : Vec3 ℝ) (a : Axis) :
    (box.displace s p).get a = p.get a + s.get a * box.length a := by
  simp [displace]

theorem displace_square {length : ℝ} {h : 0 < length} {periodic : Bool} {s : Vec3 ℤ} {x y : ℝ} :
    (square length h periodic).displace s ⟨x, y, 0⟩ = ⟨x + s.x * length, y + s.y * length, 0⟩ := by
  refine Vec3.ext_get fun a => ?_
  rw [get_displace, length_square]
  cases a <;> simp [Vec3.get]

/-- Is the cutoff positive, and at most half of each periodic length? -/
def AcceptsCutoff (box : Box ℝ) (cutoff : Vec3 ℝ) : Prop :=
  ∀ a ∈ box.dimension.axes,
    0 < cutoff.get a ∧ (box.periodic.get a = true → cutoff.get a ≤ box.length a / 2)

theorem acceptsCutoff_square {length r : ℝ} {h : 0 < length} {periodic : Bool} (h0 : 0 < r)
    (hr : r ≤ length / 2) : (square length h periodic).AcceptsCutoff (.replicate r) := by
  intro a _
  rw [Vec3.get_replicate]
  exact ⟨h0, le_half_length_square hr⟩

theorem checkCutoff_ok_iff {a : Axis} : box.checkCutoff cutoff a = .ok () ↔
    0 < cutoff.get a ∧ (box.periodic.get a = true → cutoff.get a ≤ box.length a / 2) := by
  have hhalf : (0.5 : ℝ) * box.length a < cutoff.get a ↔ ¬cutoff.get a ≤ box.length a / 2 := by
    rw [not_le]
    norm_num
    constructor <;> intro h <;> linarith
  simp only [checkCutoff, Scalar.isPositive_iff, hhalf, invalid_bind, ite_invalid_iff, not_not,
    not_and]
  exact ⟨fun h => ⟨h.1, h.2.1⟩, fun h => ⟨h.1, h.2, rfl⟩⟩

/-- When images are made, and which, in any arithmetic. -/
theorem images_eq_ok_iff {α : Type} [Scalar α] {box : Box α} {t : Table α} {cutoff : Vec3 α}
    {images : Images α} : (box.images t cutoff).result = .ok images ↔ box.Covers t ∧
      (∀ a ∈ box.dimension.axes, box.checkCutoff cutoff a = .ok ()) ∧
      box.imagesOf cutoff t.points.toList = images := by
  have hcut : box.dimension.axes.forM (box.checkCutoff cutoff) = .ok () ↔
      ∀ a ∈ box.dimension.axes, box.checkCutoff cutoff a = .ok () := forM_eq_ok_iff
  rw [result_images]
  simp only [bind_eq_ok_iff, pure_eq_ok_iff]
  constructor
  · rintro ⟨ps, hps, _, hchecks, himages⟩
    obtain ⟨ht, rfl⟩ := checkInside_eq_ok_iff.1 hps
    exact ⟨ht, hcut.1 hchecks, himages⟩
  · rintro ⟨ht, haccepts, rfl⟩
    exact ⟨t.points, checkInside_eq_ok_iff.2 ⟨ht, rfl⟩, (), hcut.2 haccepts, rfl⟩

/-- **When images are made**, and which. -/
theorem images_ok_iff {images : Images ℝ} : (box.images t cutoff).result = .ok images ↔
    box.Admits t ∧ box.AcceptsCutoff cutoff ∧ box.imagesOf cutoff t.points.toList = images := by
  have hcut : (∀ a ∈ box.dimension.axes, box.checkCutoff cutoff a = .ok ()) ↔
      box.AcceptsCutoff cutoff := forall₂_congr fun a _ => checkCutoff_ok_iff
  rw [images_eq_ok_iff, covers_iff, hcut]

/-- The copy of a point that a shift moves. -/
def copyOf {α : Type} [Scalar α] (box : Box α) (x : Vec3 α) (j : ℕ) (s : Vec3 ℤ) : Image α :=
  ⟨box.displace s x, j, s, .ofCount box.dimension (shiftedAxes s).length⟩

theorem reaches_iff {s : Vec3 ℤ} {p : Vec3 ℝ} : box.reaches cutoff s p = true ↔
    ∀ a, (s.get a = 1 → p.get a - box.lo.get a ≤ cutoff.get a) ∧
      (s.get a = -1 → box.hi.get a - p.get a ≤ cutoff.get a) := by
  have hall : box.reaches cutoff s p = true ↔ ∀ a : Axis,
      (if s.get a = 1 then decide (p.get a - box.lo.get a ≤ cutoff.get a)
      else if s.get a = -1 then decide (box.hi.get a - p.get a ≤ cutoff.get a) else true) = true := by
    unfold reaches
    rw [List.all_eq_true]
    exact ⟨fun h a => h a (by cases a <;> simp), fun h a _ => h a⟩
  rw [hall]
  refine forall_congr' fun a => ?_
  split_ifs with h1 h2
  · simp [h1]
  · simp [h2]
  · simp [h1, h2]

/-- **The copies** are those of points close to the faces that an image shift moves them across. -/
theorem mem_copies {α : Type} [Scalar α] {box : Box α} {cutoff : Vec3 α} {ps : List (Vec3 α)}
    {c : Image α} : c ∈ box.copies cutoff ps ↔ ∃ x j s, ps[j]? = some x ∧ box.IsImageShift s ∧
      box.reaches cutoff s x = true ∧ c = box.copyOf x j s := by
  simp only [copies, List.mem_flatMap, List.mem_filterMap, Prod.exists, Option.ite_none_right_eq_some,
    Option.some.injEq]
  constructor
  · intro h
    obtain ⟨k, s, hs, x, j, hx, hr, rfl⟩ := h
    obtain ⟨hshift, rfl⟩ := mem_imageShifts.1 hs
    exact ⟨x, j, s, List.mem_zipIdx_iff_getElem?.1 hx, hshift, hr, rfl⟩
  · intro h
    obtain ⟨x, j, s, hx, hs, hr, rfl⟩ := h
    exact ⟨_, s, mem_imageShifts.2 ⟨hs, rfl⟩, x, j, List.mem_zipIdx_iff_getElem?.2 hx, hr, rfl⟩

/-- **One layer of images is enough.** Along one axis, a copy within `c` of a point of the box, which
is at least twice as long, is moved by one length at most, away from a face closer than `c`. -/
theorem shift_cases {lo hi c x y : ℝ} {n : ℤ} (h : lo < hi) (hc : c ≤ (hi - lo) / 2)
    (hx : lo ≤ x ∧ x ≤ hi) (hy : lo ≤ y ∧ y ≤ hi) (hn : |x + n * (hi - lo) - y| ≤ c) :
    n = 0 ∨ (n = 1 ∧ x - lo ≤ c) ∨ (n = -1 ∧ hi - x ≤ c) := by
  obtain ⟨h1, h2⟩ := abs_le.1 hn
  have hL : 0 < hi - lo := sub_pos.2 h
  have hlt : (n : ℝ) < 2 := by
    refine lt_of_mul_lt_mul_right ?_ hL.le
    linarith
  have hgt : (-2 : ℝ) < n := by
    refine lt_of_mul_lt_mul_right ?_ hL.le
    linarith
  have hlt : n < 2 := by exact_mod_cast hlt
  have hgt : -2 < n := by exact_mod_cast hgt
  have hcases : n = 0 ∨ n = 1 ∨ n = -1 := by omega
  rcases hcases with rfl | rfl | rfl
  · exact .inl rfl
  · refine .inr (.inl ⟨rfl, ?_⟩)
    push_cast at h2
    linarith
  · refine .inr (.inr ⟨rfl, ?_⟩)
    push_cast at h1
    linarith

/-- **A copy close to the box is among the copies.** -/
theorem mem_copies_of_near {x y : Vec3 ℝ} {j : ℕ} {s : Vec3 ℤ} (hcut : box.AcceptsCutoff cutoff)
    (hx : box.Encloses x) (hy : box.Encloses y) (hj : ps[j]? = some x) (hs : s ≠ .replicate 0)
    (hper : ∀ a, s.get a ≠ 0 → box.periodic.get a = true)
    (hnear : ∀ a ∈ box.dimension.axes, |(box.displace s x).get a - y.get a| ≤ cutoff.get a) :
    box.copyOf x j s ∈ box.copies cutoff ps := by
  have hcases : ∀ a, s.get a = 0 ∨ (s.get a = 1 ∧ x.get a - box.lo.get a ≤ cutoff.get a) ∨
      (s.get a = -1 ∧ box.hi.get a - x.get a ≤ cutoff.get a) := by
    intro a
    by_cases h0 : s.get a = 0
    · exact .inl h0
    -- the axis is periodic, and at least twice as long as the cutoff
    have ha := mem_axes_of_periodic (hper a h0)
    have h := hnear a ha
    rw [get_displace] at h
    exact shift_cases (box.lo_lt_hi a ha) ((hcut a ha).2 (hper a h0)) (hx a) (hy a) h
  refine mem_copies.2 ⟨x, j, s, hj, ⟨hs, fun a => ?_, hper⟩, reaches_iff.2 fun a => ?_, rfl⟩
  · exact (hcases a).imp_right (Or.imp And.left And.left)
  · have := hcases a
    constructor <;> intro h <;> simpa [h] using this

/-- **The images are complete, exact and free of repetitions.** Each copy of a point within the cutoff
of the box has an image at its position, for shifts by any numbers of box lengths. Each image is a
copy of a point close to the faces it is moved across, with the kind that counts the moved axes. -/
theorem images_complete (box : Box ℝ) (t : Table ℝ) (cutoff : Vec3 ℝ)
    (hcols : t.columns = box.dimension.toNat) (hin : ∀ p ∈ t.points, box.Encloses p)
    (hcut : box.AcceptsCutoff cutoff) :
    ∃ images, (box.images t cutoff).result = .ok images ∧
      (∀ (j : ℕ) x, t.points[j]? = some x → ∀ s : Vec3 ℤ, s ≠ .replicate 0 →
        (∀ a, s.get a ≠ 0 → box.periodic.get a = true) →
        (∃ y, box.Encloses y ∧ ∀ a ∈ box.dimension.axes,
          |(box.displace s x).get a - y.get a| ≤ cutoff.get a) →
        ∃ image ∈ images.items, image.position = box.displace s x) ∧
      (∀ image ∈ images.items, box.IsImageShift image.shift ∧
        image.kind = .ofCount box.dimension (shiftedAxes image.shift).length ∧
        ∃ x, t.points[image.source]? = some x ∧ image.position = box.displace image.shift x ∧
          ∀ a, (image.shift.get a = 1 → x.get a - box.lo.get a ≤ cutoff.get a) ∧
            (image.shift.get a = -1 → box.hi.get a - x.get a ≤ cutoff.get a)) ∧
      (images.items.toList.map Image.position).Nodup := by
  refine ⟨_, images_ok_iff.2 ⟨⟨hcols, hin⟩, hcut, rfl⟩, fun j x hx s hs hper hnear => ?_,
    fun image himage => ?_, nodup_positions _⟩
  · obtain ⟨y, hy, hnear⟩ := hnear
    have hmem := Array.mem_of_getElem? hx
    rw [← Array.getElem?_toList] at hx
    exact exists_image_at (mem_copies_of_near hcut (hin x hmem) hy hx hs hper hnear)
  · obtain ⟨x, j, s, hx, hs, hr, rfl⟩ := mem_copies.1 (mem_firstAtPosition.1 himage).mem
    rw [Array.getElem?_toList] at hx
    exact ⟨hs, rfl, x, hx, rfl, reaches_iff.1 hr⟩

end Box

/-- Points on opposite faces of a square, and two at the same corner, with the largest cutoff: the
opposite corner has an image. -/
theorem images_complete_corner :
    let box := Box.square 8 (by norm_num) true
    let t : Table ℝ := ⟨2, #[#v[0, 0], #v[0, 0], #v[8, 4]]⟩
    t.columns = box.dimension.toNat ∧ (∀ p ∈ t.points, box.Encloses p) ∧
      box.AcceptsCutoff (.replicate 4) ∧
      ∃ images, (box.images t (.replicate 4)).result = .ok images ∧
        ∃ image ∈ images.items, image.position = ⟨8, 8, 0⟩ := by
  intro box t
  have hpoints : t.points = #[⟨0, 0, 0⟩, ⟨0, 0, 0⟩, ⟨8, 4, 0⟩] := by
    simp [t, Table.points, Vec3.ofList]
  have ht : box.Admits t := by
    refine Box.admits_square.2 ?_
    simp only [List.mem_toArray, List.forall_mem_cons]
    norm_num
  have hcut : box.AcceptsCutoff (.replicate 4) :=
    Box.acceptsCutoff_square (by norm_num) (by norm_num)
  obtain ⟨images, hok, hcomplete, -⟩ := Box.images_complete box t (.replicate 4) ht.1 ht.2 hcut
  refine ⟨ht.1, ht.2, hcut, images, hok, ?_⟩
  have hshift : box.displace ⟨1, 1, 0⟩ ⟨0, 0, 0⟩ = ⟨8, 8, 0⟩ := by
    rw [Box.displace_square]
    norm_num
  obtain ⟨image, himage, hpos⟩ := hcomplete 0 ⟨0, 0, 0⟩ (by rw [hpoints]; rfl) ⟨1, 1, 0⟩ (by decide)
    (Box.supports_square rfl)
    ⟨⟨8, 8, 0⟩, Box.encloses_square.2 (by norm_num), fun a _ => by rw [hshift]; simp⟩
  exact ⟨image, himage, hpos.trans hshift⟩

end SmoothedParticles
