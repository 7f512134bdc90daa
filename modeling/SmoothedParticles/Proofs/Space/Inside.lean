import SmoothedParticles.Proofs.Exact.Vectors
import SmoothedParticles.Proofs.Report.Results
import SmoothedParticles.Space.Box

/-!
# Points inside of a box

* `Encloses`: the points of the closed box; in the plane their last coordinate is zero.
* `length_pos`, `length_pos_of_periodic`: the lengths that are divided by are positive.
* `Covers`, `checkInside_eq_ok_iff`: the check accepts a table exactly if it has one column per axis and
  all its points are within the bounds along the axes in use.
* `Admits`, `covers_iff`: in exact arithmetic, these are the tables with all points inside of the box.
-/

namespace SmoothedParticles

theorem Table.get_points {t : Table ℝ} {d : Dimension} (ht : t.columns = d.toNat) {p : Vec3 ℝ}
    (hp : p ∈ t.points) {a : Axis} (ha : a ∉ d.axes) : p.get a = 0 := by
  obtain ⟨r, -, rfl⟩ := Array.mem_map.1 hp
  cases d with
  | three => cases a <;> simp [Dimension.axes] at ha
  | two =>
    have hlen : r.toList.length = 2 := by rw [Vector.length_toList, ht]; rfl
    cases a with
    | x => simp [Dimension.axes] at ha
    | y => simp [Dimension.axes] at ha
    | z => simp [Vec3.ofList, Vec3.get, hlen]

/-- Two columns are points of the plane. -/
theorem Table.points_plane (rows : Array (Vector ℝ 2)) :
    (⟨2, rows⟩ : Table ℝ).points = rows.map fun r => ⟨r[0], r[1], 0⟩ := by
  unfold Table.points
  refine Array.map_congr_left fun r _ => ?_
  have hr : r.toList = [r[0], r[1]] := by
    have hlen : r.toList.length = 2 := Vector.length_toList
    refine List.ext_getElem hlen fun i hi _ => ?_
    have hi : i < 2 := hlen ▸ hi
    interval_cases i <;> simp
  rw [hr, Vec3.ofList, Scalar.zero_eq]
  rfl

namespace Box

section Bounds

variable {α : Type} [Scalar α] {box : Box α} {t : Table α} {ps : Array (Vec3 α)}

theorem firstOutside?_eq_none {ps : List (Vec3 α)} : box.firstOutside? ps = none ↔
    ∀ p ∈ ps, ∀ a ∈ box.dimension.axes, box.lo.get a ≤ p.get a ∧ p.get a ≤ box.hi.get a := by
  simp only [firstOutside?, outsideAxis?, List.findSome?_eq_none_iff, Option.map_eq_none_iff,
    List.find?_eq_none, Bool.not_eq_true', Bool.not_eq_false, spans, Bool.and_eq_true,
    decide_eq_true_eq]
  constructor
  · intro h p hp
    obtain ⟨i, hi⟩ := List.getElem?_of_mem hp
    exact h (p, i) (List.mem_zipIdx_iff_getElem?.2 hi)
  · intro h x hx
    exact h x.1 (List.mem_of_getElem? (List.mem_zipIdx_iff_getElem?.1 hx))

theorem pointsOf_ok_iff : box.pointsOf t = .ok ps ↔
    t.columns = box.dimension.toNat ∧ t.points = ps := by
  unfold pointsOf
  by_cases ht : t.columns = box.dimension.toNat <;> simp [ht]

/-- Has the table one column per axis, with the coordinates within the bounds along each axis in use? -/
def Covers (box : Box α) (t : Table α) : Prop :=
  t.columns = box.dimension.toNat ∧ ∀ p ∈ t.points, ∀ a ∈ box.dimension.axes,
    box.lo.get a ≤ p.get a ∧ p.get a ≤ box.hi.get a

/-- Both sides are within the bounds, and so are the points that a search looks at. -/
theorem Covers.getD {query : Table α} {reference? : Option (Table α)} (hquery : box.Covers query)
    (hreference : ∀ t ∈ reference?, box.Covers t) : box.Covers (reference?.getD query) := by
  cases reference? with
  | none => exact hquery
  | some t => exact hreference t rfl

/-- **The check accepts a table** that is within the bounds, and no other, in any arithmetic. -/
theorem checkInside_eq_ok_iff : box.checkInside t = .ok ps ↔ box.Covers t ∧ t.points = ps := by
  have hnone : box.firstOutside? t.points.toList = none ↔ ∀ p ∈ t.points,
      ∀ a ∈ box.dimension.axes, box.lo.get a ≤ p.get a ∧ p.get a ≤ box.hi.get a := by
    simp only [firstOutside?_eq_none, Array.mem_toList_iff]
  unfold checkInside
  rw [bind_eq_ok_iff]
  constructor
  · intro h
    obtain ⟨qs, hqs, h⟩ := h
    obtain ⟨ht, rfl⟩ := pointsOf_ok_iff.1 hqs
    cases hout : box.firstOutside? t.points.toList with
    | some e => simp [hout] at h
    | none => exact ⟨⟨ht, hnone.1 hout⟩, by simpa [hout] using h⟩
  · intro h
    obtain ⟨⟨ht, hin⟩, rfl⟩ := h
    exact ⟨t.points, pointsOf_ok_iff.2 ⟨ht, rfl⟩, by rw [hnone.2 hin]⟩

end Bounds

variable {box : Box ℝ} {p : Vec3 ℝ} {a : Axis}

/-- Is the point inside of the closed box? -/
def Encloses (box : Box ℝ) (p : Vec3 ℝ) : Prop :=
  ∀ a, box.lo.get a ≤ p.get a ∧ p.get a ≤ box.hi.get a

theorem length_pos (ha : a ∈ box.dimension.axes) : 0 < box.length a :=
  sub_pos.2 (box.lo_lt_hi a ha)

theorem mem_axes_of_periodic {α : Type} [Scalar α] {box : Box α} {a : Axis}
    (h : box.periodic.get a = true) : a ∈ box.dimension.axes := by
  by_contra ha
  rw [(box.flat a ha).2.2] at h
  exact Bool.noConfusion h

theorem length_pos_of_periodic (h : box.periodic.get a = true) : 0 < box.length a :=
  length_pos (mem_axes_of_periodic h)

/-- Two points of the box are at most its length apart along each axis. -/
theorem Encloses.abs_sub_le {q : Vec3 ℝ} (hp : box.Encloses p) (hq : box.Encloses q) (a : Axis) :
    |p.get a - q.get a| ≤ box.length a := by
  obtain ⟨h1, h2⟩ := hp a
  obtain ⟨h3, h4⟩ := hq a
  rw [length, abs_le]
  constructor <;> linarith

/-- Has the table one column per axis, and are all its points inside of the box? -/
def Admits (box : Box ℝ) (t : Table ℝ) : Prop :=
  t.columns = box.dimension.toNat ∧ ∀ p ∈ t.points, box.Encloses p

/-- **Points are within the bounds along the axes in use** exactly if they are inside of the box: along the
other one both they and the box are at zero. -/
theorem covers_iff {t : Table ℝ} : box.Covers t ↔ box.Admits t := by
  refine and_congr_right fun ht => forall₂_congr fun p hp => ⟨fun h a => ?_, fun h a _ => h a⟩
  by_cases ha : a ∈ box.dimension.axes
  · exact h a ha
  · rw [(box.flat a ha).1, (box.flat a ha).2.1, Table.get_points ht hp ha, Scalar.zero_eq]
    exact ⟨le_rfl, le_rfl⟩

theorem Admits.getD {query : Table ℝ} {reference? : Option (Table ℝ)} (hquery : box.Admits query)
    (hreference : ∀ t ∈ reference?, box.Admits t) : box.Admits (reference?.getD query) :=
  covers_iff.1 ((covers_iff.2 hquery).getD fun t ht => covers_iff.2 (hreference t ht))

/-- The square from the origin with sides of a positive length. -/
noncomputable def square (length : ℝ) (h : 0 < length) (periodic : Bool) : Box ℝ where
  dimension := .two
  lo := .replicate 0
  hi := ⟨length, length, 0⟩
  periodic := ⟨periodic, periodic, false⟩
  lo_lt_hi a ha := by cases a <;> simp_all [Dimension.axes, Vec3.get, Vec3.replicate]
  flat a ha := by cases a <;> simp_all [Dimension.axes, Vec3.get, Vec3.replicate]

@[simp] theorem length_square {length : ℝ} {h : 0 < length} {periodic : Bool} {a : Axis} :
    (square length h periodic).length a = if a = .z then 0 else length := by
  cases a <;> simp [square, Box.length, Vec3.get, Vec3.replicate]

theorem le_half_length_square {length r : ℝ} {h : 0 < length} {periodic : Bool} (hr : r ≤ length / 2)
    (ha : (square length h periodic).periodic.get a = true) :
    r ≤ (square length h periodic).length a / 2 := by
  have hz : a ≠ .z := by
    rintro rfl
    simp [square, Vec3.get] at ha
  rw [length_square, if_neg hz]
  exact hr

theorem encloses_square {length : ℝ} {h : 0 < length} {periodic : Bool} {x y : ℝ} :
    (square length h periodic).Encloses ⟨x, y, 0⟩ ↔ (0 ≤ x ∧ x ≤ length) ∧ 0 ≤ y ∧ y ≤ length := by
  constructor
  · intro hp
    exact ⟨hp .x, hp .y⟩
  · rintro ⟨hx, hy⟩ (_ | _ | _)
    · exact hx
    · exact hy
    · exact ⟨le_rfl, le_rfl⟩

theorem admits_square {length : ℝ} {h : 0 < length} {periodic : Bool} {rows : Array (Vector ℝ 2)} :
    (square length h periodic).Admits ⟨2, rows⟩ ↔
      ∀ r ∈ rows, ((0 : ℝ) ≤ r[0] ∧ r[0] ≤ length) ∧ (0 : ℝ) ≤ r[1] ∧ r[1] ≤ length := by
  refine (and_iff_right rfl).trans ?_
  rw [Table.points_plane]
  constructor
  · intro hin r hr
    exact encloses_square.1 (hin _ (Array.mem_map_of_mem hr))
  · intro hin p hp
    obtain ⟨r, hr, rfl⟩ := Array.mem_map.1 hp
    exact encloses_square.2 (hin r hr)

end Box

end SmoothedParticles
