import SmoothedParticles.Proofs.Periodic.ImageSet
import SmoothedParticles.Periodic.Wrap

/-!
# Places in a periodic box

Points that differ by whole box lengths along periodic axes are at the same place. Wrapping takes each of
them to the one that is in the half-open primary cell, however far away it is.

* `Box.period`, `Box.SamePlace`: along each axis, coordinates are told apart modulo the period, which is
  zero along axes that are not periodic.
* `modulo_eq`, `wrapCoordinate_eq`: along one axis, wrapping is the reduction to a half-open interval.
* `Box.wrap_mem_cell`, `Box.samePlace_wrap`: a wrapped point is in the cell, and at the same place.
* `Box.wrap_eq_wrap_iff`: **wrapping takes two points to the same one exactly if** they are at the same place.
* `Table.points_ofPoints`: points as rows of a table, and back.
* `Box.wrapTable_ok_iff`, `Box.wrapTable_eq_iff`: the same for all rows of a table.
-/

namespace SmoothedParticles

open AddCommGroup

namespace Box

variable {box : Box ℝ} {p q r p' q' : Vec3 ℝ} {s : Vec3 ℤ} {a : Axis}

/-- The length along a periodic axis, and zero along the others. -/
noncomputable def period (box : Box ℝ) (a : Axis) : ℝ :=
  if box.periodic.get a = true then box.length a else 0

theorem period_of_periodic (h : box.periodic.get a = true) : box.period a = box.length a := if_pos h

theorem period_of_not_periodic (h : ¬box.periodic.get a = true) : box.period a = 0 := if_neg h

/-- **Are two points at the same place?** They differ by a whole number of lengths along each periodic
axis, and not at all along the others. -/
def SamePlace (box : Box ℝ) (p q : Vec3 ℝ) : Prop := ∀ a, p.get a ≡ q.get a [PMOD box.period a]

theorem SamePlace.refl (box : Box ℝ) (p : Vec3 ℝ) : box.SamePlace p p := fun _ => modEq_rfl

theorem SamePlace.symm (h : box.SamePlace p q) : box.SamePlace q p := fun a => (h a).symm

theorem SamePlace.trans (h : box.SamePlace p q) (h' : box.SamePlace q r) : box.SamePlace p r :=
  fun a => (h a).trans (h' a)

theorem SamePlace.neg (h : box.SamePlace p q) : box.SamePlace (-p) (-q) := by
  intro a
  rw [Vec3.get_neg, Vec3.get_neg]
  exact (h a).neg

theorem SamePlace.add (h : box.SamePlace p q) (h' : box.SamePlace p' q') :
    box.SamePlace (p + p') (q + q') := by
  intro a
  rw [Vec3.get_add, Vec3.get_add]
  exact (h a).add (h' a)

theorem SamePlace.sub (h : box.SamePlace p q) (h' : box.SamePlace p' q') :
    box.SamePlace (p - p') (q - q') := by
  intro a
  rw [Vec3.get_sub, Vec3.get_sub]
  exact (h a).sub (h' a)

/-- **A shift along periodic axes** stays at the same place, and leads to each point there. -/
theorem samePlace_iff_displace : box.SamePlace p q ↔ ∃ s, box.Supports s ∧ q = box.displace s p := by
  constructor
  · intro h
    choose k hk using fun a => modEq_iff_eq_add_zsmul.1 (h a)
    -- the number of lengths does not matter where the period is zero
    refine ⟨.ofFn fun a => if box.periodic.get a = true then k a else 0, fun a ha => ?_,
      Vec3.ext_get fun a => ?_⟩
    · rw [Vec3.get_ofFn] at ha
      exact (ite_ne_right_iff.1 ha).1
    · rw [hk a, get_displace, Vec3.get_ofFn, zsmul_eq_mul, period]
      split_ifs <;> simp
  · rintro ⟨s, hs, rfl⟩ a
    rw [get_displace, modEq_iff_eq_add_zsmul]
    refine ⟨s.get a, ?_⟩
    rw [zsmul_eq_mul, period]
    split_ifs with hper
    · rfl
    · rw [hs.get_eq_zero hper, Int.cast_zero, zero_mul, zero_mul]

theorem samePlace_displace (hs : box.Supports s) (p : Vec3 ℝ) : box.SamePlace p (box.displace s p) :=
  samePlace_iff_displace.2 ⟨s, hs, rfl⟩

end Box

section Coordinate

variable {lo hi x y : ℝ}

/-- The whole part of a number is less than one away. -/
theorem abs_sub_wholePart_lt (x : ℝ) : |x - wholePart x| < 1 := by
  unfold wholePart
  split_ifs
  · have h1 := Int.floor_le x
    have h2 := Int.lt_floor_add_one x
    exact abs_lt.2 ⟨by linarith, by linarith⟩
  · have h1 := Int.le_ceil x
    have h2 := Int.ceil_lt_add_one x
    exact abs_lt.2 ⟨by linarith, by linarith⟩

/-- **The remainder is the reduction** to the interval from zero. -/
theorem modulo_eq (hy : 0 < y) (x : ℝ) : Scalar.modulo x y = toIcoMod hy 0 x := by
  obtain ⟨r, hr⟩ : ∃ r, r = x - wholePart (x / y) * y := ⟨_, rfl⟩
  have hsmall : |r| < y := by
    have h : r = (x / y - wholePart (x / y)) * y := by
      rw [hr]
      field_simp
    rw [h, abs_mul, abs_of_pos hy]
    exact mul_lt_of_lt_one_left hy (abs_sub_wholePart_lt _)
  obtain ⟨hlow, hhigh⟩ := abs_lt.1 hsmall
  have hmodulo : Scalar.modulo x y = if r < 0 then r + y else r := by
    rw [Scalar.modulo, Scalar.abs_eq, abs_of_pos hy, Scalar.zero_eq, hr]
    rfl
  symm
  rw [hmodulo, toIcoMod_eq_iff, zero_add]
  split_ifs with hneg
  · refine ⟨⟨by linarith, by linarith⟩, wholePart (x / y) - 1, ?_⟩
    rw [hr, zsmul_eq_mul]
    push_cast
    ring
  · refine ⟨⟨not_lt.1 hneg, hhigh⟩, wholePart (x / y), ?_⟩
    rw [hr, zsmul_eq_mul]
    ring

/-- **Wrapping is the reduction to the half-open interval**, whichever way it is computed. In exact
arithmetic, nothing is ever pushed to its upper end. -/
theorem wrapCoordinate_eq (h : 0 < hi - lo) (x : ℝ) : wrapCoordinate lo hi x = toIcoMod h lo x := by
  unfold wrapCoordinate
  split_ifs with hin
  · exact ((toIcoMod_eq_self h).2 ⟨hin.1, by linarith [hin.2]⟩).symm
  · have hmod : lo + Scalar.modulo (x - lo) (hi - lo) = toIcoMod h lo x := by
      rw [modulo_eq h, add_comm, ← toIcoMod_eq_sub]
    have hlt : toIcoMod h lo x < lo + (hi - lo) := (toIcoMod_mem_Ico h lo x).2
    rw [hmod]
    exact if_neg (by linarith)

end Coordinate

namespace Box

variable {box : Box ℝ} {p q : Vec3 ℝ} {a : Axis}

theorem lo_add_length (box : Box ℝ) (a : Axis) : box.lo.get a + box.length a = box.hi.get a :=
  add_sub_cancel _ _

theorem get_wrap_of_periodic (h : box.periodic.get a = true) (p : Vec3 ℝ) :
    (box.wrap p).get a = toIcoMod (length_pos_of_periodic h) (box.lo.get a) (p.get a) := by
  rw [wrap, Vec3.get_ofFn, if_pos h]
  exact wrapCoordinate_eq (length_pos_of_periodic h) _

theorem get_wrap_of_not_periodic (h : ¬box.periodic.get a = true) (p : Vec3 ℝ) :
    (box.wrap p).get a = p.get a := by
  rw [wrap, Vec3.get_ofFn, if_neg h]

/-- **A wrapped point is in the half-open cell** along each periodic axis. -/
theorem wrap_mem_cell (h : box.periodic.get a = true) (p : Vec3 ℝ) :
    (box.wrap p).get a ∈ Set.Ico (box.lo.get a) (box.hi.get a) := by
  have hmem := toIcoMod_mem_Ico (length_pos_of_periodic h) (box.lo.get a) (p.get a)
  rwa [lo_add_length, ← get_wrap_of_periodic h] at hmem

/-- A point of the cell stays where it is. -/
theorem wrap_eq_self (h : ∀ a, box.periodic.get a = true →
    p.get a ∈ Set.Ico (box.lo.get a) (box.hi.get a)) : box.wrap p = p := by
  refine Vec3.ext_get fun a => ?_
  by_cases hper : box.periodic.get a = true
  · rw [get_wrap_of_periodic hper, toIcoMod_eq_self, lo_add_length]
    exact h a hper
  · exact get_wrap_of_not_periodic hper p

theorem wrap_wrap (box : Box ℝ) (p : Vec3 ℝ) : box.wrap (box.wrap p) = box.wrap p :=
  wrap_eq_self fun _ hper => wrap_mem_cell hper p

/-- **Wrapping takes two points to the same one** exactly if they are at the same place. -/
theorem wrap_eq_wrap_iff : box.wrap p = box.wrap q ↔ box.SamePlace p q := by
  have hax : ∀ a, (box.wrap p).get a = (box.wrap q).get a ↔ p.get a ≡ q.get a [PMOD box.period a] := by
    intro a
    by_cases hper : box.periodic.get a = true
    · rw [get_wrap_of_periodic hper, get_wrap_of_periodic hper, toIcoMod_inj, period_of_periodic hper]
    · rw [get_wrap_of_not_periodic hper, get_wrap_of_not_periodic hper, period_of_not_periodic hper,
        modEq_zero]
  exact ⟨fun h a => (hax a).1 (by rw [h]), fun h => Vec3.ext_get fun a => (hax a).2 (h a)⟩

/-- A wrapped point is at the same place. -/
theorem samePlace_wrap (box : Box ℝ) (p : Vec3 ℝ) : box.SamePlace p (box.wrap p) :=
  wrap_eq_wrap_iff.1 (wrap_wrap box p).symm

end Box

section Tables

variable {α : Type} [Scalar α] {box : Box α} {d : Dimension} {ps : Array (Vec3 α)} {t w : Table α}

/-- **The points of a table made from points** are these points, flattened. -/
theorem Table.points_ofPoints (d : Dimension) (ps : Array (Vec3 α)) :
    (ofPoints d ps).points = ps.map (Box.restrict d 0) := by
  unfold points ofPoints
  rw [Array.map_map]
  refine Array.map_congr_left fun p _ => Vec3.ext_get fun a => ?_
  rw [Box.restrict, Vec3.get_ofFn]
  cases d <;> cases a <;> rfl

omit [Scalar α] in
/-- A table only has the coordinates along the axes in use. -/
theorem Table.ofPoints_map_restrict (d : Dimension) (x : α) (ps : Array (Vec3 α)) :
    ofPoints d (ps.map (Box.restrict d x)) = ofPoints d ps := by
  unfold ofPoints
  rw [Array.map_map]
  refine congrArg (Table.mk _) (Array.map_congr_left fun p _ => Vector.toArray_inj.1 ?_)
  refine congrArg List.toArray (List.map_congr_left fun a ha => ?_)
  rw [Box.restrict, Vec3.get_ofFn, if_pos ha]

namespace Box

theorem covers_ofPoints : box.Covers (.ofPoints box.dimension ps) ↔
    ∀ p ∈ ps, ∀ a ∈ box.dimension.axes, box.lo.get a ≤ p.get a ∧ p.get a ≤ box.hi.get a := by
  refine (and_iff_right box.dimension.length_axes).trans ?_
  rw [Table.points_ofPoints]
  simp only [Array.forall_mem_map]
  refine forall₂_congr fun p _ => forall₂_congr fun a ha => ?_
  rw [restrict, Vec3.get_ofFn, if_pos ha]

/-- Wrapping leaves alone the axes that are not in use. -/
theorem wrap_restrict (box : Box α) (x : α) (p : Vec3 α) :
    box.wrap (restrict box.dimension x p) = restrict box.dimension x (box.wrap p) := by
  refine Vec3.ext_get fun a => ?_
  simp only [wrap, restrict, Vec3.get_ofFn]
  by_cases ha : a ∈ box.dimension.axes
  · rw [if_pos ha, if_pos ha]
  · rw [if_neg ha, if_neg ha, if_neg fun hper => ha (mem_axes_of_periodic hper)]

theorem wrapTable_ok_iff : box.wrapTable t = .ok w ↔
    t.columns = box.dimension.toNat ∧ .ofPoints box.dimension (t.points.map box.wrap) = w := by
  unfold wrapTable
  simp only [bind_eq_ok_iff, pointsOf_ok_iff, pure_eq_ok_iff]
  constructor
  · rintro ⟨_, ⟨ht, rfl⟩, hw⟩
    exact ⟨ht, hw⟩
  · rintro ⟨ht, hw⟩
    exact ⟨_, ⟨ht, rfl⟩, hw⟩

/-- Points are wrapped in the same way before they become rows of a table and after. -/
theorem wrapTable_ofPoints (box : Box α) (ps : Array (Vec3 α)) :
    box.wrapTable (.ofPoints box.dimension ps) = .ok (.ofPoints box.dimension (ps.map box.wrap)) := by
  refine wrapTable_ok_iff.2 ⟨box.dimension.length_axes, ?_⟩
  rw [Table.points_ofPoints, Array.map_map, ← Table.ofPoints_map_restrict _ 0 (ps.map box.wrap),
    Array.map_map]
  simp only [Function.comp_def, wrap_restrict]

end Box

end Tables

namespace Box

variable {box : Box ℝ} {t t' w : Table ℝ} {ps qs : Array (Vec3 ℝ)}

/-- Points of the space of the box come back from a table as they are. -/
theorem points_ofPoints_of_flat {d : Dimension} (h : ∀ p ∈ ps, ∀ a, a ∉ d.axes → p.get a = 0) :
    (Table.ofPoints d ps).points = ps := by
  rw [Table.points_ofPoints]
  conv_rhs => rw [← Array.map_id ps]
  refine Array.map_congr_left fun p hp => Vec3.ext_get fun a => ?_
  rw [restrict, Vec3.get_ofFn, Scalar.zero_eq]
  split_ifs with ha
  · rfl
  · exact (h p hp a ha).symm

/-- **Are the points one by one at the same places?** -/
def SamePlaces (box : Box ℝ) (ps qs : Array (Vec3 ℝ)) : Prop :=
  ps.size = qs.size ∧ ∀ (i : ℕ) p q, ps[i]? = some p → qs[i]? = some q → box.SamePlace p q

theorem map_wrap_eq_iff : ps.map box.wrap = qs.map box.wrap ↔ box.SamePlaces ps qs := by
  constructor
  · intro h
    refine ⟨by simpa using congrArg Array.size h, fun i p q hp hq => wrap_eq_wrap_iff.1 ?_⟩
    have hi := congrArg (·[i]?) h
    simpa only [Array.getElem?_map, hp, hq, Option.map_some, Option.some.injEq] using hi
  · rintro ⟨hsize, h⟩
    refine Array.ext (by simpa using hsize) fun i hi hi' => ?_
    rw [Array.size_map] at hi hi'
    rw [Array.getElem_map, Array.getElem_map, wrap_eq_wrap_iff]
    exact h i _ _ (Array.getElem?_eq_getElem hi) (Array.getElem?_eq_getElem hi')

/-- The rows of a wrapped table are the wrapped points. -/
theorem points_of_wrapTable (h : box.wrapTable t = .ok w) :
    w.columns = box.dimension.toNat ∧ w.points = t.points.map box.wrap := by
  obtain ⟨ht, rfl⟩ := wrapTable_ok_iff.1 h
  refine ⟨box.dimension.length_axes, points_ofPoints_of_flat fun q hq a ha => ?_⟩
  obtain ⟨p, hp, rfl⟩ := Array.mem_map.1 hq
  rw [get_wrap_of_not_periodic fun hper => ha (mem_axes_of_periodic hper)]
  exact Table.get_points ht hp ha

/-- **Two tables are wrapped to the same one** exactly if their points are at the same places. -/
theorem wrapTable_eq_iff (h : box.wrapTable t = .ok w) (ht' : t'.columns = box.dimension.toNat) :
    box.wrapTable t' = .ok w ↔ box.SamePlaces t.points t'.points := by
  rw [← map_wrap_eq_iff]
  constructor
  · intro h'
    rw [← (points_of_wrapTable h).2, ← (points_of_wrapTable h').2]
  · intro hmap
    refine wrapTable_ok_iff.2 ⟨ht', ?_⟩
    rw [← hmap]
    exact (wrapTable_ok_iff.1 h).2

end Box

end SmoothedParticles
