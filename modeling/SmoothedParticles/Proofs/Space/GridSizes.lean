import SmoothedParticles.Proofs.Space.GridPlaces

/-!
# How many points a grid can have

The number of cells along an axis is kept in a machine word, and so is the number of points, which is the
product of these numbers. A number of cells that is too large becomes the largest word, but a product that is
too large loses its high digits. A grid is made if the coordinates of its points can be addressed.

* `fullCount`, `cellCount_eq_fullCount`: the number of cells along an axis, and when a word holds it.
* `gridShape_eq_fullShape`: words hold these numbers if the points can be addressed.
* `grid_in_words`: what a grid consists of, and when there is none.
* `grid_complete_iff`: **when a grid has all of its points**.
* `grid_points_overflow`: a square with more points than a word can count.
-/

namespace SmoothedParticles

namespace Grid

variable {shape : List ℕ} {n : ℕ}

/-- There are no more cells along one axis than there are places. -/
theorem le_places (hpos : ∀ m ∈ shape, 0 < m) (hn : n ∈ shape) : n ≤ places shape := by
  induction shape with
  | nil => exact absurd hn List.not_mem_nil
  | cons m rest ih =>
    rw [List.forall_mem_cons] at hpos
    show n ≤ m * places rest
    rcases List.mem_cons.1 hn with rfl | hn
    · exact Nat.le_mul_of_pos_right n (places_pos hpos.2)
    · exact (ih hpos.2 hn).trans (Nat.le_mul_of_pos_left _ hpos.1)

end Grid

namespace Box

open Grid

variable {α : Type} [Scalar α] {w : ℕ} {box : Box α} {spacing : α} {a : Axis}

/-- The number of cells of about a given size that fit along an axis, at least one. Unlike `cellCount`, it is
not kept in a machine word. -/
def fullCount (box : Box α) (spacing : α) (a : Axis) : ℕ :=
  max (Scalar.toInt (Scalar.round (box.length a / spacing))).toNat 1

/-- The numbers of cells along all axes as they are kept in machine words. -/
def gridShape (box : Box α) (spacing : α) : List ℕ := box.dimension.axes.map (box.cellCount spacing)

/-- The numbers of cells along all axes. -/
def fullShape (box : Box α) (spacing : α) : List ℕ := box.dimension.axes.map (box.fullCount spacing)

/-- The bytes that the coordinates of `n` points take. -/
def pointBytes (box : Box α) (n : ℕ) : ℕ := n * box.dimension.toNat * coordinateSize

theorem pos_of_mem_fullShape {n : ℕ} (hn : n ∈ box.fullShape spacing) : 0 < n := by
  obtain ⟨a, -, rfl⟩ := List.mem_map.1 hn
  exact lt_of_lt_of_le one_pos (le_max_right _ _)

/-- **A number of cells that fits** into a word is kept as it is. -/
theorem cellCount_eq_fullCount (hw : Scalar.wordBits α = some w) (h : box.fullCount spacing a < 2 ^ w) :
    box.cellCount spacing a = box.fullCount spacing a := by
  have hcount : box.cellCount spacing a =
      max (min (Scalar.toInt (Scalar.round (box.length a / spacing))).toNat (2 ^ w - 1)) 1 := by
    unfold cellCount Scalar.count
    rw [hw]
    rfl
  rw [hcount]
  unfold fullCount at h ⊢
  omega

/-- A point takes at least one byte. -/
theorem le_pointBytes (box : Box α) (n : ℕ) : n ≤ box.pointBytes n := by
  have hd : 0 < box.dimension.toNat := by cases box.dimension <;> decide
  rw [pointBytes, mul_assoc]
  exact Nat.le_mul_of_pos_right n (Nat.mul_pos hd (by decide))

theorem lt_word_of_pointBytes {n : ℕ} (h : box.pointBytes n < 2 ^ (w - 1)) : n < 2 ^ w :=
  calc n ≤ box.pointBytes n := box.le_pointBytes n
    _ < 2 ^ (w - 1) := h
    _ ≤ 2 ^ w := Nat.pow_le_pow_right two_pos (Nat.sub_le w 1)

/-- **If the coordinates of all points can be addressed**, words hold the numbers of cells. -/
theorem gridShape_eq_fullShape (hw : Scalar.wordBits α = some w)
    (h : box.pointBytes (places (box.fullShape spacing)) < 2 ^ (w - 1)) :
    box.gridShape spacing = box.fullShape spacing := by
  refine List.map_congr_left fun a ha => cellCount_eq_fullCount hw ?_
  calc box.fullCount spacing a ≤ places (box.fullShape spacing) :=
        le_places (fun _ => pos_of_mem_fullShape) (List.mem_map_of_mem ha)
    _ < 2 ^ w := lt_word_of_pointBytes h

/-- **What a grid consists of**: as many points as are left of their true number in a word. There is no grid
if the coordinates of so many points can not be addressed. -/
theorem grid_in_words (hw : Scalar.wordBits α = some w) (box : Box α) (hs : Scalar.IsPositive spacing) :
    box.grid spacing =
      if box.pointBytes (places (box.gridShape spacing) % 2 ^ w) < 2 ^ (w - 1) then
        .ok ⟨box.dimension, box.gridShape spacing,
          (Array.range (places (box.gridShape spacing) % 2 ^ w)).map (box.gridPoint (box.gridShape spacing))⟩
      else .error .fault := by
  unfold grid Scalar.wrap Scalar.indexable
  rw [hw, if_neg (not_not.2 hs)]
  simp only [decide_eq_true_eq, ite_not]
  rfl

/-- **When a grid has all of its points.** With counts in words of `w` bits, there is a grid with the right
number of cells along each axis and one point for each cell exactly if the coordinates of all these points can
be addressed. A grid has as many points as are left of the product of its counts in a word, so it has one for
each cell exactly if a word holds the product. A cell size that is too small for the box is never reported as
an invalid one. -/
theorem grid_complete_iff (hw : Scalar.wordBits α = some w) (box : Box α) {spacing : α}
    (hs : Scalar.IsPositive spacing) :
    ((∃ g, box.grid spacing = .ok g ∧ g.shape = box.fullShape spacing ∧
        g.points.size = places (box.fullShape spacing)) ↔
      box.pointBytes (places (box.fullShape spacing)) < 2 ^ (w - 1)) ∧
    (∀ g, box.grid spacing = .ok g → g.points.size = places g.shape % 2 ^ w ∧
      (g.points.size = places g.shape ↔ places g.shape < 2 ^ w)) ∧
    ∀ e, box.grid spacing = .error e ↔
      2 ^ (w - 1) ≤ box.pointBytes (places (box.gridShape spacing) % 2 ^ w) ∧ e = .fault := by
  rw [grid_in_words hw box hs]
  refine ⟨⟨?_, fun h => ?_⟩, fun g hg => ?_, fun e => ?_⟩
  · rintro ⟨g, hg, -, hsize⟩
    split_ifs at hg with hfits
    obtain rfl := Except.ok.inj hg
    rw [Array.size_map, Array.size_range] at hsize
    rwa [hsize] at hfits
  · rw [gridShape_eq_fullShape hw h, Nat.mod_eq_of_lt (lt_word_of_pointBytes h), if_pos h]
    refine ⟨_, rfl, rfl, ?_⟩
    rw [Array.size_map, Array.size_range]
  · split_ifs at hg
    obtain rfl := Except.ok.inj hg
    rw [Array.size_map, Array.size_range]
    refine ⟨rfl, fun h => ?_, Nat.mod_eq_of_lt⟩
    have hlt := Nat.mod_lt (places (box.gridShape spacing)) (Nat.pow_pos two_pos : 0 < 2 ^ w)
    rwa [h] at hlt
  · split_ifs with hfits
    · exact iff_of_false nofun fun h => absurd h.1 (not_le.2 hfits)
    · rw [Except.error.injEq, eq_comm]
      exact (and_iff_right (not_lt.1 hfits)).symm

/-- A square from the origin, with its dimension and lengths. -/
theorem exists_square {length : α} (h : 0 < length) (periodic : Bool) :
    ∃ box, Box.square? length periodic = .ok box ∧ box.dimension = .two ∧ box.length .x = length - 0 ∧
      box.length .y = length - 0 :=
  ⟨_, dif_pos h, rfl, rfl, rfl⟩

/-- A square with a million points. -/
theorem grid_complete_iff_million :
    Scalar.wordBits Float = some 64 ∧ Scalar.IsPositive (0.001 : Float) ∧
      ∃ box : Box Float, Box.square? 1 true = .ok box ∧
        ∃ g, box.grid 0.001 = .ok g ∧ g.shape = [1000, 1000] ∧ g.points.size = 1000000 := by
  have hw : Scalar.wordBits Float = some 64 := rfl
  have hs : Scalar.IsPositive (0.001 : Float) := by decide +kernel
  obtain ⟨box, hbox, hd, hx, hy⟩ := exists_square (show (0 : Float) < 1 by decide +kernel) true
  have hcount : max (Scalar.toInt (Scalar.round ((1 - 0 : Float) / 0.001))).toNat 1 = 1000 := by
    decide +kernel
  have hshape : box.fullShape 0.001 = [1000, 1000] := by
    unfold fullShape fullCount
    rw [hd]
    show [max (Scalar.toInt (Scalar.round (box.length .x / 0.001))).toNat 1,
      max (Scalar.toInt (Scalar.round (box.length .y / 0.001))).toNat 1] = _
    rw [hx, hy, hcount]
  have hbytes : box.pointBytes (places (box.fullShape 0.001)) < 2 ^ (64 - 1) := by
    rw [hshape, pointBytes, hd]
    decide
  obtain ⟨g, hg, hgshape, hsize⟩ := (grid_complete_iff hw box hs).1.2 hbytes
  rw [hshape] at hgshape hsize
  exact ⟨hw, hs, box, hbox, g, hg, hgshape, hsize⟩

/-- **A square with more points than a word can count.** The size of a cell is accepted, and there is no
answer at all: the product of the counts loses its high digits, and what is left of it is still too much. -/
theorem grid_points_overflow :
    ∃ box : Box Float, Box.square? 1 true = .ok box ∧ Scalar.IsPositive (1e-10 : Float) ∧
      box.gridShape 1e-10 = [10000000000, 10000000000] ∧ 2 ^ 64 ≤ places (box.gridShape 1e-10) ∧
      box.grid 1e-10 = .error .fault := by
  have hs : Scalar.IsPositive (1e-10 : Float) := by decide +kernel
  obtain ⟨box, hbox, hd, hx, hy⟩ := exists_square (show (0 : Float) < 1 by decide +kernel) true
  have hcount : max (Scalar.count (Scalar.round ((1 - 0 : Float) / 1e-10))) 1 = 10000000000 := by
    decide +kernel
  have hshape : box.gridShape 1e-10 = [10000000000, 10000000000] := by
    unfold gridShape cellCount
    rw [hd]
    show [max (Scalar.count (Scalar.round (box.length .x / 1e-10))) 1,
      max (Scalar.count (Scalar.round (box.length .y / 1e-10))) 1] = _
    rw [hx, hy, hcount]
  refine ⟨box, hbox, hs, hshape, ?_, ?_⟩
  · rw [hshape]
    decide
  · rw [grid_in_words rfl box hs, hshape, pointBytes, hd, if_neg]
    decide

end Box

end SmoothedParticles
