import SmoothedParticles.Proofs.Periodic.Places
import SmoothedParticles.Proofs.Space.GridPlaces

/-!
# Grids are periodic lattices

The points of a grid are the centers of equal cells that fill a box, one for each place. So they are inside of
the box, and with the copies of the box along its axes they go on as a lattice.

* `Grid.IsPlace`, `Grid.placesIn`: the places of a grid, with one entry per axis, in the order of their numbers.
* `latticePoint`, `lattice`: the center of the cell at a place, and the centers of all cells.
* `map_gridPoint`, `cellCount_near`: the points of a grid are these, and the cells are about as large as they
  should be.
* `lattice_inside`, `nodup_lattice`: centers are strictly inside, and different for different places.
* `coordinates`, `isChain_coordinates`: the coordinates along one axis, and the steps between them.
* `grid_is_lattice`: **a grid is a lattice** with each of its points once, in order.
-/

namespace SmoothedParticles

namespace Vec3

variable {β : Type} {d : Dimension} {b : β}

theorem values_ofList {l : List β} (h : l.length = d.toNat) : (ofList b l).values d = l := by
  cases d with
  | two =>
    obtain ⟨x, y, rfl⟩ := List.length_eq_two.1 h
    rfl
  | three =>
    obtain ⟨x, y, z, rfl⟩ := List.length_eq_three.1 h
    rfl

theorem get_ofList_map (f : Axis → β) (a : Axis) :
    (ofList b (d.axes.map f)).get a = if a ∈ d.axes then f a else b := by
  cases d <;> cases a <;> rfl

theorem get_ofList_values (v : Vec3 β) (a : Axis) :
    (ofList b (v.values d)).get a = if a ∈ d.axes then v.get a else b :=
  get_ofList_map v.get a

end Vec3

namespace Grid

variable {d : Dimension} {n : Axis → ℕ} {k : Vec3 ℕ}

/-- Is `k` a place of a grid, with one entry for each axis in use? -/
def IsPlace (d : Dimension) (n : Axis → ℕ) (k : Vec3 ℕ) : Prop :=
  ∀ a, if a ∈ d.axes then k.get a < n a else k.get a = 0

/-- The places of a grid with `n a` cells along each axis, in the order of their numbers. -/
def placesIn (d : Dimension) (n : Axis → ℕ) : List (Vec3 ℕ) :=
  (allPlaces (d.axes.map n)).map (Vec3.ofList 0)

theorem length_of_mem_allPlaces {ks : List ℕ} (h : ks ∈ allPlaces (d.axes.map n)) :
    ks.length = d.toNat := by
  rw [(mem_allPlaces.1 h).length_eq, List.length_map, d.length_axes]

theorem map_values_placesIn (d : Dimension) (n : Axis → ℕ) :
    (placesIn d n).map (Vec3.values d) = allPlaces (d.axes.map n) := by
  rw [placesIn, List.map_map]
  conv_rhs => rw [← List.map_id (allPlaces (d.axes.map n))]
  exact List.map_congr_left fun ks hks => Vec3.values_ofList (length_of_mem_allPlaces hks)

theorem values_below : List.Forall₂ (· < ·) (k.values d) (d.axes.map n) ↔ ∀ a ∈ d.axes, k.get a < n a := by
  rw [Vec3.values, List.forall₂_map_left_iff, List.forall₂_map_right_iff, List.forall₂_same]

/-- **All places are there**, and nothing else. -/
theorem mem_placesIn : k ∈ placesIn d n ↔ IsPlace d n k := by
  constructor
  · intro hk
    obtain ⟨ks, hks, rfl⟩ := List.mem_map.1 hk
    have hvalues := Vec3.values_ofList (b := 0) (length_of_mem_allPlaces hks)
    have hbelow := mem_allPlaces.1 hks
    rw [← hvalues] at hbelow ⊢
    intro a
    rw [Vec3.get_ofList_values]
    split_ifs with ha
    · exact values_below.1 hbelow a ha
    · rfl
  · intro hk
    have hbelow : ∀ a ∈ d.axes, k.get a < n a := fun a ha => by simpa [ha] using hk a
    refine List.mem_map.2 ⟨k.values d, mem_allPlaces.2 (values_below.2 hbelow), Vec3.ext_get fun a => ?_⟩
    rw [Vec3.get_ofList_values]
    split_ifs with ha
    · rfl
    · have hzero : k.get a = 0 := by simpa [ha] using hk a
      exact hzero.symm

theorem nodup_placesIn (d : Dimension) (n : Axis → ℕ) : (placesIn d n).Nodup := by
  have h := pairwise_allPlaces (d.axes.map n)
  rw [← map_values_placesIn, List.pairwise_map] at h
  refine List.Pairwise.imp (fun {k k'} hlt heq => ?_) h
  rw [heq] at hlt
  exact lt_irrefl _ hlt

end Grid

namespace Box

open Grid

variable {box : Box ℝ} {n : Axis → ℕ} {k k' : Vec3 ℕ} {a : Axis} {spacing : ℝ}

/-- **The center of the cell at a place**, in a box that is cut into `n a` cells along each axis. -/
noncomputable def latticePoint (box : Box ℝ) (n : Axis → ℕ) (k : Vec3 ℕ) : Vec3 ℝ :=
  .ofFn fun a => if a ∈ box.dimension.axes then box.lo.get a + (k.get a + 1 / 2) * (box.length a / n a) else 0

theorem get_latticePoint (ha : a ∈ box.dimension.axes) :
    (box.latticePoint n k).get a = box.lo.get a + (k.get a + 1 / 2) * (box.length a / n a) := by
  rw [latticePoint, Vec3.get_ofFn, if_pos ha]

theorem cellCenter_eq (box : Box ℝ) (a : Axis) (count i : ℕ) :
    box.cellCenter a count i = box.lo.get a + (i + 1 / 2) * (box.length a / count) := by
  have hhalf : (0.5 : ℝ) = 1 / 2 := by norm_num
  rw [cellCenter, Scalar.ofNat_eq, Scalar.ofNat_eq, hhalf]

/-- **The centers of all cells**, in the order of their places. -/
noncomputable def lattice (box : Box ℝ) (n : Axis → ℕ) : Array (Vec3 ℝ) :=
  ((placesIn box.dimension n).map (box.latticePoint n)).toArray

theorem mem_lattice {p : Vec3 ℝ} :
    p ∈ box.lattice n ↔ ∃ k, IsPlace box.dimension n k ∧ box.latticePoint n k = p := by
  simp only [lattice, List.mem_toArray, List.mem_map, mem_placesIn]

/-- **The points of a grid** are the centers of the cells at its places, in order. -/
theorem map_gridPoint (box : Box ℝ) (n : Axis → ℕ) :
    (Array.range (places (box.dimension.axes.map n))).map (box.gridPoint (box.dimension.axes.map n)) =
      box.lattice n := by
  refine Array.ext' ?_
  rw [Array.toList_map, Array.toList_range, lattice, placesIn, allPlaces, List.map_map, List.map_map]
  refine List.map_congr_left fun i hi => Vec3.ext_get fun a => ?_
  have hmem : digits (box.dimension.axes.map n) i ∈ allPlaces (box.dimension.axes.map n) :=
    List.mem_map_of_mem hi
  obtain ⟨k, hk⟩ : ∃ k : Vec3 ℕ, k = .ofList 0 (digits (box.dimension.axes.map n) i) := ⟨_, rfl⟩
  have hdigits : digits (box.dimension.axes.map n) i = box.dimension.axes.map k.get := by
    rw [hk]
    exact (Vec3.values_ofList (length_of_mem_allPlaces hmem)).symm
  have hzip : box.dimension.axes.zip ((box.dimension.axes.map n).zip (box.dimension.axes.map k.get)) =
      box.dimension.axes.map fun a => (a, n a, k.get a) := by
    cases box.dimension <;> rfl
  show (box.gridPoint _ i).get a = (box.latticePoint n (.ofList 0 (digits _ i))).get a
  rw [← hk, gridPoint, hdigits, hzip, List.map_map, Vec3.get_ofList_map, latticePoint, Vec3.get_ofFn,
    Scalar.zero_eq]
  simp only [Function.comp_apply, cellCenter_eq]

theorem grid_eq (hs : 0 < spacing) : box.grid spacing = .ok ⟨box.dimension,
    box.dimension.axes.map (box.cellCount spacing), box.lattice (box.cellCount spacing)⟩ := by
  have hpositive : ¬¬Scalar.IsPositive spacing := not_not.2 (Scalar.isPositive_iff.2 hs)
  rw [grid, if_neg hpositive, ← map_gridPoint]
  dsimp only
  rw [Scalar.indexable_eq, if_neg (not_not.2 rfl), Scalar.wrap_eq]

theorem cellCount_pos (box : Box ℝ) (spacing : ℝ) (a : Axis) : 0 < box.cellCount spacing a :=
  Nat.lt_of_lt_of_le one_pos (le_max_right _ _)

/-- **The cells are about as large as they should be**: there are as many of them as is nearest, unless that
would be none. -/
theorem cellCount_near (box : Box ℝ) (spacing : ℝ) (a : Axis) :
    |box.length a / spacing - box.cellCount spacing a| ≤ 1 / 2 ∨
      box.length a / spacing ≤ 1 / 2 ∧ box.cellCount spacing a = 1 := by
  have hcount : box.cellCount spacing a = max (nearestWhole (box.length a / spacing)).toNat 1 := by
    rw [cellCount, Scalar.round_eq]
    show max (wholePart (nearestWhole _ : ℝ)).toNat 1 = _
    rw [wholePart_intCast]
  have hnear := abs_sub_nearestWhole_le (box.length a / spacing)
  rcases le_or_gt (nearestWhole (box.length a / spacing)) 0 with hnone | hsome
  · have hle : (nearestWhole (box.length a / spacing) : ℝ) ≤ 0 := by exact_mod_cast hnone
    exact .inr ⟨by linarith [(abs_le.1 hnear).2], by omega⟩
  · have hwhole : (box.cellCount spacing a : ℤ) = nearestWhole (box.length a / spacing) := by omega
    rw [← hwhole, Int.cast_natCast] at hnear
    exact .inl hnear

/-- Half a cell is left to both sides of a center. -/
theorem latticePoint_inside (hk : IsPlace box.dimension n k) (ha : a ∈ box.dimension.axes) :
    box.lo.get a < (box.latticePoint n k).get a ∧ (box.latticePoint n k).get a < box.hi.get a := by
  have hlt : k.get a < n a := by simpa [ha] using hk a
  have hle : (k.get a : ℝ) + 1 ≤ n a := by exact_mod_cast hlt
  have hn : (0 : ℝ) < n a := by exact_mod_cast Nat.zero_lt_of_lt hlt
  have hstep : 0 < box.length a / n a := div_pos (length_pos ha) hn
  have hall : (n a : ℝ) * (box.length a / n a) = box.length a := mul_div_cancel₀ _ hn.ne'
  have hhi := box.lo_add_length a
  rw [get_latticePoint ha]
  constructor
  · have hpos : 0 < (k.get a + 1 / 2 : ℝ) * (box.length a / n a) := by positivity
    linarith
  · have hpart : (k.get a + 1 / 2 : ℝ) * (box.length a / n a) < n a * (box.length a / n a) :=
      mul_lt_mul_of_pos_right (by linarith) hstep
    linarith

/-- **All points of a lattice are strictly inside** of the box. -/
theorem lattice_inside {p : Vec3 ℝ} (hp : p ∈ box.lattice n) (ha : a ∈ box.dimension.axes) :
    box.lo.get a < p.get a ∧ p.get a < box.hi.get a := by
  obtain ⟨k, hk, rfl⟩ := mem_lattice.1 hp
  exact latticePoint_inside hk ha

theorem checkInside_lattice (box : Box ℝ) (n : Axis → ℕ) :
    box.checkInside (.ofPoints box.dimension (box.lattice n)) = .ok (box.lattice n) := by
  refine checkInside_eq_ok_iff.2 ⟨covers_ofPoints.2 fun p hp a ha => ?_,
    points_ofPoints_of_flat fun p hp a ha => ?_⟩
  · obtain ⟨hlo, hhi⟩ := lattice_inside hp ha
    exact ⟨hlo.le, hhi.le⟩
  · obtain ⟨k, -, rfl⟩ := mem_lattice.1 hp
    rw [latticePoint, Vec3.get_ofFn, if_neg ha]

theorem wrapTable_lattice (box : Box ℝ) (n : Axis → ℕ) :
    box.wrapTable (.ofPoints box.dimension (box.lattice n)) =
      .ok (.ofPoints box.dimension (box.lattice n)) := by
  have hwrap : (box.lattice n).map box.wrap = box.lattice n := by
    conv_rhs => rw [← Array.map_id (box.lattice n)]
    refine Array.map_congr_left fun p hp => wrap_eq_self fun a hper => ?_
    obtain ⟨hlo, hhi⟩ := lattice_inside hp (mem_axes_of_periodic hper)
    exact ⟨hlo.le, hhi⟩
  rw [wrapTable_ofPoints, hwrap]

/-- **Different places have different centers.** -/
theorem latticePoint_injOn (hn : ∀ a, 0 < n a) (hk : IsPlace box.dimension n k)
    (hk' : IsPlace box.dimension n k') (h : box.latticePoint n k = box.latticePoint n k') : k = k' := by
  refine Vec3.ext_get fun a => ?_
  by_cases ha : a ∈ box.dimension.axes
  · have hget := congrArg (Vec3.get · a) h
    simp only [get_latticePoint ha] at hget
    have hstep : 0 < box.length a / n a := div_pos (length_pos ha) (Nat.cast_pos.2 (hn a))
    have hcast : (k.get a : ℝ) = k'.get a := by
      have hsum := mul_right_cancel₀ hstep.ne' (add_left_cancel hget)
      linarith
    exact_mod_cast hcast
  · have hzero : k.get a = 0 := by simpa [ha] using hk a
    have hzero' : k'.get a = 0 := by simpa [ha] using hk' a
    rw [hzero, hzero']

theorem nodup_lattice (box : Box ℝ) (hn : ∀ a, 0 < n a) : (box.lattice n).toList.Nodup := by
  refine (nodup_placesIn box.dimension n).map_on fun k hk k' hk' h => ?_
  exact latticePoint_injOn hn (mem_placesIn.1 hk) (mem_placesIn.1 hk') h

/-- The coordinates of the centers of `n` cells along an axis. -/
noncomputable def coordinates (box : Box ℝ) (a : Axis) (n : ℕ) : List ℝ :=
  (List.range n).map fun i : ℕ => box.lo.get a + (i + 1 / 2) * (box.length a / n)

/-- **These are the coordinates of the points** of a lattice. -/
theorem mem_coordinates (hn : ∀ a, 0 < n a) (ha : a ∈ box.dimension.axes) {x : ℝ} :
    x ∈ box.coordinates a (n a) ↔ ∃ p ∈ box.lattice n, p.get a = x := by
  simp only [coordinates, List.mem_map, List.mem_range]
  constructor
  · rintro ⟨i, hi, rfl⟩
    -- the place on the axis that is `i` cells away from the first one
    refine ⟨_, mem_lattice.2 ⟨(Vec3.replicate 0).set a i, fun b => ?_, rfl⟩, ?_⟩
    · rw [Vec3.get_set, Vec3.get_replicate]
      split_ifs with hb hba hba
      · exact hba ▸ hi
      · exact hn b
      · exact absurd (hba ▸ ha) hb
      · rfl
    · rw [get_latticePoint ha, Vec3.get_set, if_pos rfl]
  · rintro ⟨p, hp, rfl⟩
    obtain ⟨k, hk, rfl⟩ := mem_lattice.1 hp
    exact ⟨k.get a, by simpa [ha] using hk a, (get_latticePoint ha).symm⟩

/-- **From one center to the next** it is as far as a cell is long. -/
theorem isChain_coordinates (box : Box ℝ) (a : Axis) (n : ℕ) :
    (box.coordinates a n).IsChain fun x y => y - x = box.length a / n := by
  rw [coordinates, List.isChain_map, List.isChain_range]
  intro i _
  push_cast
  ring

/-- **From the last center to the copy of the first one** it is as far as from one to the next. -/
theorem coordinates_around (box : Box ℝ) (a : Axis) {n : ℕ} (hn : 0 < n) :
    ∃ first last, (box.coordinates a n).head? = some first ∧ (box.coordinates a n).getLast? = some last ∧
      first + box.length a - last = box.length a / n := by
  obtain ⟨m, rfl⟩ := Nat.exists_eq_succ_of_ne_zero hn.ne'
  refine ⟨box.lo.get a + ((0 : ℕ) + 1 / 2) * (box.length a / (m + 1 : ℕ)),
    box.lo.get a + (m + 1 / 2) * (box.length a / (m + 1 : ℕ)), ?_, ?_, ?_⟩
  · rw [coordinates, List.range_succ_eq_map]
    rfl
  · rw [coordinates, List.range_succ, List.map_append, List.map_singleton, List.getLast?_concat]
  · push_cast
    field_simp
    ring

/-- **A grid is a periodic lattice.** Its cells are about as large as they should be, and its points are the
centers of the cells, one for each place, in lexicographic order of the places. All points are strictly inside
of the box, so they pass the check for points inside and stay where they are when they are wrapped, and no two
of them are the same. Along each axis, the coordinates of the points follow each other in equal steps, and it
is one more of these steps from the last of them to the copy of the first one across the box. -/
theorem grid_is_lattice (box : Box ℝ) {spacing : ℝ} (hs : 0 < spacing) :
    ∃ (g : Grid ℝ) (n : Axis → ℕ) (ks : List (Vec3 ℕ)), box.grid spacing = .ok g ∧
      g.dimension = box.dimension ∧ g.shape = box.dimension.axes.map n ∧
      (∀ a, 0 < n a ∧ (|box.length a / spacing - n a| ≤ 1 / 2 ∨ box.length a / spacing ≤ 1 / 2 ∧ n a = 1)) ∧
      (ks.map (Vec3.values box.dimension)).Pairwise (· < ·) ∧
      (∀ k, k ∈ ks ↔ ∀ a, if a ∈ box.dimension.axes then k.get a < n a else k.get a = 0) ∧
      g.points.toList = ks.map (box.latticePoint n) ∧
      (∀ p ∈ g.points, ∀ a ∈ box.dimension.axes, box.lo.get a < p.get a ∧ p.get a < box.hi.get a) ∧
      box.checkInside (.ofPoints g.dimension g.points) = .ok g.points ∧
      box.wrapTable (.ofPoints g.dimension g.points) = .ok (.ofPoints g.dimension g.points) ∧
      g.points.toList.Nodup ∧
      ∀ a ∈ box.dimension.axes, ∃ xs : List ℝ, (∀ x, x ∈ xs ↔ ∃ p ∈ g.points, p.get a = x) ∧
        xs.IsChain (fun x y => y - x = box.length a / n a) ∧
        ∃ first last, xs.head? = some first ∧ xs.getLast? = some last ∧
          first + box.length a - last = box.length a / n a := by
  obtain ⟨n, hn⟩ : ∃ n, n = box.cellCount spacing := ⟨_, rfl⟩
  have hpos : ∀ a, 0 < n a := fun a => hn ▸ box.cellCount_pos spacing a
  refine ⟨⟨box.dimension, box.dimension.axes.map n, box.lattice n⟩, n, placesIn box.dimension n, ?_, rfl, rfl,
    fun a => ⟨hpos a, ?_⟩, ?_, fun k => mem_placesIn, rfl, fun p hp a ha => lattice_inside hp ha,
    checkInside_lattice box n, wrapTable_lattice box n, nodup_lattice box hpos,
    fun a ha => ⟨box.coordinates a (n a), fun x => mem_coordinates hpos ha, isChain_coordinates box a (n a),
      coordinates_around box a (hpos a)⟩⟩
  · rw [hn]
    exact grid_eq hs
  · rw [hn]
    exact box.cellCount_near spacing a
  · rw [map_values_placesIn]
    exact pairwise_allPlaces _

/-- A square of length four with cells of size two has two points along each axis, and one of them is the center
of the upper left cell. -/
theorem grid_is_lattice_square :
    let box := Box.square 4 (by norm_num) true
    (0 : ℝ) < 2 ∧ ∃ g, box.grid 2 = .ok g ∧ g.shape = [2, 2] ∧ (⟨1, 3, 0⟩ : Vec3 ℝ) ∈ g.points ∧
      g.points.toList.Nodup := by
  intro box
  have hs : (0 : ℝ) < 2 := two_pos
  obtain ⟨g, n, ks, hg, -, hshape, hnear, -, hks, hpoints, -, -, -, hnodup, -⟩ := grid_is_lattice box hs
  have htwo : ∀ a, a ≠ .z → n a = 2 := by
    intro a ha
    have hlength : box.length a = 4 := by rw [Box.length_square, if_neg ha]
    obtain ⟨-, hclose | ⟨hsmall, -⟩⟩ := hnear a
    · rw [hlength] at hclose
      obtain ⟨h1, h2⟩ := abs_le.1 hclose
      have hlow : (1 : ℝ) < n a := by linarith
      have hhigh : (n a : ℝ) < 3 := by linarith
      have h3 : 1 < n a := by exact_mod_cast hlow
      have h4 : n a < 3 := by exact_mod_cast hhigh
      omega
    · rw [hlength] at hsmall
      norm_num at hsmall
  have hx := htwo .x nofun
  have hy := htwo .y nofun
  have hplace : (⟨0, 1, 0⟩ : Vec3 ℕ) ∈ ks := (hks _).2 fun a => by
    cases a <;> simp [box, Box.square, Dimension.axes, Vec3.get, hx, hy]
  have hcenter : box.latticePoint n ⟨0, 1, 0⟩ = ⟨1, 3, 0⟩ := by
    refine Vec3.ext_get fun a => ?_
    cases a <;> simp [latticePoint, Vec3.get, Vec3.ofFn, hx, hy, box, Box.square, Box.length, Dimension.axes,
      Vec3.replicate] <;> norm_num
  refine ⟨hs, g, hg, ?_, ?_, hnodup⟩
  · rw [hshape]
    show [n .x, n .y] = [2, 2]
    rw [hx, hy]
  · rw [← Array.mem_toList_iff, hpoints, ← hcenter]
    exact List.mem_map_of_mem hplace

end Box

end SmoothedParticles
