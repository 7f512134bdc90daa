import SmoothedParticles.Proofs.Space.Inside
import SmoothedParticles.Periodic.Images

/-!
# The shifts of images

Images are made face by face, then for the corners, then for the edges. Together these are all shifts
by at most one box length along periodic axes, whichever axes of the box are periodic.

* `IsImageShift`, `Supports`: a shift by one box length, up or down, or by any number of them, along
  periodic axes.
* `mem_shiftsAlong`: the shifts along all axes of a list.
* `mem_imageAxes`: faces, corners and edges are all sets of periodic axes.
* `mem_imageShifts`: **the shifts of images are exactly the image shifts**, each with its kind.
-/

namespace SmoothedParticles

variable {α : Type} [Scalar α]

/-- The shifts by one box length, up or down, along at least one periodic axis. -/
structure Box.IsImageShift (box : Box α) (s : Vec3 ℤ) : Prop where
  ne_zero : s ≠ .replicate 0
  unit : ∀ a, s.get a = 0 ∨ s.get a = 1 ∨ s.get a = -1
  periodic : ∀ a, s.get a ≠ 0 → box.periodic.get a = true

/-- Is the shift one along periodic axes? -/
def Box.Supports (box : Box α) (s : Vec3 ℤ) : Prop := ∀ a, s.get a ≠ 0 → box.periodic.get a = true

theorem Box.supports_zero (box : Box α) : box.Supports (.replicate 0) :=
  fun a ha => absurd (Vec3.get_replicate 0 a) ha

theorem Box.Supports.get_eq_zero {box : Box α} {s : Vec3 ℤ} {a : Axis} (h : box.Supports s)
    (ha : ¬box.periodic.get a = true) : s.get a = 0 :=
  not_not.1 fun h0 => ha (h a h0)

theorem Box.supports_square {length : ℝ} {h : 0 < length} {s : Vec3 ℤ} (hz : s.z = 0) :
    (square length h true).Supports s := by
  intro a ha
  cases a with
  | x => rfl
  | y => rfl
  | z => exact absurd hz ha

/-- The axes along which a shift moves, in order. -/
def shiftedAxes (s : Vec3 ℤ) : List Axis := [Axis.x, .y, .z].filter fun a => s.get a ≠ 0

/-- The kind of an image that is moved along a number of axes: a face for one axis, a corner for all
axes of the space, and an edge for two out of three. -/
def ImageKind.ofCount (d : Dimension) (n : ℕ) : ImageKind :=
  if n = 1 then .face else if n = d.toNat then .corner else .edge

theorem mem_shiftedAxes {s : Vec3 ℤ} {a : Axis} : a ∈ shiftedAxes s ↔ s.get a ≠ 0 := by
  cases a <;> simp [shiftedAxes]

theorem shiftedAxes_eq_nil {s : Vec3 ℤ} : shiftedAxes s = [] ↔ s = .replicate 0 := by
  rw [List.eq_nil_iff_forall_not_mem]
  constructor
  · intro h
    refine Vec3.ext_get fun a => ?_
    rw [Vec3.get_replicate]
    exact not_not.1 fun hne => h a (mem_shiftedAxes.2 hne)
  · rintro rfl a
    rw [mem_shiftedAxes, Vec3.get_replicate]
    exact not_not.2 rfl

/-- **The shifts along the axes of a list** are one box length, up or down, on each of them. -/
theorem mem_shiftsAlong {l : List Axis} (hl : l.Nodup) {s : Vec3 ℤ} : s ∈ shiftsAlong l ↔
    ∀ a, if a ∈ l then s.get a = 1 ∨ s.get a = -1 else s.get a = 0 := by
  induction l generalizing s with
  | nil =>
    simp only [shiftsAlong, List.mem_singleton, List.not_mem_nil, if_false]
    exact ⟨fun h a => by rw [h, Vec3.get_replicate],
      fun h => Vec3.ext_get fun a => by rw [h a, Vec3.get_replicate]⟩
  | cons b l ih =>
    obtain ⟨hb, hl⟩ := List.nodup_cons.1 hl
    simp only [shiftsAlong, List.mem_flatMap, List.mem_cons, List.not_mem_nil, or_false]
    constructor
    · rintro ⟨t, ht, hs⟩ a
      have hta := (ih hl).1 ht a
      by_cases hab : a = b
      · rw [if_pos (Or.inl hab)]
        rcases hs with rfl | rfl
        · exact .inl (by rw [Vec3.get_set, if_pos hab])
        · exact .inr (by rw [Vec3.get_set, if_pos hab])
      · have hsa : s.get a = t.get a := by
          rcases hs with rfl | rfl <;> rw [Vec3.get_set, if_neg hab]
        simpa only [hab, false_or, hsa] using hta
    · intro hs
      refine ⟨s.set b 0, (ih hl).2 fun a => ?_, ?_⟩
      · have hsa := hs a
        rw [Vec3.get_set]
        by_cases hab : a = b
        · rw [if_neg (hab ▸ hb), if_pos hab]
        · simpa only [hab, false_or, if_false] using hsa
      · -- setting the entry back gives the shift
        have hback : ∀ n, s.get b = n → s = (s.set b 0).set b n := fun n hn =>
          Vec3.ext_get fun a => by
            simp only [Vec3.get_set]
            split_ifs with hab
            · rw [hab, hn]
            · rfl
        have hsb := hs b
        rw [if_pos (Or.inl rfl)] at hsb
        exact hsb.imp (hback 1) (hback (-1))

/-- Axes that are listed in order are known by which ones they are. -/
theorem axes_ext {l m : List Axis} (hl : l.Sublist [.x, .y, .z]) (hm : m.Sublist [.x, .y, .z])
    (h : ∀ a, a ∈ l ↔ a ∈ m) : l = m := by
  have hnodup : [Axis.x, .y, .z].Nodup := by decide
  have hsorted : [Axis.x, .y, .z].Pairwise fun a b => a.toNat < b.toNat := by decide
  refine List.Perm.eq_of_pairwise (fun a b _ _ h1 h2 => absurd h1 (not_lt.2 (le_of_lt h2)))
    (hsorted.sublist hl) (hsorted.sublist hm) ?_
  exact (List.perm_ext_iff_of_nodup (hnodup.sublist hl) (hnodup.sublist hm)).2 h

/-- A shift along the axes of a list moves along these axes and no others. -/
theorem mem_shiftsAlong_iff {l : List Axis} (hl : l.Sublist [.x, .y, .z]) {s : Vec3 ℤ} :
    s ∈ shiftsAlong l ↔
      shiftedAxes s = l ∧ ∀ a, s.get a = 0 ∨ s.get a = 1 ∨ s.get a = -1 := by
  have hnodup : [Axis.x, .y, .z].Nodup := by decide
  rw [mem_shiftsAlong (hnodup.sublist hl)]
  constructor
  · intro h
    refine ⟨axes_ext List.filter_sublist hl fun a => ?_, fun a => ?_⟩
    · have ha := h a
      rw [mem_shiftedAxes]
      split_ifs at ha with hal <;> simp [hal] <;> omega
    · have ha := h a
      split_ifs at ha <;> simp [ha]
  · rintro ⟨rfl, h⟩ a
    split_ifs with h0
    · exact (h a).resolve_left (mem_shiftedAxes.1 h0)
    · exact not_not.1 fun hne => h0 (mem_shiftedAxes.2 hne)

/-- The pairs of axes of a list are its parts of length two. -/
theorem mem_axisPairs {l m : List Axis} : m ∈ axisPairs l ↔ m.Sublist l ∧ m.length = 2 := by
  induction l generalizing m with
  | nil =>
    simp only [axisPairs, List.not_mem_nil, false_iff, List.sublist_nil]
    intro h
    obtain ⟨rfl, h⟩ := h
    simp at h
  | cons a l ih =>
    simp only [axisPairs, List.mem_append, List.mem_map, ih]
    constructor
    · intro h
      rcases h with ⟨b, hb, rfl⟩ | ⟨h, h2⟩
      · exact ⟨(List.singleton_sublist.2 hb).cons_cons a, rfl⟩
      · exact ⟨h.cons a, h2⟩
    · intro h
      obtain ⟨h, h2⟩ := h
      cases h with
      | cons _ h => exact .inr ⟨h, h2⟩
      | cons_cons _ h =>
        obtain ⟨b, rfl⟩ := List.length_eq_one_iff.1 (by simpa using h2)
        exact .inl ⟨b, List.singleton_sublist.1 h, rfl⟩

namespace Box

theorem axes_sublist (d : Dimension) : d.axes.Sublist [.x, .y, .z] := by
  cases d <;> decide

theorem periodicAxes_sublist (box : Box α) : box.periodicAxes.Sublist [.x, .y, .z] :=
  List.filter_sublist.trans (axes_sublist _)

theorem mem_periodicAxes {box : Box α} {a : Axis} :
    a ∈ box.periodicAxes ↔ box.periodic.get a = true := by
  simp only [periodicAxes, List.mem_filter, and_iff_right_iff_imp]
  exact mem_axes_of_periodic

theorem allPeriodic_iff {box : Box α} :
    box.allPeriodic = true ↔ box.periodicAxes.length = box.dimension.toNat := by
  rw [← Dimension.length_axes]
  exact List.all_eq_true.trans List.length_filter_eq_length_iff.symm

/-- The faces, the corners and the edges. -/
theorem mem_imageAxes_iff {box : Box α} {k : ImageKind} {l : List Axis} : (k, l) ∈ box.imageAxes ↔
    (k = .face ∧ l.Sublist box.periodicAxes ∧ l.length = 1) ∨
    (k = .corner ∧ l = box.periodicAxes ∧ l.length = box.dimension.toNat) ∨
    (k = .edge ∧ box.dimension = .three ∧ l.Sublist box.periodicAxes ∧ l.length = 2) := by
  simp only [imageAxes, List.mem_append, or_assoc]
  refine or_congr ?_ (or_congr ?_ ?_)
  · simp only [List.mem_map, Prod.mk.injEq]
    constructor
    · intro h
      obtain ⟨a, ha, rfl, rfl⟩ := h
      exact ⟨rfl, List.singleton_sublist.2 ha, rfl⟩
    · intro h
      obtain ⟨rfl, hl, h1⟩ := h
      obtain ⟨a, rfl⟩ := List.length_eq_one_iff.1 h1
      exact ⟨a, List.singleton_sublist.1 hl, rfl, rfl⟩
  · split_ifs with hall
    · rw [allPeriodic_iff] at hall
      simp only [List.mem_singleton, Prod.mk.injEq]
      exact ⟨fun ⟨hk, hl⟩ => ⟨hk, hl, hl ▸ hall⟩, fun ⟨hk, hl, _⟩ => ⟨hk, hl⟩⟩
    · rw [allPeriodic_iff] at hall
      refine ⟨fun h => absurd h List.not_mem_nil, ?_⟩
      intro h
      obtain ⟨-, rfl, h⟩ := h
      exact absurd h hall
  · split_ifs with hd
    · simp only [List.mem_map, Prod.mk.injEq, mem_axisPairs]
      exact ⟨fun ⟨m, hm, hk, hl⟩ => ⟨hk.symm, hd, hl ▸ hm⟩,
        fun ⟨hk, _, hl⟩ => ⟨l, hl, hk.symm, rfl⟩⟩
    · exact ⟨fun h => absurd h List.not_mem_nil, fun h => absurd h.2.1 hd⟩

/-- **Faces, corners and edges are all sets of periodic axes**: images are made along each list of
periodic axes that is not empty. -/
theorem mem_imageAxes {box : Box α} {k : ImageKind} {l : List Axis} : (k, l) ∈ box.imageAxes ↔
    l.Sublist box.periodicAxes ∧ l ≠ [] ∧ k = .ofCount box.dimension l.length := by
  have hdim : box.dimension.toNat = 2 ∨ box.dimension.toNat = 3 := by
    cases box.dimension <;> simp [Dimension.toNat]
  have hthree : box.dimension = .three ↔ box.dimension.toNat = 3 := by
    cases box.dimension <;> simp [Dimension.toNat]
  rw [mem_imageAxes_iff, ← List.length_pos_iff]
  unfold ImageKind.ofCount
  constructor
  · intro h
    rcases h with ⟨rfl, hl, h1⟩ | ⟨rfl, rfl, hn⟩ | ⟨rfl, hd, hl, h2⟩
    · exact ⟨hl, by omega, by rw [if_pos h1]⟩
    · exact ⟨List.Sublist.refl _, by omega, by rw [if_neg (by omega), if_pos hn]⟩
    · have := hthree.1 hd
      exact ⟨hl, by omega, by rw [if_neg (by omega), if_neg (by omega)]⟩
  · intro h
    obtain ⟨hl, hpos, rfl⟩ := h
    have hle := hl.length_le
    have hmax : box.periodicAxes.length ≤ box.dimension.toNat := by
      rw [← Dimension.length_axes]
      exact List.length_filter_le _ _
    by_cases h1 : l.length = 1
    · exact .inl ⟨if_pos h1, hl, h1⟩
    rw [if_neg h1]
    by_cases hn : l.length = box.dimension.toNat
    · exact .inr (.inl ⟨if_pos hn, hl.eq_of_length (by omega), hn⟩)
    -- neither one axis nor all of them: two axes out of three
    · exact .inr (.inr ⟨if_neg hn, hthree.2 (by omega), hl, by omega⟩)

/-- **The shifts of images are exactly the image shifts**, and each comes with its kind. -/
theorem mem_imageShifts {box : Box α} {k : ImageKind} {s : Vec3 ℤ} : (k, s) ∈ box.imageShifts ↔
    box.IsImageShift s ∧ k = .ofCount box.dimension (shiftedAxes s).length := by
  simp only [imageShifts, List.mem_flatMap, List.mem_map, Prod.exists, Prod.mk.injEq]
  constructor
  · intro h
    obtain ⟨k, l, hl, s, hs, rfl, rfl⟩ := h
    obtain ⟨hsub, hne, rfl⟩ := mem_imageAxes.1 hl
    obtain ⟨rfl, hunit⟩ := (mem_shiftsAlong_iff (hsub.trans box.periodicAxes_sublist)).1 hs
    refine ⟨⟨fun h0 => hne (shiftedAxes_eq_nil.2 h0), hunit, fun a ha => ?_⟩, rfl⟩
    exact mem_periodicAxes.1 (hsub.subset (mem_shiftedAxes.2 ha))
  · intro h
    obtain ⟨hs, rfl⟩ := h
    -- the axes along which the shift moves are a list that images are made along
    have hsub : (shiftedAxes s).Sublist box.periodicAxes := by
      have hper : box.periodicAxes = [Axis.x, .y, .z].filter fun a => box.periodic.get a :=
        axes_ext box.periodicAxes_sublist List.filter_sublist fun a => by
          rw [mem_periodicAxes]
          cases a <;> simp
      rw [hper]
      exact List.monotone_filter_right _ fun a ha => hs.periodic a (by simpa using ha)
    refine ⟨_, _, mem_imageAxes.2 ⟨hsub, fun h0 => hs.ne_zero (shiftedAxes_eq_nil.1 h0), rfl⟩, s, ?_,
      rfl, rfl⟩
    exact (mem_shiftsAlong_iff List.filter_sublist).2 ⟨rfl, hs.unit⟩

end Box

end SmoothedParticles
