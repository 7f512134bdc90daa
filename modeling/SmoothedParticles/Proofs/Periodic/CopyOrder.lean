import SmoothedParticles.Proofs.Periodic.ImageSet

/-!
# Which copies become images

Copies are made shift by shift, and for each shift point by point. A copy becomes an image unless an
earlier one, of another point, is at its position.

* `nodup_imageShifts`: no shift is made twice.
* `pairwise_copies`: the order of the copies.
* `Shadowed`: the copies that an earlier one is in the way of.
* `mem_items_iff`: **the images are the copies that are not shadowed**.
-/

namespace SmoothedParticles

theorem nodup_shiftsAlong {l : List Axis} (hl : l.Nodup) : (shiftsAlong l).Nodup := by
  induction l with
  | nil => exact List.nodup_singleton _
  | cons a l ih =>
    obtain ⟨ha, hl⟩ := List.nodup_cons.1 hl
    unfold shiftsAlong
    rw [List.nodup_flatMap]
    refine ⟨fun s _ => ?_, (List.Pairwise.and_mem.1 (ih hl)).imp ?_⟩
    · rw [List.nodup_cons, List.mem_singleton]
      refine ⟨fun h => ?_, List.nodup_singleton _⟩
      have := congrArg (Vec3.get · a) h
      simp [Vec3.get_set] at this
    · rintro s t ⟨hs, ht, hst⟩ u hsu htu
      -- both shifts are zero along `a`, and agree with `u` along the other axes
      refine hst (Vec3.ext_get fun c => ?_)
      have hsa := (mem_shiftsAlong hl).1 hs a
      have hta := (mem_shiftsAlong hl).1 ht a
      rw [if_neg ha] at hsa hta
      by_cases hc : c = a
      · rw [hc, hsa, hta]
      have hget : ∀ v : Vec3 ℤ, u ∈ [v.set a 1, v.set a (-1)] → u.get c = v.get c := by
        intro v hv
        simp only [List.mem_cons, List.not_mem_nil, or_false] at hv
        rcases hv with rfl | rfl <;> rw [Vec3.get_set, if_neg hc]
      rw [← hget s hsu, hget t htu]

theorem nodup_axisPairs {l : List Axis} (hl : l.Nodup) : (axisPairs l).Nodup := by
  induction l with
  | nil => exact List.nodup_nil
  | cons a l ih =>
    obtain ⟨ha, hl⟩ := List.nodup_cons.1 hl
    unfold axisPairs
    rw [List.nodup_append]
    refine ⟨hl.map fun b c h => by simpa using h, ih hl, ?_⟩
    rintro _ hm _ hn rfl
    obtain ⟨b, -, rfl⟩ := List.mem_map.1 hm
    exact ha ((mem_axisPairs.1 hn).1.subset List.mem_cons_self)

namespace Box

section Order

variable {α : Type} [Scalar α]

theorem nodup_periodicAxes (box : Box α) : box.periodicAxes.Nodup :=
  box.periodicAxes_sublist.nodup (by decide)

/-- Faces, corners and edges are made along different sets of axes. -/
theorem nodup_imageAxes (box : Box α) : (box.imageAxes.map Prod.snd).Nodup := by
  have hdim : box.dimension.toNat = 2 ∨ box.dimension = .three ∧ box.dimension.toNat = 3 := by
    cases box.dimension <;> simp [Dimension.toNat]
  have hnodup := box.nodup_periodicAxes
  have hcorner : ∀ l ∈ if box.allPeriodic then [box.periodicAxes] else [],
      l.length = box.dimension.toNat := by
    split_ifs with hall
    · simpa using allPeriodic_iff.1 hall
    · exact fun l hl => absurd hl List.not_mem_nil
  have hedge : ∀ l ∈ if box.dimension = .three then axisPairs box.periodicAxes else [],
      box.dimension = .three ∧ l.length = 2 := by
    split_ifs with hd
    · exact fun l hl => ⟨hd, (mem_axisPairs.1 hl).2⟩
    · exact fun l hl => absurd hl List.not_mem_nil
  have hsnd : box.imageAxes.map Prod.snd = box.periodicAxes.map (fun a => [a]) ++
      (if box.allPeriodic then [box.periodicAxes] else []) ++
      (if box.dimension = .three then axisPairs box.periodicAxes else []) := by
    unfold imageAxes
    split_ifs <;> simp [List.map_map, Function.comp_def]
  -- the three kinds differ in the number of axes
  rw [hsnd, List.nodup_append, List.nodup_append]
  refine ⟨⟨hnodup.map fun a b h => by simpa using h, ?_, ?_⟩, ?_, ?_⟩
  · split_ifs
    · exact List.nodup_singleton _
    · exact List.nodup_nil
  · rintro _ hl _ hm rfl
    obtain ⟨a, -, rfl⟩ := List.mem_map.1 hl
    have := hcorner _ hm
    rw [List.length_singleton] at this
    omega
  · split_ifs
    · exact nodup_axisPairs hnodup
    · exact List.nodup_nil
  · rintro _ hl _ hm rfl
    obtain ⟨hd, h2⟩ := hedge _ hm
    rcases List.mem_append.1 hl with hl | hl
    · obtain ⟨a, -, rfl⟩ := List.mem_map.1 hl
      rw [List.length_singleton] at h2
      omega
    · have := hcorner _ hl
      rw [hd] at this
      simp only [Dimension.toNat] at this
      omega

/-- **No shift is made twice.** -/
theorem nodup_imageShifts (box : Box α) : (box.imageShifts.map Prod.snd).Nodup := by
  have hsub : ∀ x ∈ box.imageAxes, x.2.Sublist [.x, .y, .z] := fun x hx =>
    (mem_imageAxes.1 hx).1.trans box.periodicAxes_sublist
  unfold imageShifts
  rw [List.map_flatMap, List.nodup_flatMap]
  refine ⟨fun x hx => ?_, ?_⟩
  · rw [List.map_map]
    exact (nodup_shiftsAlong ((hsub x hx).nodup (by decide))).map Function.injective_id
  · have haxes := List.pairwise_map.1 box.nodup_imageAxes
    refine (List.Pairwise.and_mem.1 haxes).imp ?_
    rintro x y ⟨hx, hy, hne⟩ s hsx hsy
    simp only [List.map_map, Function.comp_def, List.map_id'] at hsx hsy
    -- a shift tells the axes along which it moves
    have h1 := ((mem_shiftsAlong_iff (hsub x hx)).1 hsx).1
    have h2 := ((mem_shiftsAlong_iff (hsub y hy)).1 hsy).1
    exact hne (h1.symm.trans h2)

/-- The place of a shift in the order in which images are made. -/
def rank (box : Box α) (s : Vec3 ℤ) : ℕ := (box.imageShifts.map Prod.snd).idxOf s

/-- Is a copy made before another one? -/
def MadeBefore (box : Box α) (c d : Image α) : Prop :=
  box.rank c.shift < box.rank d.shift ∨ c.shift = d.shift ∧ c.source < d.source

theorem MadeBefore.asymm {box : Box α} {c d : Image α} (h : box.MadeBefore c d) :
    ¬box.MadeBefore d c := by
  rintro (h' | ⟨h', hlt⟩)
  · rcases h with h | ⟨h, -⟩
    · omega
    · rw [h] at h'
      exact lt_irrefl _ h'
  · rcases h with h | ⟨-, hlt'⟩
    · rw [h'] at h
      exact lt_irrefl _ h
    · omega

theorem pairwise_rank (box : Box α) :
    box.imageShifts.Pairwise fun x y => box.rank x.2 < box.rank y.2 := by
  have hnodup := box.nodup_imageShifts
  rw [List.pairwise_iff_getElem]
  intro i j hi hj hij
  have hget : ∀ k (hk : k < box.imageShifts.length), box.rank box.imageShifts[k].2 = k := by
    intro k hk
    have hk' : k < (box.imageShifts.map Prod.snd).length := by simpa using hk
    unfold rank
    rw [← List.getElem_map Prod.snd (h := hk')]
    exact hnodup.idxOf_getElem k hk'
  rw [hget i hi, hget j hj]
  exact hij

/-- **The copies come in order.** -/
theorem pairwise_copies (box : Box α) (cutoff : Vec3 α) (ps : List (Vec3 α)) :
    (box.copies cutoff ps).Pairwise box.MadeBefore := by
  unfold copies
  rw [List.pairwise_flatMap]
  constructor
  · rintro ⟨k, s⟩ -
    rw [List.pairwise_filterMap]
    have hidx : ps.zipIdx.Pairwise fun x y => x.2 < y.2 := by
      rw [← List.pairwise_map (f := Prod.snd) (R := (· < ·)), List.zipIdx_map_snd]
      exact List.pairwise_lt_range'
    refine hidx.imp ?_
    rintro ⟨x, i⟩ ⟨y, j⟩ hij c hc d hd
    obtain ⟨-, hc⟩ := Option.ite_none_right_eq_some.1 hc
    obtain ⟨-, hd⟩ := Option.ite_none_right_eq_some.1 hd
    rw [← Option.some.inj hc, ← Option.some.inj hd]
    exact .inr ⟨rfl, hij⟩
  · refine box.pairwise_rank.imp ?_
    rintro ⟨k, s⟩ ⟨l, t⟩ hst c hc d hd
    obtain ⟨⟨x, i⟩, -, hc⟩ := List.mem_filterMap.1 hc
    obtain ⟨⟨y, j⟩, -, hd⟩ := List.mem_filterMap.1 hd
    obtain ⟨-, hc⟩ := Option.ite_none_right_eq_some.1 hc
    obtain ⟨-, hd⟩ := Option.ite_none_right_eq_some.1 hd
    rw [← Option.some.inj hc, ← Option.some.inj hd]
    exact .inl hst

/-- Each image is the copy of a point that an image shift moves. -/
theorem copy_of_mem_items {box : Box α} {cutoff : Vec3 α} {ps : List (Vec3 α)} {c : Image α}
    (hc : c ∈ (box.imagesOf cutoff ps).items) :
    ∃ x j s, ps[j]? = some x ∧ box.IsImageShift s ∧ c = box.copyOf x j s := by
  obtain ⟨x, j, s, hx, hs, -, hcopy⟩ := mem_copies.1 (mem_of_mem_firstAtPosition hc)
  exact ⟨x, j, s, hx, hs, hcopy⟩

end Order

variable {box : Box ℝ} {cutoff : Vec3 ℝ} {ps : List (Vec3 ℝ)} {x : Vec3 ℝ} {j : ℕ} {s : Vec3 ℤ}

/-- Of the copies at a position, the first is the one that none is made before. -/
theorem firstIn_copies_iff {c : Image ℝ} : FirstIn (box.copies cutoff ps) c ↔
    c ∈ box.copies cutoff ps ∧
      ∀ k ∈ box.copies cutoff ps, box.MadeBefore k c → k.position ≠ c.position := by
  have hpair := box.pairwise_copies cutoff ps
  constructor
  · intro hc
    refine ⟨hc.mem, fun k hk hkc => ?_⟩
    obtain ⟨before, after, hl, hfirst⟩ := hc
    rw [hl] at hk hpair
    obtain ⟨-, hafter, -⟩ := List.pairwise_append.1 hpair
    rcases List.mem_append.1 hk with hk | hk
    · exact hfirst k hk
    -- no copy that comes later is made before
    rcases List.mem_cons.1 hk with rfl | hk
    · exact absurd hkc hkc.asymm
    · exact absurd hkc ((List.pairwise_cons.1 hafter).1 k hk).asymm
  · intro h
    obtain ⟨hc, hfirst⟩ := h
    obtain ⟨before, after, hl⟩ := List.append_of_mem hc
    refine ⟨before, after, hl, fun k hk => ?_⟩
    rw [hl] at hpair
    refine hfirst k ?_ ((List.pairwise_append.1 hpair).2.2 k hk c List.mem_cons_self)
    rw [hl]
    exact List.mem_append_left _ hk

/-- **Is a copy of a point shadowed?** A copy is made before it, at the same position. -/
def Shadowed (box : Box ℝ) (ps : List (Vec3 ℝ)) (j : ℕ) (s : Vec3 ℤ) : Prop :=
  ∃ x y k t, ps[j]? = some x ∧ ps[k]? = some y ∧ box.IsImageShift s ∧ box.IsImageShift t ∧
    box.displace t y = box.displace s x ∧ (box.rank t < box.rank s ∨ t = s ∧ k < j)

/-- Copies of one point are at different positions. -/
theorem shift_eq_of_displace_eq {t : Vec3 ℤ} (hs : box.Supports s) (ht : box.Supports t)
    (h : box.displace t x = box.displace s x) : t = s := by
  refine Vec3.ext_get fun a => ?_
  by_cases hper : box.periodic.get a = true
  · have hpos := congrArg (Vec3.get · a) h
    simp only [get_displace, add_right_inj] at hpos
    exact_mod_cast mul_right_cancel₀ (length_pos_of_periodic hper).ne' hpos
  · rw [hs.get_eq_zero hper, ht.get_eq_zero hper]

/-- **Only another point shadows a copy**: one at the same position, up to whole box lengths. -/
theorem Shadowed.exists_other (h : box.Shadowed ps j s) (hj : ps[j]? = some x) :
    ∃ y k t, k ≠ j ∧ ps[k]? = some y ∧ box.displace t y = box.displace s x := by
  obtain ⟨x', y, k, t, hx', hy, hs, ht, heq, hbefore⟩ := h
  obtain rfl : x = x' := Option.some.inj (hj.symm.trans hx')
  refine ⟨y, k, t, fun hk => ?_, hy, heq⟩
  rw [hk, hj] at hy
  obtain rfl := Option.some.inj hy
  obtain rfl := shift_eq_of_displace_eq hs.periodic ht.periodic heq
  rcases hbefore with hlt | ⟨-, hlt⟩
  · exact lt_irrefl _ hlt
  · exact hlt.ne hk

/-- Along one axis, with `u` and `v` the distances of two points from a face: if the second one, moved
by one length, is where the first one is moved, then it is as close to the face as the first one. -/
theorem le_of_moved_eq {L c u v : ℝ} {m : ℤ} (hL : 0 < L) (hc : 0 < c) (hu : u ≤ L) (hv : 0 ≤ v)
    (hm : m = 0 ∨ m = 1 ∨ m = -1) (hr : m = 1 → u ≤ c) (heq : v + L = u + m * L) : v ≤ c := by
  rcases hm with rfl | rfl | rfl
  · push_cast at heq
    linarith
  · have := hr rfl
    push_cast at heq
    linarith
  · push_cast at heq
    linarith

/-- Two copies of points inside of the box that are at the same position are both made, or neither. -/
theorem reaches_of_displace_eq {y : Vec3 ℝ} {t : Vec3 ℤ} (hcut : box.AcceptsCutoff cutoff)
    (hx : box.Encloses x) (hy : box.Encloses y) (hs : box.IsImageShift s) (ht : box.IsImageShift t)
    (heq : box.displace t y = box.displace s x) (hr : box.reaches cutoff s x = true) :
    box.reaches cutoff t y = true := by
  rw [reaches_iff] at hr ⊢
  intro a
  -- where the copies are, along this axis
  have hpos := congrArg (Vec3.get · a) heq
  simp only [get_displace] at hpos
  obtain ⟨hx1, hx2⟩ := hx a
  obtain ⟨hy1, hy2⟩ := hy a
  have hlen : box.length a = box.hi.get a - box.lo.get a := rfl
  have hunit := hs.unit a
  constructor
  · intro hta
    have ha := mem_axes_of_periodic (ht.periodic a (by omega))
    rw [hta, Int.cast_one] at hpos
    refine le_of_moved_eq (length_pos ha) (hcut a ha).1 (u := x.get a - box.lo.get a) ?_ ?_ hunit
      (hr a).1 ?_ <;> linarith
  · -- the same from the upper face, with the shift of the first point reversed
    intro hta
    have ha := mem_axes_of_periodic (ht.periodic a (by omega))
    rw [hta, Int.cast_neg, Int.cast_one] at hpos
    refine le_of_moved_eq (length_pos ha) (hcut a ha).1 (u := box.hi.get a - x.get a) (m := -s.get a)
      ?_ ?_ (by omega) (fun h => (hr a).2 (by omega)) ?_
    · linarith
    · linarith
    · push_cast
      linarith

/-- **The images are the copies that are not shadowed.** -/
theorem mem_items_iff (hcut : box.AcceptsCutoff cutoff) (hin : ∀ p ∈ ps, box.Encloses p)
    (hj : ps[j]? = some x) : box.copyOf x j s ∈ (box.imagesOf cutoff ps).items ↔
      box.copyOf x j s ∈ box.copies cutoff ps ∧ ¬box.Shadowed ps j s := by
  show _ ∈ firstAtPosition _ ↔ _
  rw [mem_firstAtPosition, firstIn_copies_iff]
  refine and_congr_right fun hc => ?_
  obtain ⟨x', j', s', hj', hs, hr, hcopy⟩ := mem_copies.1 hc
  obtain ⟨rfl, rfl⟩ : j = j' ∧ s = s' := by
    rw [copyOf, copyOf, Image.mk.injEq] at hcopy
    exact ⟨hcopy.2.1, hcopy.2.2.1⟩
  obtain rfl : x = x' := Option.some.inj (hj.symm.trans hj')
  constructor
  · rintro hfirst ⟨x', y, k, t, hx', hy, -, ht, heq, hbefore⟩
    obtain rfl : x = x' := Option.some.inj (hj.symm.trans hx')
    -- the other copy is made too, since it is at the same position
    have hreach := reaches_of_displace_eq hcut (hin x (List.mem_of_getElem? hj))
      (hin y (List.mem_of_getElem? hy)) hs ht heq hr
    exact hfirst (box.copyOf y k t) (mem_copies.2 ⟨y, k, t, hy, ht, hreach, rfl⟩) hbefore heq
  · rintro hshadow k hk hbefore heq
    obtain ⟨y, k, t, hy, ht, -, rfl⟩ := mem_copies.1 hk
    exact hshadow ⟨x, y, k, t, hj, hy, hs, ht, heq, hbefore⟩

end Box

end SmoothedParticles
