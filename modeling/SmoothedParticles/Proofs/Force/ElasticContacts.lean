import SmoothedParticles.Proofs.Pairs.FreshPairs
import SmoothedParticles.Force.Hertz

/-!
# Elastic contacts

Which spheres are in contact, and what a contact is.

* `ContactParameters.Valid`: the parameters that pass the checks.
* `ContactParameters.force_pos`: **spheres that overlap push each other apart**.
* `Repulsive`: what holds of each contact.
* `neg_vector_eq`: the direction of a contact.
* `contacts_ok_iff`: **when contacts are computed**, and from which list.
* `mem_contacts_iff`, `repulsive_of_mem`, `exists_contact`: the contacts, and which spheres have one.
-/

namespace SmoothedParticles

open NeighborList

variable {box? : Option (Box ℝ)} {a b : Table ℝ} {p : ContactParameters ℝ} {r : ContactForces ℝ}
  {c : Contact ℝ} {q : Pair ℝ} {i j : ℕ} {x y : Vec3 ℝ} {d : ℝ}

namespace ContactParameters

/-- Positive radii and moduli, and a physical Poisson's ratio. -/
structure Valid (p : ContactParameters ℝ) : Prop where
  radiusA_pos : 0 < p.radiusA
  radiusB_pos : 0 < p.radiusB
  modulusA_pos : 0 < p.modulusA
  modulusB_pos : 0 < p.modulusB
  neg_one_lt_poissonRatio : -1 < p.poissonRatio
  poissonRatio_le_half : p.poissonRatio ≤ 1 / 2

theorem validate_ok_iff : p.validate = .ok () ↔ p.Valid := by
  have hpositive : (p.positives.find? fun (_, value) => !decide (Scalar.IsPositive value)) = none ↔
      0 < p.radiusA ∧ 0 < p.radiusB ∧ 0 < p.modulusA ∧ 0 < p.modulusB := by
    simp [positives, List.find?_eq_none]
  unfold validate
  cases hfind : p.positives.find? fun (_, value) => !decide (Scalar.IsPositive value) with
  | some entry =>
    refine iff_of_false invalid_ne_ok fun h => ?_
    have hnone := hpositive.2 ⟨h.radiusA_pos, h.radiusB_pos, h.modulusA_pos, h.modulusB_pos⟩
    exact Option.some_ne_none _ (hfind.symm.trans hnone)
  | none =>
    obtain ⟨hradiusA, hradiusB, hmodulusA, hmodulusB⟩ := hpositive.1 hfind
    have hhalf : (0.5 : ℝ) = 1 / 2 := by norm_num
    simp only [Scalar.one_eq, hhalf]
    by_cases hratio : -1 < p.poissonRatio ∧ p.poissonRatio ≤ 1 / 2
    · exact iff_of_true (if_pos hratio)
        ⟨hradiusA, hradiusB, hmodulusA, hmodulusB, hratio.1, hratio.2⟩
    · rw [if_neg hratio]
      exact iff_of_false invalid_ne_ok fun h =>
        hratio ⟨h.neg_one_lt_poissonRatio, h.poissonRatio_le_half⟩

theorem Valid.contactDistance_pos (h : p.Valid) : 0 < p.contactDistance :=
  add_pos h.radiusA_pos h.radiusB_pos

theorem Valid.effectiveModulus_pos (h : p.Valid) : 0 < p.effectiveModulus := by
  have hfactor : 0 < 1 - p.poissonRatio * p.poissonRatio := by
    nlinarith [h.neg_one_lt_poissonRatio, h.poissonRatio_le_half]
  have hA := h.modulusA_pos
  have hB := h.modulusB_pos
  simp only [effectiveModulus, Scalar.one_eq]
  positivity

theorem Valid.effectiveRadius_pos (h : p.Valid) : 0 < p.effectiveRadius :=
  div_pos (mul_pos h.radiusA_pos h.radiusB_pos) h.contactDistance_pos

/-- **Spheres that overlap push each other apart.** -/
theorem Valid.force_pos (h : p.Valid) (hd : 0 < d) : 0 < p.force d := by
  have hmodulus := h.effectiveModulus_pos
  have hradius := h.effectiveRadius_pos
  simp only [force, Scalar.zero_eq, Scalar.sqrt_eq, Scalar.rpow_eq]
  rw [if_neg hd.not_ge]
  have hfactor : (0 : ℝ) < 4 / 3 := by norm_num
  positivity

end ContactParameters

/-- **What holds of each contact**: the spheres overlap by at most the sum of their radii, and are pushed
along the line between their centers, unless these coincide. -/
structure Repulsive (p : ContactParameters ℝ) (c : Contact ℝ) : Prop where
  overlap_pos : 0 < c.overlap
  overlap_le : c.overlap ≤ p.radiusA + p.radiusB
  magnitude_pos : 0 < c.magnitude
  direction : c.direction.norm = 1 ∨ c.direction = .zero
  direction_eq_zero_iff : c.direction = .zero ↔ c.overlap = p.radiusA + p.radiusB

/-- A pair within the contact distance is a contact. -/
theorem repulsive_contactOf (hp : p.Valid) (hq : q.distance = q.vector.norm)
    (hnear : q.distance < p.contactDistance) : Repulsive p (contactOf p q) := by
  have hoverlap : 0 < p.contactDistance - q.distance := sub_pos.2 hnear
  have hdistance : 0 ≤ q.distance := hq ▸ Vec3.norm_nonneg _
  have hcoincide : p.contactDistance - q.distance = p.radiusA + p.radiusB ↔ q.distance = 0 :=
    sub_eq_self
  have hle : p.contactDistance - q.distance ≤ p.radiusA + p.radiusB := sub_le_self _ hdistance
  rcases hdistance.eq_or_lt with hzero | hpos
  · have hdirection : (contactOf p q).direction = .zero := if_neg (by
      rw [Scalar.zero_eq, ← hzero]
      exact lt_irrefl 0)
    exact ⟨hoverlap, hle, hp.force_pos hoverlap, .inr hdirection,
      iff_of_true hdirection (hcoincide.2 hzero.symm)⟩
  · have hdirection : (contactOf p q).direction = -q.vector / q.distance := if_pos (by
      rw [Scalar.zero_eq]
      exact hpos)
    have hunit : (contactOf p q).direction.norm = 1 := by
      rw [hdirection, Vec3.norm_div hpos, Vec3.norm_neg, ← hq, div_self hpos.ne']
    refine ⟨hoverlap, hle, hp.force_pos hoverlap, .inl hunit,
      iff_of_false (fun hzero => ?_) fun h => hpos.ne' (hcoincide.1 h)⟩
    rw [hzero, Vec3.norm_zero] at hunit
    exact zero_ne_one hunit

/-- The direction of a contact is that of its pair, from the second sphere to the first one. -/
theorem neg_vector_eq (hq : q.distance = q.vector.norm) :
    -q.vector = q.distance * (contactOf p q).direction := by
  refine Vec3.ext_get fun a => ?_
  rw [Vec3.get_smul, Vec3.get_neg]
  rcases (hq ▸ Vec3.norm_nonneg _ : 0 ≤ q.distance).eq_or_lt with hzero | hpos
  · rw [← hzero, mul_zero, Vec3.norm_le_zero_iff.1 (hq ▸ hzero.ge) a, neg_zero]
  · have hdirection : (contactOf p q).direction = -q.vector / q.distance := if_pos (by
      rw [Scalar.zero_eq]
      exact hpos)
    rw [hdirection, Vec3.get_div, Vec3.get_neg, div_mul_cancel₀ _ hpos.ne']

section Contacts

/-- **When contacts are computed**, and from which list. -/
theorem contacts_ok_iff : (contacts box? a b p).result = .ok r ↔ p.Valid ∧ ∃ l : NeighborList ℝ,
    (build box? (.ofCutoff p.contactDistance) a (some b) .keepAll).result = .ok l ∧
      r = let found := l.pairs.map (contactOf p)
        ⟨l.dimension, found, forcesOnFirst a.size found, forcesOnSecond b.size found⟩ := by
  unfold contacts
  simp only [Logged.result_bind_iff, Logged.result_monadLift, Logged.result_pure, Except.ok.injEq]
  constructor
  · rintro ⟨_, hp, l, hl, rfl⟩
    exact ⟨ContactParameters.validate_ok_iff.1 hp, l, hl, rfl⟩
  · rintro ⟨hp, l, hl, rfl⟩
    exact ⟨(), ContactParameters.validate_ok_iff.2 hp, l, hl, rfl⟩

/-- **The contacts are what a search sees** within the contact distance. -/
theorem mem_contacts_iff (h : (contacts box? a b p).result = .ok r) :
    c ∈ r.contacts ↔ ∃ q, SeenPair box? (.ofCutoff p.contactDistance) .keepAll
      ⟨a.points, some b.points⟩ q ∧ contactOf p q = c := by
  obtain ⟨-, l, hl, rfl⟩ := contacts_ok_iff.1 h
  obtain ⟨ho, d, points, -, -, -, rfl, -, rfl⟩ := build_ok_iff.1 hl
  refine List.mem_map.trans (exists_congr fun q => and_congr_left' ?_)
  exact (mem_pairs_fresh ho).trans (and_iff_left fun hself => nomatch hself)

/-- **Each contact is one of overlapping spheres**: the overlap is that of nearest images, and the direction is
the one from a copy of the second center to the first center. -/
theorem repulsive_of_mem (h : (contacts box? a b p).result = .ok r) (hc : c ∈ r.contacts) :
    Repulsive p c ∧ ∃ x y s, a.points[c.first]? = some x ∧ b.points[c.second]? = some y ∧
      SupportsShift box? s ∧ c.overlap = p.radiusA + p.radiusB - (nearestIn box? (y - x)).norm ∧
      x - moved box? s y = (p.radiusA + p.radiusB - c.overlap) * c.direction := by
  obtain ⟨q, hq, rfl⟩ := (mem_contacts_iff h).1 hc
  obtain ⟨hp, l, hl, -⟩ := contacts_ok_iff.1 h
  obtain ⟨ho, -, -, -, -, hbox, -⟩ := build_ok_iff.1 hl
  obtain ⟨x, y, hx, hy, hdistance, hnear⟩ := hq.distance_eq ho fun box hb => (hbox box hb).1
  obtain ⟨x', y', hx', hy', hsees, -, -, heq⟩ := hq
  obtain rfl := Option.some.inj (hx.symm.trans hx')
  obtain rfl := Option.some.inj (hy.symm.trans hy')
  have hnorm : q.distance = q.vector.norm := by
    rw [heq]
    rfl
  have hoverlap : p.radiusA + p.radiusB - (contactOf p q).overlap = q.distance := sub_sub_cancel _ _
  refine ⟨repulsive_contactOf hp hnorm hnear, x, y, q.shift, hx, hy, hsees.supports, ?_, ?_⟩
  · rw [← hdistance, ← hoverlap, sub_sub_cancel]
  · have hvector : q.vector = moved box? q.shift y - x := by
      rw [heq]
      rfl
    rw [hoverlap, ← neg_vector_eq hnorm, hvector]
    exact Vec3.ext_get fun a => by rw [Vec3.get_neg, Vec3.get_sub, Vec3.get_sub, neg_sub]

/-- **Spheres that overlap have a contact**, the first one with the second, or in a box with another sphere
of the same set that has an image at the same place. -/
theorem exists_contact (h : (contacts box? a b p).result = .ok r) (hx : a.points[i]? = some x)
    (hy : b.points[j]? = some y) (hnear : (nearestIn box? (y - x)).norm < p.radiusA + p.radiusB) :
    ∃ c ∈ r.contacts, c.first = i ∧
      c.overlap = p.radiusA + p.radiusB - (nearestIn box? (y - x)).norm := by
  obtain ⟨hp, l, hl, -⟩ := contacts_ok_iff.1 h
  obtain ⟨ho, -, -, -, -, hbox, -⟩ := build_ok_iff.1 hl
  obtain ⟨k, z, t, hz, hsees, hdistance, -⟩ := exists_sees_nearest ho.searchRadius_pos
    (fun box hb => (hbox box hb).1)
    (fun box hb => ⟨(hbox box hb).2.1.2 x (Array.mem_of_getElem? hx),
      ((hbox box hb).2.2 b rfl).2 y (Array.mem_of_getElem? hy)⟩) hy (hnear.trans_le ho.cutoff_le)
  rw [← hdistance] at hnear ⊢
  exact ⟨_, (mem_contacts_iff h).2 ⟨pairTo i x k (moved box? t z) t,
    ⟨x, z, hx, hz, hsees, rfl, hnear, rfl⟩, rfl⟩, rfl, rfl⟩

end Contacts

end SmoothedParticles
