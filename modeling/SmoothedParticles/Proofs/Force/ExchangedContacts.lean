import SmoothedParticles.Proofs.Force.ContactForces
import SmoothedParticles.Proofs.Pairs.MutualPairs

/-!
# Contacts of exchanged sets

Which of two sets of spheres comes first makes no difference to their contacts. A search then runs among the
points of the other set, by other cells and in another order, and finds the same pairs from their other sides.
The forces are added up in that order; their sums are the same.

* `ContactParameters.exchange`, `force_exchange`: the parameters of the exchanged sets, with **the same force
  for an overlap**.
* `Contact.mirror`, `contactOf_flip`: a contact from its other side.
* `addedUp_perm`: vectors are added up in any order.
* `forcesOnFirst_mirror`, `forcesOnSecond_mirror`: the forces of the mirrored contacts.
* `perm_flip_pairs`: **the pairs of exchanged sets**.
* `contacts_exchange`: **the contacts of exchanged sets are the mirrored ones**.
-/

namespace SmoothedParticles

open NeighborList

variable {a b : Table ℝ} {p : ContactParameters ℝ} {q : Pair ℝ} {cs : List (Contact ℝ)} {n : ℕ}

namespace ContactParameters

/-- The parameters with the two sets exchanged. -/
def exchange (p : ContactParameters ℝ) : ContactParameters ℝ :=
  ⟨p.radiusB, p.radiusA, p.modulusB, p.modulusA, p.poissonRatio⟩

theorem Valid.exchange (h : p.Valid) : p.exchange.Valid :=
  ⟨h.radiusB_pos, h.radiusA_pos, h.modulusB_pos, h.modulusA_pos, h.neg_one_lt_poissonRatio,
    h.poissonRatio_le_half⟩

theorem contactDistance_exchange (p : ContactParameters ℝ) :
    p.exchange.contactDistance = p.contactDistance :=
  add_comm _ _

/-- **The same force for an overlap**: modulus and radius of a contact are the same from both sides. -/
theorem force_exchange (p : ContactParameters ℝ) (d : ℝ) : p.exchange.force d = p.force d := by
  have hmodulus : p.exchange.effectiveModulus = p.effectiveModulus := by
    simp only [effectiveModulus, exchange]
    rw [add_comm]
  have hradius : p.exchange.effectiveRadius = p.effectiveRadius := by
    simp only [effectiveRadius, exchange]
    rw [mul_comm, add_comm]
  rw [force, force, hmodulus, hradius]

end ContactParameters

/-- The contact as the other set of spheres has it. -/
noncomputable def Contact.mirror (c : Contact ℝ) : Contact ℝ :=
  ⟨c.second, c.first, c.overlap, c.magnitude, -c.direction⟩

theorem Contact.force_mirror (c : Contact ℝ) : c.mirror.force = -c.force :=
  Vec3.ext_get fun a => by
    simp only [Contact.force, Contact.mirror, Vec3.get_smul, Vec3.get_neg]
    ring

/-- **The other side of a pair is in the mirrored contact.** -/
theorem contactOf_flip : contactOf p.exchange q.flip = (contactOf p q).mirror := by
  have hdirection : (if 0 < q.distance then -(-q.vector) / q.distance else Vec3.zero) =
      -(if 0 < q.distance then -q.vector / q.distance else Vec3.zero) := by
    refine Vec3.ext_get fun a => ?_
    rw [Vec3.get_neg]
    split_ifs
    · rw [Vec3.get_div, Vec3.get_div, Vec3.get_neg, neg_div]
    · rw [Vec3.get_zero, neg_zero]
  simp only [contactOf, Contact.mirror, Pair.flip, p.contactDistance_exchange, p.force_exchange,
    Scalar.zero_eq, hdirection]

section Sums

variable {β : Type} {key : β → ℕ} {g : β → Vec3 ℝ} {bs bs' : List β}

/-- **Vectors are added up in any order.** -/
theorem addedUp_perm (h : bs.Perm bs') : addedUp n key g bs = addedUp n key g bs' := by
  refine Array.ext (by rw [size_addedUp, size_addedUp]) fun i hi hi' => ?_
  rw [size_addedUp] at hi
  refine Option.some.inj ?_
  rw [← Array.getElem?_eq_getElem, ← Array.getElem?_eq_getElem, getElem?_addedUp hi,
    getElem?_addedUp hi, Vec3.total_perm ((h.filter _).map g)]

/-- The mirrored contacts push the first set as the contacts push the second one. -/
theorem forcesOnFirst_mirror : forcesOnFirst n (cs.map Contact.mirror) = forcesOnSecond n cs := by
  rw [forcesOnFirst_eq, forcesOnSecond_eq, addedUp, addedUp, List.foldl_map]
  simp only [Contact.force_mirror]
  rfl

/-- The mirrored contacts push the second set as the contacts push the first one. -/
theorem forcesOnSecond_mirror : forcesOnSecond n (cs.map Contact.mirror) = forcesOnFirst n cs := by
  have hback : ∀ v : Vec3 ℝ, -(-v) = v := fun v => Vec3.ext_get fun a => by
    rw [Vec3.get_neg, Vec3.get_neg, neg_neg]
  rw [forcesOnSecond_eq, forcesOnFirst_eq, addedUp, addedUp, List.foldl_map]
  simp only [Contact.force_mirror, hback]
  rfl

end Sums

/-- **The pairs of exchanged sets** are the pairs from their other sides, in another order. -/
theorem perm_flip_pairs {o : SearchOptions ℝ} {l l' : NeighborList ℝ}
    (h : (build none o a (some b) .keepAll).result = .ok l)
    (h' : (build none o b (some a) .keepAll).result = .ok l') :
    l'.pairs.Perm (l.pairs.map Pair.flip) := by
  have hnodup := (sound_build h).nodup_pairs.map Pair.flip_injective
  have hnodup' := (sound_build h').nodup_pairs
  obtain ⟨ho, d, points, -, -, -, rfl, -, rfl⟩ := build_ok_iff.1 h
  obtain ⟨-, d', points', -, -, -, rfl, -, rfl⟩ := build_ok_iff.1 h'
  -- between two sets a pair is in the list exactly if the search sees it
  have hmem : ∀ {x y : Array (Vec3 ℝ)} {e : Dimension} {p : Pair ℝ},
      p ∈ (ofRows o .keepAll e ⟨x, some y⟩ none (foundRows none o .keepAll ⟨x, some y⟩)).pairs ↔
        SeenPair none o .keepAll ⟨x, some y⟩ p :=
    (mem_pairs_fresh ho).trans (and_iff_left fun hself => nomatch hself)
  refine (List.perm_ext_iff_of_nodup hnodup' hnodup).2 fun p => ?_
  rw [List.mem_map]
  constructor
  · intro hp
    exact ⟨p.flip, hmem.2 ((hmem.1 hp).flip rfl rfl), p.flip_flip⟩
  · rintro ⟨q, hq, rfl⟩
    exact hmem.2 ((hmem.1 hq).flip rfl rfl)

/-- **Which spheres are in contact**, without a box: those whose centers are closer than the sum of the
radii. -/
theorem exists_contact_iff {r : ContactForces ℝ} (h : (contacts none a b p).result = .ok r) (i j : ℕ) :
    (∃ c ∈ r.contacts, c.first = i ∧ c.second = j) ↔ ∃ x y, a.points[i]? = some x ∧
      b.points[j]? = some y ∧ (x - y).norm < p.radiusA + p.radiusB := by
  simp only [mem_contacts_iff h]
  constructor
  · rintro ⟨_, ⟨q, ⟨x, y, hx, hy, -, -, hnear, -⟩, rfl⟩, rfl, rfl⟩
    rw [Vec3.norm_sub_comm] at hnear
    exact ⟨x, y, hx, hy, hnear⟩
  · rintro ⟨x, y, hx, hy, hnear⟩
    rw [Vec3.norm_sub_comm] at hnear
    exact ⟨_, ⟨pairTo i x j y (.replicate 0), ⟨x, y, hx, hy, rfl, rfl, hnear, rfl⟩, rfl⟩, rfl, rfl⟩

/-- Two sets of spheres have contacts if their points have the same number of dimensions. -/
theorem exists_contacts {d : Dimension} (hp : p.Valid) (hd : Dimension.ofNat? a.columns = some d)
    (hcolumns : b.columns = a.columns) :
    ∃ l : NeighborList ℝ, (build none (.ofCutoff p.contactDistance) a (some b) .keepAll).result = .ok l ∧
      l.dimension = d ∧ (contacts none a b p).result = .ok (let found := l.pairs.map (contactOf p)
        ⟨l.dimension, found, forcesOnFirst a.size found, forcesOnSecond b.size found⟩) := by
  have ho : (SearchOptions.ofCutoff p.contactDistance).Valid :=
    ⟨hp.contactDistance_pos, Scalar.zero_eq.ge⟩
  have hl : (build none (.ofCutoff p.contactDistance) a (some b) .keepAll).result = .ok
      (ofRows (.ofCutoff p.contactDistance) .keepAll d ⟨a.points, some b.points⟩ none
        (foundRows none (.ofCutoff p.contactDistance) .keepAll ⟨a.points, some b.points⟩)) :=
    build_ok_iff.2 ⟨ho, d, _, hd, fun _ ht => Option.some.inj ht ▸ hcolumns, forall_mem_none, rfl,
      trivial, rfl⟩
  exact ⟨_, hl, dimension_ofRows, contacts_ok_iff.2 ⟨hp, _, hl, rfl⟩⟩

/-- **The contacts of exchanged sets are the mirrored ones**, without a box. Each contact has the other one's
indexes exchanged, the same overlap and magnitude, and the opposite direction; there are no others, and they
come in the order of the exchanged indexes. The forces on the two sets are exchanged. Two spheres are in
contact exactly if their centers are closer than the sum of the radii. -/
theorem contacts_exchange (hp : p.Valid) (hd : (Dimension.ofNat? a.columns).isSome = true)
    (hcolumns : b.columns = a.columns) :
    ∃ r r', (contacts none a b p).result = .ok r ∧ (contacts none b a p.exchange).result = .ok r' ∧
      r'.dimension = r.dimension ∧ r'.contacts.Perm (r.contacts.map Contact.mirror) ∧
      (r'.contacts.Pairwise fun c d => c.first < d.first ∨ c.first = d.first ∧ c.second < d.second) ∧
      r'.forcesA = r.forcesB ∧ r'.forcesB = r.forcesA ∧
      ∀ i j : ℕ, (∃ c ∈ r.contacts, c.first = i ∧ c.second = j) ↔ ∃ x y, a.points[i]? = some x ∧
        b.points[j]? = some y ∧ (x - y).norm < p.radiusA + p.radiusB := by
  obtain ⟨d, hd⟩ := Option.isSome_iff_exists.1 hd
  obtain ⟨l, hl, hdl, hr⟩ := exists_contacts hp hd hcolumns
  obtain ⟨l', hl', hdl', hr'⟩ := exists_contacts hp.exchange (hcolumns ▸ hd) hcolumns.symm
  have hsorted : (l'.pairs.map (contactOf p.exchange)).Pairwise fun c d =>
      c.first < d.first ∨ c.first = d.first ∧ c.second < d.second :=
    List.pairwise_map.2 (sound_build hl').pairwise_pairs
  rw [p.contactDistance_exchange] at hl'
  have hperm : (l'.pairs.map (contactOf p.exchange)).Perm
      ((l.pairs.map (contactOf p)).map Contact.mirror) := by
    refine ((perm_flip_pairs hl hl').map _).trans (.of_eq ?_)
    simp only [List.map_map, Function.comp_def, contactOf_flip]
  refine ⟨_, _, hr, hr', hdl'.trans hdl.symm, hperm, hsorted, ?_, ?_, exists_contact_iff hr⟩
  · show forcesOnFirst b.size _ = forcesOnSecond b.size _
    rw [← forcesOnFirst_mirror]
    exact addedUp_perm hperm
  · show forcesOnSecond a.size _ = forcesOnFirst a.size _
    rw [← forcesOnSecond_mirror, forcesOnSecond_eq, forcesOnSecond_eq]
    exact addedUp_perm hperm

/-- Two sets of spheres of unequal radii and moduli, one pair of which overlaps. It is the only contact, from
either side. -/
theorem contacts_exchange_unequal :
    let a : Table ℝ := ⟨2, #[#v[0, 0], #v[9, 0]]⟩
    let b : Table ℝ := ⟨2, #[#v[2, 0]]⟩
    let p : ContactParameters ℝ := ⟨2, 1, 1, 3, 1 / 2⟩
    p.Valid ∧ (Dimension.ofNat? a.columns).isSome = true ∧ b.columns = a.columns ∧
      ∃ r r', (contacts none a b p).result = .ok r ∧ (contacts none b a p.exchange).result = .ok r' ∧
        (∃ c ∈ r.contacts, c.first = 0 ∧ c.second = 0 ∧ c.mirror ∈ r'.contacts) ∧
        (¬∃ c ∈ r'.contacts, c.first = 0 ∧ c.second = 1) ∧
        r'.forcesA = r.forcesB ∧ r'.forcesB = r.forcesA := by
  intro a b p
  have hp : p.Valid := ⟨two_pos, one_pos, one_pos, three_pos, by norm_num [p], le_rfl⟩
  have hradii : p.radiusA + p.radiusB = 3 := by norm_num [p]
  have hpoints : a.points = #[⟨0, 0, 0⟩, ⟨9, 0, 0⟩] := by simp [a, Table.points, Vec3.ofList]
  have hpoints' : b.points = #[⟨2, 0, 0⟩] := by simp [b, Table.points, Vec3.ofList]
  obtain ⟨r, r', hr, hr', -, hperm, -, hforces, hforces', hcontact⟩ :=
    contacts_exchange (a := a) (b := b) hp rfl rfl
  have hnear : (⟨0, 0, 0⟩ - ⟨2, 0, 0⟩ : Vec3 ℝ).norm < p.radiusA + p.radiusB := by
    rw [hradii, Vec3.norm_lt_iff three_pos, Vec3.norm2_sub_plane]
    norm_num
  have hfar : ¬(⟨9, 0, 0⟩ - ⟨2, 0, 0⟩ : Vec3 ℝ).norm < p.radiusA + p.radiusB := by
    rw [hradii, Vec3.norm_lt_iff three_pos, Vec3.norm2_sub_plane]
    norm_num
  obtain ⟨c, hc, hfirst, hsecond⟩ :=
    (hcontact 0 0).2 ⟨_, _, by rw [hpoints]; rfl, by rw [hpoints']; rfl, hnear⟩
  refine ⟨hp, rfl, rfl, r, r', hr, hr', ⟨c, hc, hfirst, hsecond,
    hperm.mem_iff.2 (List.mem_map_of_mem hc)⟩, ?_, hforces, hforces'⟩
  rintro ⟨c', hc', hfirst', hsecond'⟩
  obtain ⟨d, hd, rfl⟩ := List.mem_map.1 (hperm.mem_iff.1 hc')
  obtain ⟨x, y, hx, hy, hlt⟩ := (hcontact 1 0).1 ⟨d, hd, hsecond', hfirst'⟩
  rw [hpoints] at hx
  rw [hpoints'] at hy
  obtain rfl := Option.some.inj hx
  obtain rfl := Option.some.inj hy
  exact hfar hlt

end SmoothedParticles
