import SmoothedParticles.Proofs.Force.ElasticContacts

/-!
# Action and reaction

A contact pushes its two spheres with opposite forces. These are added up on the spheres of two sets in one
pass over the contacts. What a sphere has got in the end is the sum over its own contacts, and what all
spheres have got cancels.

* `addedUp`, `addedUp_concat`: vectors added up at their indexes, and what one more of them does.
* `getElem?_addedUp`, `total_addedUp`: **the sum at an index** after a pass, and over all indexes.
* `forcesOnFirst_eq`, `forcesOnSecond_eq`: the forces on both sets of spheres as such passes.
* `contacts_balance`: **the contacts of two sets of spheres**, with their forces in balance.
-/

namespace SmoothedParticles

open NeighborList

section Passes

variable {β : Type} {n i : ℕ} {key : β → ℕ} {g : β → Vec3 ℝ} {bs : List β}

/-- **Vectors added up at their indexes**, in one pass. -/
noncomputable def addedUp (n : ℕ) (key : β → ℕ) (g : β → Vec3 ℝ) (bs : List β) : Array (Vec3 ℝ) :=
  bs.foldl (fun sums b => sums.modify (key b) (· + g b)) (.replicate n .zero)

/-- One more vector is added at its index. -/
theorem addedUp_concat (bs : List β) (b : β) :
    addedUp n key g (bs ++ [b]) = (addedUp n key g bs).modify (key b) (· + g b) := by
  rw [addedUp, List.foldl_concat]
  rfl

@[simp] theorem size_addedUp (bs : List β) : (addedUp n key g bs).size = n := by
  induction bs using List.reverseRecOn with
  | nil => exact Array.size_replicate
  | append_singleton bs b ih => rw [addedUp_concat, Array.size_modify, ih]

/-- **The sum at an index** is that of the vectors with this index. -/
theorem getElem?_addedUp (hi : i < n) : (addedUp n key g bs)[i]? =
    some (.total ((bs.filter fun b => key b = i).map g).toArray) := by
  -- on the pass, the last vector first
  induction bs using List.reverseRecOn with
  | nil =>
    rw [addedUp, List.foldl_nil, Array.getElem?_replicate, if_pos hi]
    exact congrArg some (Vec3.total_replicate_zero 0).symm
  | append_singleton bs b ih =>
    rw [addedUp_concat, Array.getElem?_modify, ih, List.filter_append, List.map_append]
    by_cases hb : key b = i
    · rw [if_pos hb, List.filter_singleton, decide_eq_true hb, cond_true, List.map_singleton,
        Vec3.total_concat]
      rfl
    · rw [if_neg hb, List.filter_singleton, decide_eq_false hb, cond_false, List.map_nil,
        List.append_nil]

/-- **The sum over all indexes** is that of all vectors: each of them is added somewhere. -/
theorem total_addedUp (h : ∀ b ∈ bs, key b < n) :
    Vec3.total (addedUp n key g bs) = .total (bs.map g).toArray := by
  induction bs using List.reverseRecOn with
  | nil => exact (Vec3.total_replicate_zero n).trans (Vec3.total_replicate_zero 0).symm
  | append_singleton bs b ih =>
    have hb : key b < (addedUp n key g bs).size := by
      rw [size_addedUp]
      exact h b (List.mem_append_right _ (List.mem_singleton_self b))
    rw [addedUp_concat, Vec3.total_modify_add hb, ih fun b hb => h b (List.mem_append_left _ hb),
      List.map_append, List.map_singleton, Vec3.total_concat]

end Passes

section Forces

variable {box? : Option (Box ℝ)} {a b : Table ℝ} {p : ContactParameters ℝ} {r : ContactForces ℝ}
  {n : ℕ} {cs : List (Contact ℝ)}

/-- **The sum of the forces of some contacts**, as they act on the first spheres. -/
noncomputable def netForce (cs : List (Contact ℝ)) : Vec3 ℝ :=
  .total (cs.map fun c => c.magnitude * c.direction).toArray

theorem forcesOnFirst_eq : forcesOnFirst n cs = addedUp n Contact.first Contact.force cs :=
  rfl

theorem forcesOnSecond_eq : forcesOnSecond n cs = addedUp n Contact.second (fun c => -c.force) cs := by
  have hsub : ∀ v w : Vec3 ℝ, v - w = v + -w := fun v w => Vec3.ext_get fun a => by
    rw [Vec3.get_sub, Vec3.get_add, Vec3.get_neg, sub_eq_add_neg]
  simp only [forcesOnSecond, addedUp, hsub]

/-- The opposite forces have the opposite sum. -/
theorem total_neg_force : Vec3.total (cs.map fun c => -c.force).toArray = -netForce cs :=
  Vec3.total_map_neg Contact.force cs

/-- **The contacts of two sets of spheres, and their forces.** The contacts are in order, each of them once.
A sphere of the first set is pushed by the sum over its contacts, and one of the second set by the opposite
sum over its own. Each contact is one of spheres that overlap, across the faces of a box too, and pushes along
the line between the centers; spheres that overlap have a contact, if need be with another sphere that has an
image at the same place. All forces together cancel. -/
theorem contacts_balance (h : (contacts box? a b p).result = .ok r) :
    (r.contacts.Pairwise fun c d => c.first < d.first ∨ c.first = d.first ∧ c.second < d.second) ∧
      r.forcesA.size = a.size ∧ r.forcesB.size = b.size ∧
      (∀ i < a.size, r.forcesA[i]? = some (netForce (r.contacts.filter fun c => c.first = i))) ∧
      (∀ j < b.size, r.forcesB[j]? = some (-netForce (r.contacts.filter fun c => c.second = j))) ∧
      (∀ c ∈ r.contacts, Repulsive p c ∧ ∃ x y s, a.points[c.first]? = some x ∧
        b.points[c.second]? = some y ∧ SupportsShift box? s ∧
        c.overlap = p.radiusA + p.radiusB - (nearestIn box? (y - x)).norm ∧
        x - moved box? s y = (p.radiusA + p.radiusB - c.overlap) * c.direction) ∧
      (∀ (i j : ℕ) x y, a.points[i]? = some x → b.points[j]? = some y →
        (nearestIn box? (y - x)).norm < p.radiusA + p.radiusB →
          ∃ c ∈ r.contacts, c.first = i ∧
            c.overlap = p.radiusA + p.radiusB - (nearestIn box? (y - x)).norm) ∧
      Vec3.total r.forcesA + Vec3.total r.forcesB = .zero := by
  have hcontact := fun c (hc : c ∈ r.contacts) => repulsive_of_mem h hc
  have hindexes : ∀ c ∈ r.contacts, c.first < a.size ∧ c.second < b.size := by
    intro c hc
    obtain ⟨-, x, y, -, hx, hy, -⟩ := hcontact c hc
    exact ⟨a.size_points ▸ (Array.getElem?_eq_some_iff.1 hx).1,
      b.size_points ▸ (Array.getElem?_eq_some_iff.1 hy).1⟩
  obtain ⟨-, l, hl, rfl⟩ := contacts_ok_iff.1 h
  simp only [forcesOnFirst_eq, forcesOnSecond_eq]
  refine ⟨?_, size_addedUp _, size_addedUp _, fun i hi => getElem?_addedUp hi, fun j hj => ?_, hcontact,
    fun _ _ _ _ => exists_contact h, ?_⟩
  · exact List.pairwise_map.2 (sound_build hl).pairwise_pairs
  · rw [getElem?_addedUp hj, total_neg_force]
  · rw [total_addedUp fun c hc => (hindexes c hc).1, total_addedUp fun c hc => (hindexes c hc).2,
      total_neg_force]
    refine Vec3.ext_get fun axis => ?_
    rw [Vec3.get_add, Vec3.get_neg, Vec3.get_zero]
    exact add_neg_cancel _

/-- One sphere overlaps with two others, with the first one across a face of the box. The center of the second
one is at its own center, so that these two do not push each other. -/
theorem contacts_balance_faces :
    let box := Box.square 8 (by norm_num) true
    let a : Table ℝ := ⟨2, #[#v[1, 4]]⟩
    let b : Table ℝ := ⟨2, #[#v[7, 4], #v[1, 4]]⟩
    let p : ContactParameters ℝ := ⟨3 / 2, 3 / 2, 1, 1, 1 / 2⟩
    ∃ r, (contacts (some box) a b p).result = .ok r ∧
      (∃ c ∈ r.contacts, c.overlap = 1 ∧ c.direction.norm = 1) ∧
      (∃ c ∈ r.contacts, c.overlap = 3 ∧ c.direction = .zero) ∧
      r.forcesA[0]? = some (netForce (r.contacts.filter fun c => c.first = 0)) ∧
      Vec3.total r.forcesA + Vec3.total r.forcesB = .zero := by
  intro box a b p
  have hp : p.Valid := ⟨by norm_num [p], by norm_num [p], one_pos, one_pos, by norm_num [p], le_rfl⟩
  have hradii : p.radiusA + p.radiusB = 3 := by norm_num [p]
  have ho : (SearchOptions.ofCutoff p.contactDistance).Valid :=
    ⟨hp.contactDistance_pos, Scalar.zero_eq.ge⟩
  have ha : box.Admits a := by
    refine Box.admits_square.2 ?_
    simp only [List.mem_toArray, List.forall_mem_cons]
    norm_num
  have hb : box.Admits b := by
    refine Box.admits_square.2 ?_
    simp only [List.mem_toArray, List.forall_mem_cons]
    norm_num
  have hcut : box.AcceptsCutoff
      (.replicate (SearchOptions.ofCutoff p.contactDistance).searchRadius) := by
    refine Box.acceptsCutoff_square ho.searchRadius_pos ?_
    simp only [SearchOptions.searchRadius, SearchOptions.ofCutoff, Scalar.zero_eq, add_zero]
    exact hradii.trans_le (by norm_num)
  obtain ⟨r, hr⟩ : ∃ r, (contacts (some box) a b p).result = .ok r :=
    ⟨_, contacts_ok_iff.2 ⟨hp, _, build_ok_iff.2 ⟨ho, .two, _, rfl, fun _ ht => Option.some.inj ht ▸ rfl,
      fun _ hbox => Option.some.inj hbox ▸ ⟨hcut, ha, fun _ ht => Option.some.inj ht ▸ hb⟩, rfl, trivial,
      rfl⟩, rfl⟩⟩
  have hx : a.points[0]? = some ⟨1, 4, 0⟩ := by simp [a, Table.points, Vec3.ofList]
  have hy : b.points[0]? = some ⟨7, 4, 0⟩ := by simp [b, Table.points, Vec3.ofList]
  have hz : b.points[1]? = some ⟨1, 4, 0⟩ := by simp [b, Table.points, Vec3.ofList]
  have hfaces : (nearestIn (some box) (⟨7, 4, 0⟩ - ⟨1, 4, 0⟩)).norm = 2 := by
    have hsub : (⟨7, 4, 0⟩ : Vec3 ℝ) - ⟨1, 4, 0⟩ = ⟨6, 0, 0⟩ :=
      Vec3.ext_get fun a => by rw [Vec3.get_sub]; cases a <;> norm_num [Vec3.get]
    have hround : nearestWhole (6 / 8) = 1 := by
      rw [nearestWhole, if_pos (by norm_num), Int.floor_eq_iff]
      norm_num
    show (box.nearestImage _).norm = 2
    rw [hsub, nearestImage_square, hround, zero_div, nearestWhole_zero, Vec3.norm, Vec3.norm2_eq,
      Scalar.sqrt_eq, Real.sqrt_eq_iff_mul_self_eq_of_pos two_pos]
    norm_num [Vec3.get]
  have hcenter : (nearestIn (some box) ((⟨1, 4, 0⟩ : Vec3 ℝ) - ⟨1, 4, 0⟩)).norm = 0 :=
    norm_nearestIn_sub_self (some box) _
  obtain ⟨-, -, -, hforces, -, hcontact, hexists, hbalance⟩ := contacts_balance hr
  obtain ⟨c, hc, -, hoverlap⟩ := hexists 0 0 _ _ hx hy (by
    rw [hfaces, hradii]
    norm_num)
  obtain ⟨d, hd, -, hcoincide⟩ := hexists 0 1 _ _ hx hz (by
    rw [hcenter, hradii]
    norm_num)
  rw [hfaces, hradii] at hoverlap
  rw [hcenter, sub_zero] at hcoincide
  refine ⟨r, hr, ⟨c, hc, by rw [hoverlap]; norm_num, ?_⟩, ⟨d, hd, hcoincide.trans hradii, ?_⟩,
    hforces 0 one_pos, hbalance⟩
  · refine (hcontact c hc).1.direction.resolve_right fun hzero => ?_
    have hfull := (hcontact c hc).1.direction_eq_zero_iff.1 hzero
    rw [hoverlap, hradii] at hfull
    norm_num at hfull
  · exact (hcontact d hd).1.direction_eq_zero_iff.2 hcoincide

end Forces

end SmoothedParticles
