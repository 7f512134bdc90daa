import SmoothedParticles.Proofs.Force.Momentum

/-!
# Dissipation of energy

Viscosity slows down what approaches or recedes. The power of the two forces of a pair is minus the
product of its pull and its relative velocity along the separation: three signs, that of the viscous term,
that of the slope of the kernel and that of the force along the separation, make it a loss.

* `loss`, `loss_nonneg`: what a pair takes from the motion, which is never negative.
* `pairPower_add_flip`: **the two forces of a pair together** do minus this work.
* `two_mul_power`: so do all forces, where each pair is counted from both sides.
* `viscousForces_dissipate`: **viscous forces only dissipate**, and leave a common motion alone.
-/

namespace SmoothedParticles

open NeighborList

/-- The sum of the products of velocities and forces. -/
noncomputable def power (velocities forces : Array (Vec3 ℝ)) : ℝ :=
  (Array.zipWith Vec3.dot velocities forces).toList.sum

namespace ViscousFluid

variable {f : ViscousFluid ℝ} {p : Pair ℝ}

/-- What a pair takes from the motion of its particles, by time. -/
noncomputable def loss (f : ViscousFluid ℝ) (p : Pair ℝ) : ℝ := f.pull p * f.approach p

theorem loss_flip (f : ViscousFluid ℝ) (p : Pair ℝ) : f.loss p.flip = f.loss p := by
  rw [loss, loss, pull_flip, approach_flip]

/-- The power of the force of a pair on its first particle. -/
noncomputable def pairPower (f : ViscousFluid ℝ) (p : Pair ℝ) : ℝ :=
  (f.velocities.getD p.first .zero).dot ((f.pairForce p).getD .zero)

/-- The viscous term is against the relative velocity. -/
theorem pressure_mul_nonpos {q : ViscosityParameters ℝ} (hvalid : q.Valid) (product r : ℝ) :
    q.pressure product r * product ≤ 0 := by
  have hc := hvalid.soundSpeed_pos
  have hd := hvalid.density_pos
  have hh := hvalid.smoothingLength_pos
  have he := hvalid.epsilon_pos
  have hq := hvalid.q1_nonneg
  have h : 0 ≤ q.q1 * q.soundSpeed * q.smoothingLength * q.density * (product * product) /
      (r * r + q.epsilon * q.smoothingLength * q.smoothingLength) :=
    div_nonneg (mul_nonneg (by positivity) (mul_self_nonneg product))
      (add_nonneg (mul_self_nonneg r) (by positivity))
  rw [ViscosityParameters.pressure]
  exact neg_nonneg.1 (h.trans_eq (by ring))

/-- **A pair never drives its particles**: the viscous term is against the relative velocity, and the
kernel falls off. -/
theorem loss_nonneg (hvalid : f.parameters.Valid) (hr : 0 ≤ p.distance)
    (hfirst : 0 ≤ f.volumes.getD p.first 0) (hsecond : 0 ≤ f.volumes.getD p.second 0) :
    0 ≤ f.loss p := by
  rw [loss, pull]
  split_ifs with hnone
  · rw [zero_mul]
  · have hr : 0 < p.distance := lt_of_le_of_ne hr fun h => hnone (.inl h.symm)
    have hslope := neg_nonneg.2 (Kernel.derivative_nonpos (k := f.kernel) hr)
    have hterm := neg_nonneg.2 (pressure_mul_nonpos hvalid (f.approach p) p.distance)
    have h := div_nonneg (mul_nonneg (mul_nonneg (mul_nonneg hfirst hsecond) hterm) hslope) hr.le
    exact h.trans_eq (by ring)

/-- The work on the first particle is that along the vector of the pair. -/
theorem pairPower_eq (f : ViscousFluid ℝ) (p : Pair ℝ) :
    f.pairPower p = f.pull p * (f.velocities.getD p.first .zero).dot p.vector := by
  simp only [pairPower, Vec3.dot_eq, get_pairForce]
  ring

/-- **The two forces of a pair together** take from the motion what the pair loses. -/
theorem pairPower_add_flip (f : ViscousFluid ℝ) (p : Pair ℝ) :
    f.pairPower p + f.pairPower p.flip = -f.loss p := by
  rw [pairPower_eq, pairPower_eq, pull_flip, loss]
  simp only [Pair.flip, approach, Vec3.dot_eq, Vec3.get_sub, Vec3.get_neg]
  ring

/-- **The power of the force on a particle** is the sum of those of its pairs. -/
theorem dot_sumRow (f : ViscousFluid ℝ) {u : Vec3 ℝ} {row : List (Pair ℝ)}
    (hrow : ∀ p ∈ row, f.velocities[p.first]? = some u) :
    u.dot (f.sumRow row).1 = (row.map f.pairPower).sum := by
  rw [Vec3.dot_eq, get_sumRow, get_sumRow, get_sumRow, ← List.sum_map_mul_left,
    ← List.sum_map_mul_left, ← List.sum_map_mul_left, ← List.sum_map_add, ← List.sum_map_add]
  refine congrArg List.sum (List.map_congr_left fun p hp => ?_)
  rw [pairPower_eq, Array.getD_eq_getD_getElem?, hrow p hp, Option.getD_some, Vec3.dot_eq]
  ring

end ViscousFluid

section Dissipation

variable {o : SearchOptions ℝ} {t : Table ℝ} {l : NeighborList ℝ} {f : ViscousFluid ℝ} {p : Pair ℝ}

/-- **All forces together** take from the motion what the pairs lose. -/
theorem two_mul_power (h : SelfPart o t l) (hsize : f.velocities.size = l.nQuery) :
    2 * power f.velocities (l.rows.map fun row => (f.sumRow row).1) = -(l.pairs.map f.loss).sum := by
  have hrows := h.reachable.sound.rows
  have hpower : Array.zipWith Vec3.dot f.velocities (l.rows.map fun row => (f.sumRow row).1) =
      l.rows.map fun row => (row.map f.pairPower).sum := by
    refine zipWith_map_rows hsize fun i u row hu hrow => f.dot_sumRow fun p hp => ?_
    rw [(hrows.indexed i row hrow p hp).first]
    exact hu
  calc 2 * power f.velocities (l.rows.map fun row => (f.sumRow row).1)
      = 2 * (l.pairs.map f.pairPower).sum := by
        rw [power, hpower, Array.toList_map, ← sum_map_pairs]
    _ = (l.pairs.map fun p => f.pairPower p + f.pairPower p.flip).sum :=
        (h.mutual.sum_add_flip f.pairPower).symm
    _ = -(l.pairs.map f.loss).sum := by
        simp only [ViscousFluid.pairPower_add_flip, List.sum_neg, List.map_map]
        rfl

/-- Particles with one velocity do not approach each other. -/
theorem loss_of_common (h : SelfPart o t l) (hsize : f.velocities.size = l.nQuery) {u : Vec3 ℝ}
    (hu : ∀ v ∈ f.velocities, v = u) (hp : p ∈ l.pairs) : f.loss p = 0 := by
  have hget : ∀ i < l.nQuery, f.velocities.getD i .zero = u := by
    intro i hi
    rw [← hsize] at hi
    rw [Array.getD_eq_getD_getElem?, Array.getElem?_eq_getElem hi]
    exact hu _ (Array.getElem_mem hi)
  have happroach : f.approach p = 0 := by
    rw [ViscousFluid.approach, hget _ (h.first_lt hp), hget _ (h.second_lt hp), Vec3.dot_eq]
    simp only [Vec3.get_sub, sub_self, zero_mul, add_zero]
  rw [ViscousFluid.loss, happroach, mul_zero]

theorem volume_nonneg {volumes : Array ℝ} (h : ∀ v ∈ volumes, 0 < v) (i : ℕ) :
    0 ≤ volumes.getD i 0 := by
  rw [Array.getD_eq_getD_getElem?]
  exact getD_of_forall (fun v hv => (h v (Array.mem_of_getElem? hv)).le) le_rfl

/-- **Viscous forces only dissipate.** Between the points of one set, or those of them that have equal or
different types, the forces never add to the motion, for each kind of kernel; they do nothing to particles
that all have the same velocity. -/
theorem viscousForces_dissipate {k : Kernel ℝ} {velocities : Table ℝ} {volumes : Array ℝ}
    {p : ViscosityParameters ℝ} {result : ViscousForces ℝ} (hl : SelfPart o t l)
    (hvolumes : ∀ v ∈ volumes, 0 < v)
    (h : viscousForces l k velocities volumes p = .ok result) :
    power velocities.points result.forces ≤ 0 ∧
      ∀ u, (∀ v ∈ velocities.points, v = u) → power velocities.points result.forces = 0 := by
  obtain ⟨hfits, rfl⟩ := viscousForces_ok_iff.1 h
  let f : ViscousFluid ℝ := ⟨p, k, velocities.points, volumes⟩
  have hsize : f.velocities.size = l.nQuery := by
    rw [Table.size_points]
    exact congrArg Prod.fst hfits.velocities
  have hpower := two_mul_power (f := f) hl hsize
  simp only [Array.map_map]
  constructor
  · have hloss : 0 ≤ (l.pairs.map f.loss).sum := by
      refine List.sum_nonneg ?_
      rintro _ hx
      obtain ⟨q, hq, rfl⟩ := List.mem_map.1 hx
      exact ViscousFluid.loss_nonneg hfits.valid (hl.distance_nonneg hq) (volume_nonneg hvolumes _)
        (volume_nonneg hvolumes _)
    show power f.velocities (l.rows.map fun row => (f.sumRow row).1) ≤ 0
    linarith
  · intro u hu
    have hloss : (l.pairs.map f.loss).sum = 0 := by
      rw [List.map_congr_left fun q hq => loss_of_common hl hsize hu hq, List.sum_map_zero]
    show power f.velocities (l.rows.map fun row => (f.sumRow row).1) = 0
    linarith

/-- Two particles that approach each other lose energy, with the Gaussian kernel. -/
theorem viscousForces_dissipate_approaching :
    let o : SearchOptions ℝ := ⟨2, false, 0⟩
    let t : Table ℝ := ⟨2, #[#v[0, 0], #v[1, 0]]⟩
    let velocities : Table ℝ := ⟨2, #[#v[1, 0], #v[0, 0]]⟩
    let k : Kernel ℝ := ⟨.gaussian, 2, .two, Scalar.zero_eq.trans_lt two_pos⟩
    let p : ViscosityParameters ℝ := ⟨1, 1, 1, 2, 1, true⟩
    ∃ l result, (direct o t none .keepAll).result = .ok l ∧ SelfPart o t l ∧
      (∀ v ∈ (#[1, 1] : Array ℝ), 0 < v) ∧
      viscousForces l k velocities #[1, 1] p = .ok result ∧
      power velocities.points result.forces ≠ 0 ∧ power velocities.points result.forces ≤ 0 := by
  intro o t velocities k p
  have hvalid : p.Valid := ⟨one_pos, one_pos, two_pos, one_pos, zero_le_one⟩
  obtain ⟨l, hl, hd, hself, hrows⟩ := exists_unitPair
  have hpart := SelfPart.whole hl
  have hfits := fluidFits_unitPair hrows hd hself hvalid (k := k) rfl rfl
  have hvolumes : ∀ v ∈ (#[1, 1] : Array ℝ), 0 < v := by simp
  have hforces := viscousForces_ok_iff.2 ⟨hfits, rfl⟩
  refine ⟨l, _, hl, hpart, hvolumes, hforces, ?_, (viscousForces_dissipate hpart hvolumes hforces).1⟩
  have hpairs : l.pairs = [unitPair, unitPair.flip] := by
    rw [pairs, hrows]
    rfl
  have hloss : 0 < (approachingFluid k p).loss unitPair :=
    mul_pos_of_neg_of_neg (pull_unitPair hvalid one_pos one_lt_two) approach_unitPair
  have hpower := two_mul_power (f := approachingFluid k p) hpart
    (Table.size_points _ |>.trans (congrArg Prod.fst hfits.velocities))
  simp only [Array.map_map]
  show power (approachingFluid k p).velocities
    (l.rows.map fun row => ((approachingFluid k p).sumRow row).1) ≠ 0
  rw [hpairs, List.map_cons, List.map_singleton, List.sum_pair, ViscousFluid.loss_flip] at hpower
  linarith

end Dissipation

end SmoothedParticles
