import SmoothedParticles.Proofs.Pairs.MutualPairs
import SmoothedParticles.Proofs.Force.ViscousFluids
import SmoothedParticles.Proofs.Smoothing.Slopes

/-!
# Conservation of momentum

Two particles act on each other along the line between them, and with opposite forces. Over a list that
has each pair from both sides, the forces add up to zero, and so do their moments.

* `pull_flip`: **a pair is as strong on both sides**.
* `get_pairMoment_flip`: the moments of a pair cancel.
* `total_forces`, `total_moments`: so do those of all pairs.
* `viscousForces_conserve`: **viscous forces conserve momentum and angular momentum**.
* `unitPair`, `approachingFluid`: two particles that approach each other, where all of this can be computed.
-/

namespace SmoothedParticles

open NeighborList

namespace ViscousFluid

/-- The relative velocity and the separation both change their signs. -/
theorem approach_flip (f : ViscousFluid ℝ) (p : Pair ℝ) : f.approach p.flip = f.approach p := by
  simp only [approach, Pair.flip, Vec3.dot_eq, Vec3.get_sub, Vec3.get_neg]
  ring

/-- **A pair is as strong on both sides.** -/
theorem pull_flip (f : ViscousFluid ℝ) (p : Pair ℝ) : f.pull p.flip = f.pull p := by
  have hvolumes : f.volumes.getD p.second 0 * f.volumes.getD p.first 0 =
      f.volumes.getD p.first 0 * f.volumes.getD p.second 0 := mul_comm _ _
  simp only [pull, approach_flip]
  simp only [Pair.flip, hvolumes]

/-- The moment of the force of a pair. -/
noncomputable def pairMoment (f : ViscousFluid ℝ) (points : Array (Vec3 ℝ)) (p : Pair ℝ) : Vec3 ℝ :=
  .cross (points.getD p.first .zero) ((f.pairForce p).getD .zero)

/-- **The moment of the force on a particle** is the sum of the moments of its pairs. -/
theorem get_cross_sumRow (f : ViscousFluid ℝ) {points : Array (Vec3 ℝ)} {x : Vec3 ℝ}
    {row : List (Pair ℝ)} (hrow : ∀ p ∈ row, points[p.first]? = some x) (a : Axis) :
    (Vec3.cross x (f.sumRow row).1).get a = (row.map fun p => (f.pairMoment points p).get a).sum := by
  obtain ⟨b, c, hcross⟩ := Vec3.exists_get_cross a
  calc (Vec3.cross x (f.sumRow row).1).get a
      = x.get b * (row.map fun p => f.pull p * p.vector.get c).sum +
          -x.get c * (row.map fun p => f.pull p * p.vector.get b).sum := by
        rw [hcross, get_sumRow, get_sumRow, sub_eq_add_neg, neg_mul]
    _ = (row.map fun p => x.get b * (f.pull p * p.vector.get c) +
          -x.get c * (f.pull p * p.vector.get b)).sum := by
        rw [List.sum_map_add, List.sum_map_mul_left, List.sum_map_mul_left]
    _ = (row.map fun p => (f.pairMoment points p).get a).sum := by
        refine congrArg List.sum (List.map_congr_left fun p hp => ?_)
        rw [pairMoment, hcross, get_pairForce, get_pairForce, Array.getD_eq_getD_getElem?, hrow p hp,
          Option.getD_some, sub_eq_add_neg, neg_mul]

/-- **The moments of a pair cancel**, since its force is along the line between its points. -/
theorem get_pairMoment_flip (f : ViscousFluid ℝ) {points : Array (Vec3 ℝ)} {p : Pair ℝ}
    (hvector : p.vector = points.getD p.second .zero - points.getD p.first .zero) (a : Axis) :
    (f.pairMoment points p.flip).get a = -(f.pairMoment points p).get a := by
  obtain ⟨b, c, hcross⟩ := Vec3.exists_get_cross a
  simp only [pairMoment, hcross, get_pairForce, pull_flip]
  simp only [Pair.flip, Vec3.get_neg, hvector, Vec3.get_sub]
  ring

end ViscousFluid

section Momentum

variable {o : SearchOptions ℝ} {t : Table ℝ} {l : NeighborList ℝ} {f : ViscousFluid ℝ}

/-- **The forces of mutual pairs** add up to zero. -/
theorem total_forces (h : Mutual l) :
    Vec3.total (l.rows.map fun row => (f.sumRow row).1) = .zero := by
  refine Vec3.ext_get fun a => ?_
  rw [Vec3.get_total, Vec3.get_zero, Array.toList_map, List.map_map]
  calc (l.rows.toList.map ((fun v : Vec3 ℝ => v.get a) ∘ fun row => (f.sumRow row).1)).sum
      = (l.pairs.map fun p => f.pull p * p.vector.get a).sum := by
        rw [sum_map_pairs]
        simp only [Function.comp_def, ViscousFluid.get_sumRow]
    _ = 0 := by
        refine h.sum_eq_zero fun p _ => ?_
        rw [ViscousFluid.pull_flip, Pair.flip, Vec3.get_neg, mul_neg]

/-- The moment of the force on each particle, along an axis. -/
theorem map_get_moments (h : SelfPart o t l) (a : Axis) :
    (Array.zipWith Vec3.cross t.points (l.rows.map fun row => (f.sumRow row).1)).map
      (fun v => v.get a) =
        l.rows.map fun row => (row.map fun p => (f.pairMoment t.points p).get a).sum := by
  have hrows := h.reachable.sound.rows
  rw [h.points_eq.1] at hrows
  rw [Array.map_zipWith]
  refine zipWith_map_rows hrows.size.symm fun i x row hx hrow => f.get_cross_sumRow (fun p hp => ?_) a
  rw [(hrows.indexed i row hrow p hp).first]
  exact hx

/-- **The moments of central forces** between the points of one set add up to zero. -/
theorem total_moments (h : SelfPart o t l) :
    Vec3.total (Array.zipWith Vec3.cross t.points (l.rows.map fun row => (f.sumRow row).1)) =
      .zero := by
  refine Vec3.ext_get fun a => ?_
  rw [Vec3.get_total, Vec3.get_zero, ← Array.toList_map, map_get_moments h a, Array.toList_map,
    ← sum_map_pairs]
  exact h.mutual.sum_eq_zero fun p hp => f.get_pairMoment_flip (h.vector_eq hp) a

/-- **Viscous forces conserve momentum and angular momentum.** Between the points of one set, or those of
them that have equal or different types, the forces add up to zero, and so do their moments. -/
theorem viscousForces_conserve {k : Kernel ℝ} {velocities : Table ℝ} {volumes : Array ℝ}
    {p : ViscosityParameters ℝ} {result : ViscousForces ℝ} (hl : SelfPart o t l)
    (h : viscousForces l k velocities volumes p = .ok result) :
    result.forces.size = t.size ∧ Vec3.total result.forces = .zero ∧
      Vec3.total (Array.zipWith Vec3.cross t.points result.forces) = .zero := by
  obtain ⟨-, rfl⟩ := viscousForces_ok_iff.1 h
  simp only [Array.map_map]
  refine ⟨?_, total_forces hl.mutual, total_moments hl⟩
  rw [Array.size_map, hl.reachable.sound.rows.size, hl.points_eq.1, Table.size_points]

section Approaching

/-- The pair of a particle at the origin with one at the distance one along the first axis. -/
noncomputable def unitPair : Pair ℝ := pairTo 0 ⟨0, 0, 0⟩ 1 ⟨1, 0, 0⟩ (.replicate 0)

theorem distance_unitPair : unitPair.distance = 1 := by
  show (⟨1, 0, 0⟩ - ⟨0, 0, 0⟩ : Vec3 ℝ).norm = 1
  rw [Vec3.norm, Vec3.norm2_sub_plane, Scalar.sqrt_eq]
  norm_num

/-- The list of two particles at the distance one. -/
theorem exists_unitPair : ∃ l : NeighborList ℝ,
    (direct ⟨2, false, 0⟩ ⟨2, #[#v[0, 0], #v[1, 0]]⟩ none .keepAll).result = .ok l ∧
      l.dimension = .two ∧ l.points.reference? = none ∧ l.rows = #[[unitPair], [unitPair.flip]] := by
  have hpoints : (⟨2, #[#v[0, 0], #v[1, 0]]⟩ : Table ℝ).points = #[⟨0, 0, 0⟩, ⟨1, 0, 0⟩] := by
    simp [Table.points, Vec3.ofList]
  have ho : (⟨2, false, 0⟩ : SearchOptions ℝ).Valid := ⟨two_pos, le_rfl⟩
  obtain ⟨l, hl, hd, hp, hrows⟩ :=
    exists_direct_two ho rfl rfl hpoints (distance_unitPair.trans_lt one_lt_two)
  refine ⟨l, hl, hd, by rw [hp], ?_⟩
  rw [hrows, unitPair, flip_pairTo]

variable {k : Kernel ℝ} {p : ViscosityParameters ℝ}

/-- The fluid of two particles, the first of which moves towards the second one. -/
noncomputable def approachingFluid (k : Kernel ℝ) (p : ViscosityParameters ℝ) : ViscousFluid ℝ :=
  ⟨p, k, (⟨2, #[#v[1, 0], #v[0, 0]]⟩ : Table ℝ).points, #[1, 1]⟩

/-- The particles fit to each kernel of the plane with the right support. -/
theorem fluidFits_unitPair (hl : l.rows = #[[unitPair], [unitPair.flip]]) (hd : l.dimension = .two)
    (hself : l.points.reference? = none) (hp : p.Valid) (hk : k.dimension = .two)
    (hlength : k.h = p.smoothingLength) :
    FluidFits l k ⟨2, #[#v[1, 0], #v[0, 0]]⟩ #[1, 1] p := by
  have hsize : l.nQuery = 2 := by
    rw [nQuery, hl]
    rfl
  refine ⟨hp, ?_, ?_, hsize.symm, hk.trans hd.symm, ?_⟩
  · rw [isSelf, hself]
    rfl
  · rw [hsize, hd]
    rfl
  · rw [hlength, sub_self, abs_zero]
    exact mul_nonneg (by norm_num) hp.smoothingLength_pos.le

theorem approach_unitPair : (approachingFluid k p).approach unitPair < 0 := by
  have hvelocities : (approachingFluid k p).velocities = #[⟨1, 0, 0⟩, ⟨0, 0, 0⟩] := by
    simp [approachingFluid, Table.points, Vec3.ofList]
  rw [ViscousFluid.approach, hvelocities, Vec3.dot_eq]
  simp only [Vec3.get_sub, Vec3.get_neg]
  show (1 - 0 : ℝ) * -(1 - 0) + (0 - 0) * -(0 - 0) + (0 - 0) * -(0 - 0) < 0
  norm_num

/-- **The particles push each other away**, whatever the kernel. -/
theorem pull_unitPair (hp : p.Valid) (hq : 0 < p.q1) (hh : 1 < k.h) :
    (approachingFluid k p).pull unitPair < 0 := by
  refine ViscousFluid.pull_neg hp hq ?_ approach_unitPair one_pos one_pos ?_
  · rw [distance_unitPair]
    exact one_pos
  · rw [distance_unitPair]
    exact Kernel.derivative_neg one_pos hh

end Approaching

/-- Two particles of different types that approach each other push each other away. -/
theorem viscousForces_conserve_approaching :
    let o : SearchOptions ℝ := ⟨2, false, 0⟩
    let t : Table ℝ := ⟨2, #[#v[0, 0], #v[1, 0]]⟩
    let velocities : Table ℝ := ⟨2, #[#v[1, 0], #v[0, 0]]⟩
    let k : Kernel ℝ := ⟨.cubicSpline, 2, .two, Scalar.zero_eq.trans_lt two_pos⟩
    let p : ViscosityParameters ℝ := ⟨1, 1, 1, 2, 1, true⟩
    ∃ l parts result, (direct o t none .keepAll).result = .ok l ∧
      l.partition #[1, 2] none = .ok parts ∧ SelfPart o t parts.cross ∧
      viscousForces parts.cross k velocities #[1, 1] p = .ok result ∧
      (result.forces.getD 0 .zero).get .x < 0 ∧ Vec3.total result.forces = .zero ∧
      Vec3.total (Array.zipWith Vec3.cross t.points result.forces) = .zero := by
  intro o t velocities k p
  have hvalid : p.Valid := ⟨one_pos, one_pos, two_pos, one_pos, zero_le_one⟩
  obtain ⟨l, hl, hd, hself, hrows⟩ := exists_unitPair
  have hsize : l.nQuery = 2 := by
    rw [nQuery, hrows]
    rfl
  have hparts := (partition_self_ok_iff hself).2
    ⟨show (#[1, 2] : Array ℤ).size = l.nQuery from hsize.symm, rfl, rfl⟩
  have hcross := (SelfPart.whole hl).cross hparts
  have hcrossRows : (l.splitByTypes #[1, 2] #[1, 2]).cross.rows = l.rows := by
    show l.rows.map _ = l.rows
    rw [hrows]
    simp [typesOf, unitPair, pairTo, Pair.flip]
  have hpart : FluidFits (l.splitByTypes #[1, 2] #[1, 2]).cross k velocities #[1, 1] p :=
    fluidFits_filterPart.2 (fluidFits_unitPair hrows hd hself hvalid rfl rfl)
  have hforces := viscousForces_ok_iff.2 ⟨hpart, rfl⟩
  obtain ⟨-, hmomentum, hmoment⟩ := viscousForces_conserve hcross hforces
  refine ⟨l, _, _, hl, hparts, hcross, hforces, ?_, hmomentum, hmoment⟩
  rw [Array.getD_eq_getD_getElem?, Array.getElem?_map, Array.getElem?_map, hcrossRows, hrows]
  show ((approachingFluid k p).sumRow [unitPair]).1.get .x < 0
  rw [ViscousFluid.get_sumRow, List.map_singleton, List.sum_singleton]
  refine mul_neg_of_neg_of_pos (pull_unitPair hvalid one_pos one_lt_two) ?_
  show 0 < (1 : ℝ) - 0
  norm_num

end Momentum

end SmoothedParticles
