import SmoothedParticles.Proofs.Exact.Vectors
import SmoothedParticles.Proofs.Report.Results
import SmoothedParticles.Force.Viscosity
import SmoothedParticles.Pairs.Partition

/-!
# Viscous fluids

What viscous forces are computed from, and what they are.

* `ViscosityParameters.Valid`, `FluidFits`: the arguments that pass the checks.
* `FluidAccepted`, `viscousForces_eq_ok_iff`: **when viscous forces are computed** in any arithmetic.
* `viscousForces_ok_iff`: the same in exact arithmetic, and from which fluid they are.
* `ViscousFluid.pull`, `pull_neg`: the force between two particles, as a multiple of the vector between
  them, and its sign if they approach each other.
* `sumRow_concat`: the sums over a row with one more pair, in any arithmetic.
* `get_pairForce`: **the force of a pair** is along its vector.
* `get_sumRow`: the force on a particle is the sum over its row.
-/

namespace SmoothedParticles

/-- Positive quantities, and a coefficient that is not negative. -/
structure ViscosityParameters.Valid (p : ViscosityParameters ℝ) : Prop where
  soundSpeed_pos : 0 < p.soundSpeed
  density_pos : 0 < p.density
  smoothingLength_pos : 0 < p.smoothingLength
  epsilon_pos : 0 < p.epsilon
  q1_nonneg : 0 ≤ p.q1

/-- **When parameters pass the check**, in any arithmetic. -/
theorem ViscosityParameters.validate_eq_ok_iff {α : Type} [Scalar α] {p : ViscosityParameters α} :
    p.validate = .ok () ↔ (∀ entry ∈ p.positives, Scalar.IsPositive entry.2) ∧ 0 ≤ p.q1 ∧
      Scalar.isFinite p.q1 = true := by
  unfold validate
  split
  next name value hfind =>
    -- the first quantity that is not positive
    refine iff_of_false invalid_ne_ok fun h => ?_
    have hpositive : Scalar.IsPositive value := h.1 _ (List.mem_of_find?_eq_some hfind)
    have hvalue : ¬Scalar.IsPositive value := by simpa using List.find?_some hfind
    exact hvalue hpositive
  next hfind =>
    have hpositive : ∀ entry ∈ p.positives, Scalar.IsPositive entry.2 := by
      intro entry hentry
      simpa using List.find?_eq_none.1 hfind entry hentry
    rw [and_iff_right hpositive]
    split_ifs with hq
    · exact iff_of_true rfl hq
    · exact iff_of_false invalid_ne_ok hq

theorem ViscosityParameters.validate_ok_iff {p : ViscosityParameters ℝ} :
    p.validate = .ok () ↔ p.Valid := by
  rw [validate_eq_ok_iff]
  simp only [positives, List.forall_mem_cons, Scalar.isPositive_iff, Scalar.isFinite_eq, Scalar.zero_eq,
    and_true]
  constructor
  · rintro ⟨⟨hspeed, hdensity, hlength, hepsilon, -⟩, hq⟩
    exact ⟨hspeed, hdensity, hlength, hepsilon, hq⟩
  · rintro ⟨hspeed, hdensity, hlength, hepsilon, hq⟩
    exact ⟨⟨hspeed, hdensity, hlength, hepsilon, List.forall_mem_nil _⟩, hq⟩

section Results

variable {α : Type} [Scalar α] {l : NeighborList α} {k : Kernel α} {velocities : Table α}
  {volumes : Array α} {p : ViscosityParameters α}

/-- Do a list, a kernel, velocities, volumes and parameters pass all checks, in any arithmetic? -/
structure FluidAccepted (l : NeighborList α) (k : Kernel α) (velocities : Table α) (volumes : Array α)
    (p : ViscosityParameters α) : Prop where
  valid : p.validate = .ok ()
  isSelf : l.isSelf = true
  velocities : velocities.shape = (l.nQuery, l.dimension.toNat)
  volumes : volumes.size = l.nQuery
  dimension : k.dimension = l.dimension
  smoothingLength : ¬1e-12 * p.smoothingLength < Scalar.abs (k.h - p.smoothingLength)

theorem checkFluid_eq_ok_iff {f : ViscousFluid α} : checkFluid l k velocities volumes p = .ok f ↔
    FluidAccepted l k velocities volumes p ∧ f = ⟨p, k, velocities.points, volumes⟩ := by
  unfold checkFluid
  simp only [bind_eq_ok_iff, invalid_bind, mismatch_bind, ite_invalid_iff, ite_mismatch_iff,
    pure_eq_ok_iff, Bool.not_eq_true', Bool.not_eq_false, not_not]
  constructor
  · rintro ⟨_, hp, hself, hvelocities, hvolumes, hd, hh, rfl⟩
    exact ⟨⟨hp, hself, hvelocities, hvolumes, hd, hh⟩, rfl⟩
  · rintro ⟨⟨hp, hself, hvelocities, hvolumes, hd, hh⟩, rfl⟩
    exact ⟨(), hp, hself, hvelocities, hvolumes, hd, hh, rfl⟩

/-- **When viscous forces are computed**, in any arithmetic, and from which fluid. -/
theorem viscousForces_eq_ok_iff {result : ViscousForces α} :
    viscousForces l k velocities volumes p = .ok result ↔ FluidAccepted l k velocities volumes p ∧
      result = let sums := l.rows.map (ViscousFluid.sumRow ⟨p, k, velocities.points, volumes⟩)
        ⟨l.dimension, sums.map Prod.fst, sums.map Prod.snd⟩ := by
  unfold viscousForces
  simp only [bind_eq_ok_iff, checkFluid_eq_ok_iff, pure_eq_ok_iff]
  constructor
  · rintro ⟨_, ⟨haccepted, rfl⟩, hresult⟩
    exact ⟨haccepted, hresult.symm⟩
  · rintro ⟨haccepted, hresult⟩
    exact ⟨_, ⟨haccepted, rfl⟩, hresult.symm⟩

end Results

section Checks

variable {l : NeighborList ℝ} {k : Kernel ℝ} {velocities : Table ℝ} {volumes : Array ℝ}
  {p : ViscosityParameters ℝ}

/-- Do the particles of a list fit together with a kernel, velocities, volumes and parameters? -/
structure FluidFits (l : NeighborList ℝ) (k : Kernel ℝ) (velocities : Table ℝ) (volumes : Array ℝ)
    (p : ViscosityParameters ℝ) : Prop where
  valid : p.Valid
  isSelf : l.isSelf = true
  velocities : velocities.shape = (l.nQuery, l.dimension.toNat)
  volumes : volumes.size = l.nQuery
  dimension : k.dimension = l.dimension
  smoothingLength : |k.h - p.smoothingLength| ≤ 1e-12 * p.smoothingLength

/-- A part of a list fits to what the list fits to. -/
theorem fluidFits_filterPart {keep : Pair ℝ → Bool} :
    FluidFits (l.filterPart keep) k velocities volumes p ↔ FluidFits l k velocities volumes p := by
  have hsize : (l.filterPart keep).nQuery = l.nQuery := Array.size_map
  constructor
  · rintro ⟨hp, hself, hvelocities, hvolumes, hd, hh⟩
    rw [hsize] at hvelocities hvolumes
    exact ⟨hp, hself, hvelocities, hvolumes, hd, hh⟩
  · rintro ⟨hp, hself, hvelocities, hvolumes, hd, hh⟩
    rw [← hsize] at hvelocities hvolumes
    exact ⟨hp, hself, hvelocities, hvolumes, hd, hh⟩

theorem fluidAccepted_iff :
    FluidAccepted l k velocities volumes p ↔ FluidFits l k velocities volumes p := by
  constructor
  · rintro ⟨hp, hself, hvelocities, hvolumes, hd, hh⟩
    rw [Scalar.abs_eq] at hh
    exact ⟨ViscosityParameters.validate_ok_iff.1 hp, hself, hvelocities, hvolumes, hd, not_lt.1 hh⟩
  · rintro ⟨hp, hself, hvelocities, hvolumes, hd, hh⟩
    refine ⟨ViscosityParameters.validate_ok_iff.2 hp, hself, hvelocities, hvolumes, hd, ?_⟩
    rw [Scalar.abs_eq]
    exact not_lt.2 hh

theorem checkFluid_ok_iff {f : ViscousFluid ℝ} : checkFluid l k velocities volumes p = .ok f ↔
    FluidFits l k velocities volumes p ∧ f = ⟨p, k, velocities.points, volumes⟩ := by
  rw [checkFluid_eq_ok_iff, fluidAccepted_iff]

/-- **When viscous forces are computed**, and what they are. -/
theorem viscousForces_ok_iff {result : ViscousForces ℝ} :
    viscousForces l k velocities volumes p = .ok result ↔ FluidFits l k velocities volumes p ∧
      result = let sums := l.rows.map (ViscousFluid.sumRow ⟨p, k, velocities.points, volumes⟩)
        ⟨l.dimension, sums.map Prod.fst, sums.map Prod.snd⟩ := by
  rw [viscousForces_eq_ok_iff, fluidAccepted_iff]

end Checks

namespace ViscousFluid

/-- **One more pair** adds its force and its stress, if it has any. -/
theorem sumRow_concat {α : Type} [Scalar α] (f : ViscousFluid α) (row : List (Pair α)) (p : Pair α) :
    f.sumRow (row ++ [p]) = match f.pairForce p with
      | none => f.sumRow row
      | some force => ((f.sumRow row).1 + force, addMatrix (f.sumRow row).2 (f.pairStress p force)) := by
  rw [sumRow, List.foldl_append, List.foldl_cons, List.foldl_nil]
  cases f.pairForce p <;> rfl

variable {f : ViscousFluid ℝ} {p : Pair ℝ}

/-- The relative velocity along the separation; particles that approach each other have it below zero. -/
noncomputable def approach (f : ViscousFluid ℝ) (p : Pair ℝ) : ℝ :=
  (f.velocities.getD p.first .zero - f.velocities.getD p.second .zero).dot (-p.vector)

/-- How strongly the first particle of a pair is pulled along the vector to the second one. -/
noncomputable def pull (f : ViscousFluid ℝ) (p : Pair ℝ) : ℝ :=
  if p.distance = 0 ∨ (f.parameters.repulsionOnly = true ∧ 0 ≤ f.approach p) then 0
  else f.volumes.getD p.first 0 * f.volumes.getD p.second 0 *
    f.parameters.pressure (f.approach p) p.distance * f.kernel.derivative p.distance / p.distance

/-- **Particles that approach each other push each other away**, where the kernel falls off. -/
theorem pull_neg (hvalid : f.parameters.Valid) (hq : 0 < f.parameters.q1) (hr : 0 < p.distance)
    (happroach : f.approach p < 0) (hfirst : 0 < f.volumes.getD p.first 0)
    (hsecond : 0 < f.volumes.getD p.second 0) (hslope : f.kernel.derivative p.distance < 0) :
    f.pull p < 0 := by
  have hpressure : 0 < f.parameters.pressure (f.approach p) p.distance := by
    have hc := hvalid.soundSpeed_pos
    have hd := hvalid.density_pos
    have hh := hvalid.smoothingLength_pos
    have he := hvalid.epsilon_pos
    have hproduct := neg_pos.2 happroach
    calc (0 : ℝ) < f.parameters.q1 * f.parameters.soundSpeed * f.parameters.smoothingLength *
            f.parameters.density * -f.approach p /
          (p.distance * p.distance +
            f.parameters.epsilon * f.parameters.smoothingLength * f.parameters.smoothingLength) := by
          positivity
      _ = f.parameters.pressure (f.approach p) p.distance := by
          rw [ViscosityParameters.pressure]
          ring
  rw [pull, if_neg]
  · exact div_neg_of_neg_of_pos (mul_neg_of_pos_of_neg (by positivity) hslope) hr
  · rintro (h | ⟨-, h⟩)
    · exact hr.ne' h
    · exact not_le.2 happroach h

theorem pairForce_eq (f : ViscousFluid ℝ) (p : Pair ℝ) : f.pairForce p =
    if p.distance = 0 ∨ (f.parameters.repulsionOnly = true ∧ 0 ≤ f.approach p) then none
    else some ((-f.volumes.getD p.first 0 * f.volumes.getD p.second 0 *
      f.parameters.pressure (f.approach p) p.distance * f.kernel.derivative p.distance /
        p.distance) * -p.vector) := by
  unfold pairForce
  simp only [beq_iff_eq, Scalar.zero_eq]
  by_cases hr : p.distance = 0
  · rw [if_pos hr, if_pos (.inl hr)]
  · rw [if_neg hr]
    simp only [hr, false_or]
    rfl

/-- **The force of a pair is along its vector.** -/
theorem get_pairForce (f : ViscousFluid ℝ) (p : Pair ℝ) (a : Axis) :
    ((f.pairForce p).getD .zero).get a = f.pull p * p.vector.get a := by
  rw [pairForce_eq, pull]
  split_ifs
  · rw [Option.getD_none, Vec3.get_zero, zero_mul]
  · rw [Option.getD_some, Vec3.get_smul, Vec3.get_neg]
    ring

/-- **The force on a particle** is the sum of the forces of its pairs. -/
theorem get_sumRow (f : ViscousFluid ℝ) (row : List (Pair ℝ)) (a : Axis) :
    (f.sumRow row).1.get a = (row.map fun p => f.pull p * p.vector.get a).sum := by
  calc (f.sumRow row).1.get a
      = row.foldl (fun sum p => sum + f.pull p * p.vector.get a) ((Vec3.zero : Vec3 ℝ).get a) := by
        refine (List.foldl_hom (fun sums : Vec3 ℝ × Vec3 (Vec3 ℝ) => sums.1.get a) ?_).symm
        rintro ⟨force, stress⟩ p
        rw [← get_pairForce]
        cases f.pairForce p with
        | none => rw [Option.getD_none, Vec3.get_zero, add_zero]
        | some pairForce => exact (Vec3.get_add force pairForce a).symm
    _ = (row.map fun p => f.pull p * p.vector.get a).sum := by
        rw [Vec3.get_zero, List.sum_eq_foldl, List.foldl_map]

end ViscousFluid

end SmoothedParticles
