import SmoothedParticles.Proofs.Force.Momentum
import SmoothedParticles.Proofs.Pairs.FinitePairs
import SmoothedParticles.Proofs.Pairs.RowOrder
import SmoothedParticles.Proofs.Smoothing.Slopes

/-!
# Finite forces and stresses

Forces and stresses are read here over numbers that a division by zero makes undefined, so that a finite result
tells that there was none. The checks, the support of the kernel and the test for the distance zero rule out
all divisors but one: the stress of a particle is divided by its volume, which is not checked.

* `Kernel.isFinite_derivative`: the slope of each kernel is finite.
* `ViscosityParameters.Positive`, `denominator_pos`: the parameters that pass the check, and what the viscous
  term divides by.
* `finite_of_pairForce`, `isFinite_pairStress`: the force of a pair is finite, and when its stress is.
* `isFinite_force`, `isFinite_stress`: the same for the sums over a row.
* `stress_finite_iff`: **when forces and stresses are finite**.
* `stress_undefined_of_volume`: a particle without a volume has no stress.
-/

namespace SmoothedParticles

open PartialReal NeighborList

namespace Kernel

/-- **The normalization is finite**: what it divides by is not zero. -/
theorem isFinite_alpha (k : Kernel PartialReal) : Scalar.isFinite k.alpha = true := by
  obtain ⟨kind, h, d, hpos⟩ := k
  obtain ⟨h, hlt, rfl⟩ := pos_iff.1 hpos
  have hh := hlt.ne'
  have hexp : (expMinusNine : PartialReal) = real expMinusNine := rfl
  have herf : (erfThree : PartialReal) = real erfThree := rfl
  have hplane := gaussian_plane_pos.ne'
  have hspace := gaussian_space_pos.ne'
  cases kind <;> cases d <;>
    simp [alpha, hh, Real.pi_ne_zero, hexp, herf, real_div, rpow_real Real.pi_pos, hplane, hspace]

/-- **The slope is finite** at each distance. -/
theorem isFinite_derivative (k : Kernel PartialReal) {r : PartialReal} (hr : Scalar.isFinite r = true) :
    Scalar.isFinite (k.derivative r) = true := by
  have halpha := k.isFinite_alpha
  obtain ⟨r, rfl⟩ := isFinite_iff.1 hr
  obtain ⟨h, hlt, hk⟩ := pos_iff.1 k.h_pos
  have hh := hlt.ne'
  rw [derivative, hk]
  split_ifs
  · rfl
  · cases k.kind
    case cubicSpline => dsimp only; split_ifs <;> simp [halpha, hh, real_div]
    all_goals simp [halpha, hh, real_div]

end Kernel

namespace ViscosityParameters

variable {p : ViscosityParameters PartialReal} {product r : PartialReal}

/-- The parameters that pass the check, which are finite and, apart from the coefficient, positive. -/
structure Positive (p : ViscosityParameters PartialReal) : Prop where
  soundSpeed : 0 < p.soundSpeed
  density : 0 < p.density
  smoothingLength : 0 < p.smoothingLength
  epsilon : 0 < p.epsilon
  q1 : Scalar.isFinite p.q1 = true

theorem positive_of_validate (h : p.validate = .ok ()) : p.Positive := by
  obtain ⟨hpositives, -, hq⟩ := validate_eq_ok_iff.1 h
  simp only [positives, List.forall_mem_cons] at hpositives
  obtain ⟨hspeed, hdensity, hlength, hepsilon, -⟩ := hpositives
  exact ⟨hspeed.1, hdensity.1, hlength.1, hepsilon.1, hq⟩

/-- **What the viscous term divides by** is positive. -/
theorem Positive.denominator_pos (hp : p.Positive) (hr : Scalar.isFinite r = true) :
    0 < r * r + p.epsilon * p.smoothingLength * p.smoothingLength := by
  obtain ⟨r, rfl⟩ := isFinite_iff.1 hr
  obtain ⟨e, he, hepsilon⟩ := pos_iff.1 hp.epsilon
  obtain ⟨h, hh, hlength⟩ := pos_iff.1 hp.smoothingLength
  rw [hepsilon, hlength]
  refine pos_iff.2 ⟨_, ?_, rfl⟩
  have hsquare := mul_self_nonneg r
  have hpositive := mul_pos (mul_pos he hh) hh
  linarith

theorem Positive.isFinite_pressure (hp : p.Positive) (hproduct : Scalar.isFinite product = true)
    (hr : Scalar.isFinite r = true) : Scalar.isFinite (p.pressure product r) = true := by
  have hdenominator := hp.denominator_pos hr
  simp only [pressure, isFinite_div, isFinite_mul, isFinite_neg]
  exact ⟨⟨⟨⟨⟨hp.q1, isFinite_of_pos hp.soundSpeed⟩, isFinite_of_pos hp.smoothingLength⟩,
    isFinite_of_pos hp.density⟩, hproduct⟩, isFinite_of_pos hdenominator, ne_of_pos hdenominator⟩

end ViscosityParameters

namespace ViscousFluid

variable {f : ViscousFluid PartialReal} {p : Pair PartialReal} {force : Vec3 PartialReal}
  {row : List (Pair PartialReal)}

/-- A fluid with positive parameters, finite velocities and finite volumes, some of which may be zero. -/
structure Finite (f : ViscousFluid PartialReal) : Prop where
  parameters : f.parameters.Positive
  velocities : ∀ v ∈ f.velocities, v.isFinite = true
  volumes : ∀ v ∈ f.volumes, Scalar.isFinite v = true

theorem Finite.velocity (hf : f.Finite) (i : ℕ) : (f.velocities.getD i .zero).isFinite = true := by
  rw [Array.getD_eq_getD_getElem?]
  exact getD_of_forall (fun v hv => hf.velocities v (Array.mem_of_getElem? hv)) rfl

theorem Finite.volume (hf : f.Finite) (i : ℕ) : Scalar.isFinite (f.volumes.getD i 0) = true := by
  rw [Array.getD_eq_getD_getElem?]
  exact getD_of_forall (fun v hv => hf.volumes v (Array.mem_of_getElem? hv)) rfl

/-- Without the restriction to repulsion, particles at different places act on each other. -/
theorem pairForce_ne_none {r : ℝ} (hrepulsion : f.parameters.repulsionOnly = false) (hr : r ≠ 0)
    (hdistance : p.distance = real r) : f.pairForce p ≠ none := by
  unfold pairForce
  dsimp only
  rw [hdistance, if_neg (by simpa using hr), if_neg (by simp [hrepulsion])]
  exact Option.some_ne_none _

theorem pairForce_of_distance (f : ViscousFluid PartialReal) (h : p.distance = 0) : f.pairForce p = none := by
  unfold pairForce
  dsimp only
  rw [h, if_pos beq_zero]

/-- **The force of a pair is finite**: particles at the same place do not act on each other. -/
theorem finite_of_pairForce (hf : f.Finite) (hp : p.Finite) (h : f.pairForce p = some force) :
    force.isFinite = true := by
  have hdistance : p.distance ≠ 0 := by
    intro hzero
    rw [pairForce_of_distance f hzero] at h
    exact Option.some_ne_none _ h.symm
  unfold pairForce at h
  dsimp only at h
  split_ifs at h
  obtain rfl := Option.some.inj h
  have hproduct := isFinite_dot (isFinite_vec_sub (hf.velocity p.first) (hf.velocity p.second))
    (isFinite_vec_neg hp.vector)
  have hpressure := hf.parameters.isFinite_pressure hproduct hp.distance
  have hslope := f.kernel.isFinite_derivative hp.distance
  refine isFinite_vec_iff.2 fun a => ?_
  simp only [Vec3.get_smul, Vec3.get_neg, isFinite_mul, isFinite_div, isFinite_neg]
  exact ⟨isFinite_vec_iff.1 hp.vector a, ⟨⟨⟨hf.volume _, hf.volume _⟩, hpressure⟩, hslope⟩,
    hp.distance, hdistance⟩

/-- **The stress of a pair is finite** exactly if its first particle has a volume that is not zero. -/
theorem isFinite_pairStress (hf : f.Finite) (hp : p.Finite) (hforce : force.isFinite = true) (a b : Axis) :
    Scalar.isFinite (((f.pairStress p force).get a).get b) = true ↔ f.volumes.getD p.first 0 ≠ 0 := by
  simp only [pairStress, Vec3.tensor, Vec3.get_map, Vec3.get_div, Vec3.get_neg, isFinite_div,
    isFinite_mul, isFinite_neg]
  rw [and_iff_right ⟨isFinite_vec_iff.1 hp.vector a, isFinite_vec_iff.1 hforce b⟩,
    and_iff_right (hf.volume _)]

/-- **The force on a particle is finite.** -/
theorem isFinite_force (hf : f.Finite) (hrow : ∀ p ∈ row, p.Finite) : (f.sumRow row).1.isFinite = true := by
  -- the sum goes from the first pair to the last one
  induction row using List.reverseRecOn with
  | nil => rfl
  | append_singleton row p ih =>
    obtain ⟨hrow, hp⟩ := List.forall_mem_append.1 hrow
    have hsum := ih hrow
    rw [sumRow_concat]
    cases h : f.pairForce p with
    | none => exact hsum
    | some force =>
      have hforce := finite_of_pairForce hf (hp p (List.mem_singleton_self p)) h
      exact isFinite_vec_add hsum hforce

/-- **The stress of a particle is finite** exactly if the particles that have pairs with a force have a volume
that is not zero. -/
theorem isFinite_stress (hf : f.Finite) (hrow : ∀ p ∈ row, p.Finite) (a b : Axis) :
    Scalar.isFinite (((f.sumRow row).2.get a).get b) = true ↔
      ∀ p ∈ row, f.volumes.getD p.first 0 ≠ 0 ∨ f.pairForce p = none := by
  induction row using List.reverseRecOn with
  | nil => exact iff_of_true (by cases a <;> cases b <;> rfl) fun _ => False.elim ∘ List.not_mem_nil
  | append_singleton row p ih =>
    obtain ⟨hrow, hp⟩ := List.forall_mem_append.1 hrow
    have hsum := ih hrow
    have hp := hp p (List.mem_singleton_self p)
    rw [sumRow_concat, List.forall_mem_append, List.forall_mem_singleton, ← hsum]
    cases h : f.pairForce p with
    | none => simp
    | some force =>
      have hforce := finite_of_pairForce hf hp h
      simp [addMatrix, isFinite_pairStress hf hp hforce]

end ViscousFluid

theorem finite_points {t : Table PartialReal} (h : ∀ row ∈ t.rows, ∀ x ∈ row, Scalar.isFinite x = true) :
    ∀ v ∈ t.points, v.isFinite = true := by
  intro v hv
  obtain ⟨row, hrow, rfl⟩ := Array.mem_map.1 hv
  have hget : ∀ i, Scalar.isFinite (row.toList.getD i 0) = true := by
    intro i
    rw [List.getD_eq_getElem?_getD]
    exact getD_of_forall (fun x hx => h row hrow x (Vector.mem_toList_iff.1 (List.mem_of_getElem? hx))) rfl
  exact isFinite_vec_iff.2 fun a => by cases a <;> exact hget _

section Resting

/-- The list of two particles in the plane, at the distance one. -/
theorem exists_restingPair : ∃ (l : NeighborList PartialReal) (p q : Pair PartialReal),
    (direct ⟨2, false, 0⟩ ⟨2, #[#v[0, 0], #v[1, 0]]⟩ none .keepAll).result = .ok l ∧
      l.dimension = .two ∧ l.points.reference? = none ∧ l.rows = #[[p], [q]] ∧
      p.first = 0 ∧ p.distance = real 1 := by
  let o : SearchOptions PartialReal := ⟨2, false, 0⟩
  let t : Table PartialReal := ⟨2, #[#v[0, 0], #v[1, 0]]⟩
  let x : Vec3 PartialReal := (⟨0, 0, 0⟩ : Vec3 ℝ).map real
  let y : Vec3 PartialReal := (⟨1, 0, 0⟩ : Vec3 ℝ).map real
  let s := directSearch o .keepAll ⟨#[x, y], none⟩
  have hpoints : t.points = #[x, y] := by simp [t, x, y, Table.points, Vec3.ofList, Vec3.map]
  have ho : o.validate = .ok () := by
    rw [SearchOptions.validate_eq_ok_iff]
    simp [o, Scalar.IsPositive]
  have hdistance : (y - x).norm = real 1 := by
    have hunit : ((⟨1, 0, 0⟩ : Vec3 ℝ) - ⟨0, 0, 0⟩).norm = 1 := distance_unitPair
    exact (norm_real (⟨1, 0, 0⟩ - ⟨0, 0, 0⟩)).trans (congrArg real hunit)
  have hradius : s.cutoff = real 2 := by simp [s, o, directSearch, SearchOptions.searchRadius]
  have hcutoff : s.cutoff * s.cutoff = real 4 := by
    rw [hradius, real_mul]
    norm_num
  have hnear : (y - x).norm2 < s.cutoff * s.cutoff := by
    rw [hcutoff]
    show Vec3.norm2 (⟨1, 0, 0⟩ - ⟨0, 0, 0⟩ : Vec3 ℝ) < 4
    rw [Vec3.norm2_sub_plane]
    norm_num
  have hnear' : (x - y).norm2 < s.cutoff * s.cutoff := by
    rw [hcutoff]
    show Vec3.norm2 (⟨0, 0, 0⟩ - ⟨1, 0, 0⟩ : Vec3 ℝ) < 4
    rw [Vec3.norm2_sub_plane]
    norm_num
  obtain ⟨hfirst, hsecond⟩ := rowByPairs_two (s := s) rfl (fun _ _ => rfl) rfl hnear hnear'
  have hrun : s.run .two #[x, y] = .ok #[[⟨1, (y - x).norm, y - x⟩], [⟨0, (x - y).norm, x - y⟩]] := by
    rw [← hfirst, ← hsecond]
    rfl
  have hsets : pointSets t none = .ok (.two, ⟨#[x, y], none⟩) := by
    refine pointSets_ok_iff.2 ⟨rfl, forall_mem_none, ?_, forall_mem_none, ?_⟩
    · rw [hpoints]
      simp [x, y, Vec3.isFinite, Vec3.toList, Vec3.map]
    · rw [hpoints]
      rfl
  have hlist := (direct_eq_ok_iff (f := .keepAll)).2
    ⟨ho, .two, ⟨#[x, y], none⟩, _, hsets, trivial, hrun, rfl⟩
  refine ⟨_, ⟨0, 1, (y - x).norm, y - x, .replicate 0⟩, ⟨1, 0, (x - y).norm, x - y, .replicate 0⟩, hlist,
    dimension_ofRows, by rw [points_ofRows], ?_, rfl, hdistance⟩
  have hskin : ¬(0 : PartialReal) < o.skin := by simp [o]
  unfold ofRows
  rw [if_neg hskin]
  simp [pairOfHit]

variable {l : NeighborList PartialReal} {p q : Pair PartialReal}

/-- The fluid of two particles at rest, the first of which has no volume. -/
noncomputable def restingFluid : ViscousFluid PartialReal :=
  ⟨⟨1, 1, 1, 2, 0.01, false⟩, ⟨.lucy, 2, .two, two_pos⟩,
    (⟨2, #[#v[0, 0], #v[0, 0]]⟩ : Table PartialReal).points, #[0, 1]⟩

/-- There is no check that finds anything wrong with it. -/
theorem accepted_restingPair (hd : l.dimension = .two) (hself : l.points.reference? = none)
    (hrows : l.rows = #[[p], [q]]) :
    FluidAccepted l restingFluid.kernel ⟨2, #[#v[0, 0], #v[0, 0]]⟩ restingFluid.volumes
      restingFluid.parameters := by
  have hsize : l.nQuery = 2 := by
    rw [nQuery, hrows]
    rfl
  refine ⟨?_, ?_, ?_, hsize.symm, hd.symm, ?_⟩
  · have hepsilon : (0 : ℝ) < 0.01 := by norm_num
    rw [ViscosityParameters.validate_eq_ok_iff]
    simpa [restingFluid, ViscosityParameters.positives, Scalar.IsPositive] using hepsilon
  · rw [isSelf, hself]
    rfl
  · rw [hsize, hd]
    rfl
  · have hsmall : (0 : ℝ) ≤ 1e-12 := by norm_num
    simpa [restingFluid, Scalar.abs] using hsmall

theorem finite_velocities_resting : ∀ row ∈ (⟨2, #[#v[0, 0], #v[0, 0]]⟩ : Table PartialReal).rows,
    ∀ x ∈ row, Scalar.isFinite x = true := by
  intro row hrow x hx
  obtain rfl : row = #v[0, 0] := by
    simpa only [List.mem_toArray, List.mem_cons, List.not_mem_nil, or_false, or_self] using hrow
  obtain rfl : x = 0 := by simpa using hx
  rfl

theorem finite_volumes_resting : ∀ v ∈ (#[0, 1] : Array PartialReal), Scalar.isFinite v = true := by
  simp

end Resting

section Finite

variable {l : NeighborList PartialReal} {k : Kernel PartialReal} {velocities : Table PartialReal}
  {volumes : Array PartialReal} {p : ViscosityParameters PartialReal} {result : ViscousForces PartialReal}

/-- **When forces and stresses are finite**, for each list that arises and all finite velocities and volumes
that pass the checks. Forces always are: the smoothing length and what the viscous term divides by are positive,
and pairs at the distance zero have no force. The stress of a particle is divided by its volume, about which
there is no check: its entries are finite exactly if the volume is not zero, or no pair of it has a force. -/
theorem stress_finite_iff (hl : Arises l)
    (hvelocities : ∀ row ∈ velocities.rows, ∀ x ∈ row, Scalar.isFinite x = true)
    (hvolumes : ∀ v ∈ volumes, Scalar.isFinite v = true)
    (h : viscousForces l k velocities volumes p = .ok result) :
    let f : ViscousFluid PartialReal := ⟨p, k, velocities.points, volumes⟩
    0 < k.h ∧
    (∀ q ∈ l.pairs, 0 < q.distance * q.distance + p.epsilon * p.smoothingLength * p.smoothingLength) ∧
    (∀ q ∈ l.pairs, q.distance = 0 → f.pairForce q = none) ∧
    (∀ force ∈ result.forces, force.isFinite = true) ∧
    ∀ (i : ℕ) (row : List (Pair PartialReal)), l.rows[i]? = some row → ∃ v, ∃ s : Vec3 (Vec3 PartialReal),
      volumes[i]? = some v ∧ result.stress[i]? = some s ∧
      ∀ a b, Scalar.isFinite ((s.get a).get b) = true ↔ v ≠ 0 ∨ ∀ q ∈ row, f.pairForce q = none := by
  intro f
  obtain ⟨haccepted, rfl⟩ := viscousForces_eq_ok_iff.1 h
  have hf : f.Finite := ⟨ViscosityParameters.positive_of_validate haccepted.valid,
    finite_points hvelocities, hvolumes⟩
  have hpairs : ∀ q ∈ l.pairs, q.Finite := by
    intro q hq
    obtain ⟨i, row, hrow, hq⟩ := mem_pairs_iff.1 hq
    exact hl.finite.rows row (Array.mem_of_getElem? hrow) q hq
  refine ⟨k.h_pos, fun q hq => hf.parameters.denominator_pos (hpairs q hq).distance,
    fun q _ hq => f.pairForce_of_distance hq, fun force hforce => ?_, fun i row hrow => ?_⟩
  · obtain ⟨_, hsums, rfl⟩ := Array.mem_map.1 hforce
    obtain ⟨row, hrow, rfl⟩ := Array.mem_map.1 hsums
    exact ViscousFluid.isFinite_force hf fun q hq => hl.finite.rows row hrow q hq
  · have hi : i < volumes.size := by
      rw [haccepted.volumes]
      exact (Array.getElem?_eq_some_iff.1 hrow).1
    refine ⟨volumes[i], (f.sumRow row).2, Array.getElem?_eq_getElem hi, ?_, fun a b => ?_⟩
    · simp only [Array.getElem?_map, hrow]
      rfl
    · have hvolume : ∀ q ∈ row, f.volumes.getD q.first 0 = volumes[i] := by
        intro q hq
        rw [(hl.ordered.rows.indexed i row hrow q hq).1, Array.getD_eq_getD_getElem?,
          Array.getElem?_eq_getElem hi, Option.getD_some]
      have hfinite : ∀ q ∈ row, q.Finite := hl.finite.rows row (Array.mem_of_getElem? hrow)
      rw [ViscousFluid.isFinite_stress hf hfinite]
      constructor
      · intro hall
        refine or_iff_not_imp_left.2 fun hv q hq => (hall q hq).resolve_left ?_
        rwa [hvolume q hq]
      · rintro (hv | hnone) q hq
        · left
          rwa [hvolume q hq]
        · exact .inr (hnone q hq)

/-- Of two particles at rest, one of which has no volume, the other one has finite stresses. -/
theorem stress_finite_iff_resting :
    let velocities : Table PartialReal := ⟨2, #[#v[0, 0], #v[0, 0]]⟩
    ∃ l result, ∃ s : Vec3 (Vec3 PartialReal), Arises l ∧
      (∀ row ∈ velocities.rows, ∀ x ∈ row, Scalar.isFinite x = true) ∧
      (∀ v ∈ (#[0, 1] : Array PartialReal), Scalar.isFinite v = true) ∧
      viscousForces l ⟨.lucy, 2, .two, two_pos⟩ velocities #[0, 1] ⟨1, 1, 1, 2, 0.01, false⟩ = .ok result ∧
      (∀ force ∈ result.forces, force.isFinite = true) ∧
      result.stress[1]? = some s ∧ ∀ a b, Scalar.isFinite ((s.get a).get b) = true := by
  intro velocities
  obtain ⟨l, p, q, hl, hd, hself, hrows, -, -⟩ := exists_restingPair
  have harises : Arises l := @Arises.built _ _ none _ _ _ _ _ hl
  have hforces := viscousForces_eq_ok_iff.2 ⟨accepted_restingPair hd hself hrows, rfl⟩
  obtain ⟨-, -, -, hfinite, hstress⟩ :=
    stress_finite_iff harises finite_velocities_resting finite_volumes_resting hforces
  obtain ⟨v, s, hv, hs, hiff⟩ := hstress 1 [q] (by rw [hrows]; rfl)
  obtain rfl : v = 1 := (Option.some.inj hv).symm
  exact ⟨l, _, s, harises, finite_velocities_resting, finite_volumes_resting, hforces, hfinite, hs,
    fun a b => (hiff a b).2 (.inl (by simp))⟩

/-- **The particle without a volume has no stress**, although all checks pass and all numbers are finite: the
stress of its only pair is divided by zero. -/
theorem stress_undefined_of_volume :
    let velocities : Table PartialReal := ⟨2, #[#v[0, 0], #v[0, 0]]⟩
    ∃ l result, ∃ s : Vec3 (Vec3 PartialReal),
      (direct ⟨2, false, 0⟩ ⟨2, #[#v[0, 0], #v[1, 0]]⟩ none .keepAll).result = .ok l ∧
      (∀ row ∈ velocities.rows, ∀ x ∈ row, Scalar.isFinite x = true) ∧
      (∀ v ∈ (#[0, 1] : Array PartialReal), Scalar.isFinite v = true) ∧
      viscousForces l ⟨.lucy, 2, .two, two_pos⟩ velocities #[0, 1] ⟨1, 1, 1, 2, 0.01, false⟩ = .ok result ∧
      result.stress[0]? = some s ∧ ∀ a b, (s.get a).get b = undefined := by
  intro velocities
  obtain ⟨l, p, q, hl, hd, hself, hrows, hfirst, hdistance⟩ := exists_restingPair
  have haccepted := accepted_restingPair hd hself hrows
  have hf : restingFluid.Finite := ⟨ViscosityParameters.positive_of_validate haccepted.valid,
    finite_points finite_velocities_resting, finite_volumes_resting⟩
  have hfinite : ∀ r ∈ [p], r.Finite := by
    have hlist : FiniteList l := @finite_build _ _ _ none _ _ hl
    exact hlist.rows [p] (by simp [hrows])
  have hforce : restingFluid.pairForce p ≠ none :=
    ViscousFluid.pairForce_ne_none rfl one_ne_zero hdistance
  refine ⟨l, _, (restingFluid.sumRow [p]).2, hl, finite_velocities_resting, finite_volumes_resting,
    viscousForces_eq_ok_iff.2 ⟨haccepted, rfl⟩, ?_, fun a b => eq_undefined fun h => ?_⟩
  · simp only [Array.getElem?_map, hrows]
    rfl
  · have hvolume : restingFluid.volumes.getD p.first 0 = 0 := by
      rw [hfirst]
      rfl
    rcases (ViscousFluid.isFinite_stress hf hfinite a b).1 h p (List.mem_singleton_self p) with h | h
    · exact h hvolume
    · exact hforce h

end Finite

end SmoothedParticles
