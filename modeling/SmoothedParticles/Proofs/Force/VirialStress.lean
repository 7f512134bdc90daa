import SmoothedParticles.Proofs.Force.Dissipation

/-!
# Virial stress

The stress of a particle is made of products of the vectors of its pairs and their forces. Since each force is
along its vector, the stress is a sum of multiples of squares of vectors, so it is symmetric, and it is positive
where all forces push.

* `push`, `push_nonneg`: the multiples, which are not negative if only repulsion counts.
* `get_get_sumRow`: **the stress of a particle** is a sum over its row.
* `ViscousForces.matrices`, `matrix_eq_sum`: the same for the matrix that is given out, with the axes in use.
* `Table.translate`, `sumRow_translate`: **a common velocity does not matter**.
* `scaleVolume`, `pull_scaleVolume`: **a larger particle** has a larger force, and the same stress.
* `virial_stress_laws`: all of this for the forces and stresses of a list.
-/

namespace SmoothedParticles

open NeighborList

namespace ViscousFluid

variable {f : ViscousFluid ℝ} {p : Pair ℝ} {row : List (Pair ℝ)}

/-- How strongly a pair pushes its first particle, per volume of that particle. -/
noncomputable def push (f : ViscousFluid ℝ) (p : Pair ℝ) : ℝ := -f.pull p / f.volumes.getD p.first 0

/-- **The stress of a pair** is a multiple of the square of its vector. -/
theorem get_get_pairStress (f : ViscousFluid ℝ) (p : Pair ℝ) (a b : Axis) :
    ((((f.pairForce p).map (f.pairStress p)).getD (.replicate .zero)).get a).get b =
      f.push p * (p.vector.get a * p.vector.get b) := by
  have hforce := get_pairForce f p b
  cases hp : f.pairForce p with
  | none =>
    rw [hp, Option.getD_none, Vec3.get_zero] at hforce
    rw [Option.map_none, Option.getD_none, Vec3.get_replicate, Vec3.get_zero, push, div_mul_eq_mul_div,
      neg_mul, mul_left_comm, ← hforce, mul_zero, neg_zero, zero_div]
  | some force =>
    rw [hp, Option.getD_some] at hforce
    simp only [Option.map_some, Option.getD_some, pairStress, Vec3.tensor, Vec3.get_map, Vec3.get_div,
      Vec3.get_neg, hforce, push, Scalar.zero_eq]
    ring

/-- **The stress of a particle** is the sum of the stresses of its pairs. -/
theorem get_get_sumRow (f : ViscousFluid ℝ) (row : List (Pair ℝ)) (a b : Axis) :
    ((f.sumRow row).2.get a).get b =
      (row.map fun p => f.push p * (p.vector.get a * p.vector.get b)).sum := by
  calc ((f.sumRow row).2.get a).get b
      = row.foldl (fun sum p => sum + f.push p * (p.vector.get a * p.vector.get b))
          (((Vec3.replicate Vec3.zero : Vec3 (Vec3 ℝ)).get a).get b) := by
        refine (List.foldl_hom (fun sums : Vec3 ℝ × Vec3 (Vec3 ℝ) => (sums.2.get a).get b) ?_).symm
        rintro ⟨force, stress⟩ p
        rw [← get_get_pairStress]
        cases f.pairForce p with
        | none => rw [Option.map_none, Option.getD_none, Vec3.get_replicate, Vec3.get_zero, add_zero]
        | some force =>
          rw [Option.map_some, Option.getD_some]
          exact ((congrArg (Vec3.get · b) (Vec3.get_zipWith _ stress _ a)).trans (Vec3.get_add _ _ b)).symm
    _ = (row.map fun p => f.push p * (p.vector.get a * p.vector.get b)).sum := by
        rw [Vec3.get_replicate, Vec3.get_zero, List.sum_eq_foldl, List.foldl_map]

section Sign

/-- If only repulsion counts, no pair pulls. -/
theorem pull_nonpos (hvalid : f.parameters.Valid) (hrepulsion : f.parameters.repulsionOnly = true)
    (hr : 0 ≤ p.distance) (hfirst : 0 ≤ f.volumes.getD p.first 0)
    (hsecond : 0 ≤ f.volumes.getD p.second 0) : f.pull p ≤ 0 := by
  rcases le_or_gt 0 (f.approach p) with h | h
  · rw [pull, if_pos (.inr ⟨hrepulsion, h⟩)]
  · -- the pair loses energy, and its particles approach each other
    have hloss := loss_nonneg hvalid hr hfirst hsecond
    exact le_of_not_gt fun hpull => not_lt.2 hloss (mul_neg_of_pos_of_neg hpull h)

/-- **If only repulsion counts, each pair pushes.** -/
theorem push_nonneg (hvalid : f.parameters.Valid) (hrepulsion : f.parameters.repulsionOnly = true)
    (hr : 0 ≤ p.distance) (hfirst : 0 ≤ f.volumes.getD p.first 0)
    (hsecond : 0 ≤ f.volumes.getD p.second 0) : 0 ≤ f.push p :=
  div_nonneg (neg_nonneg.2 (pull_nonpos hvalid hrepulsion hr hfirst hsecond)) hfirst

end Sign

section Changes

/-- Forces and stresses are known by what the pairs do. -/
theorem sumRow_congr {f' : ViscousFluid ℝ} (hpull : ∀ p ∈ row, f'.pull p = f.pull p)
    (hvolumes : f'.volumes = f.volumes) : f'.sumRow row = f.sumRow row := by
  refine Prod.ext (Vec3.ext_get fun a => ?_) (Vec3.ext_get fun a => Vec3.ext_get fun b => ?_)
  · rw [get_sumRow, get_sumRow]
    exact congrArg List.sum (List.map_congr_left fun p hp => by rw [hpull p hp])
  · rw [get_get_sumRow, get_get_sumRow]
    exact congrArg List.sum (List.map_congr_left fun p hp => by rw [push, push, hpull p hp, hvolumes])

/-- **A common velocity does not matter**, where all particles of the pairs have it. -/
theorem sumRow_translate (f : ViscousFluid ℝ) (u : Vec3 ℝ)
    (hrow : ∀ p ∈ row, p.first < f.velocities.size ∧ p.second < f.velocities.size) :
    sumRow { f with velocities := f.velocities.map (· + u) } row = f.sumRow row := by
  refine sumRow_congr (fun p hp => ?_) rfl
  obtain ⟨hfirst, hsecond⟩ := hrow p hp
  have happroach : approach { f with velocities := f.velocities.map (· + u) } p = f.approach p := by
    simp only [approach, Array.getD_eq_getD_getElem?, Array.getElem?_map,
      Array.getElem?_eq_getElem hfirst, Array.getElem?_eq_getElem hsecond, Option.map_some,
      Option.getD_some, Vec3.dot_eq, Vec3.get_sub, Vec3.get_add, add_sub_add_right_eq_sub]
  simp only [pull, happroach]

/-- The same fluid where one particle has another volume, by a factor. -/
noncomputable def scaleVolume (f : ViscousFluid ℝ) (i : ℕ) (c : ℝ) : ViscousFluid ℝ :=
  { f with volumes := f.volumes.modify i (c * ·) }

theorem getD_scaleVolume (f : ViscousFluid ℝ) (i : ℕ) (c : ℝ) (j : ℕ) :
    (f.scaleVolume i c).volumes.getD j 0 = (if i = j then c else 1) * f.volumes.getD j 0 := by
  rw [scaleVolume, Array.getD_eq_getD_getElem?, Array.getD_eq_getD_getElem?, Array.getElem?_modify]
  split_ifs
  · cases f.volumes[j]? with
    | none => exact (mul_zero c).symm
    | some v => rfl
  · rw [one_mul]

/-- A particle does not approach its own images. -/
theorem approach_self (hp : p.first = p.second) : f.approach p = 0 := by
  simp only [approach, hp, Vec3.dot_eq, Vec3.get_sub, sub_self, zero_mul, add_zero]

theorem pull_of_approach (h : f.approach p = 0) : f.pull p = 0 := by
  rw [pull, h, ViscosityParameters.pressure, mul_zero, zero_div, mul_zero, zero_mul, zero_div, ite_self]

/-- **A larger particle is pulled more strongly.** Its own images, which are larger too, do not pull it. -/
theorem pull_scaleVolume (f : ViscousFluid ℝ) (c : ℝ) (p : Pair ℝ) :
    (f.scaleVolume p.first c).pull p = c * f.pull p := by
  have happroach : (f.scaleVolume p.first c).approach p = f.approach p := rfl
  by_cases hself : p.first = p.second
  · rw [pull_of_approach (happroach.trans (approach_self hself)), pull_of_approach (approach_self hself),
      mul_zero]
  · rw [pull, pull, happroach, getD_scaleVolume, getD_scaleVolume, if_pos rfl, if_neg hself, one_mul,
      mul_ite, mul_zero]
    congr 1
    show _ * f.parameters.pressure (f.approach p) p.distance * f.kernel.derivative p.distance / _ = _
    ring

theorem push_scaleVolume {c : ℝ} (hc : c ≠ 0) (p : Pair ℝ) :
    (f.scaleVolume p.first c).push p = f.push p := by
  rw [push, push, pull_scaleVolume, getD_scaleVolume, if_pos rfl, ← mul_neg, mul_div_mul_left _ _ hc]

/-- **A larger particle has a larger force, and the same stress.** -/
theorem sumRow_scaleVolume {c : ℝ} (hc : c ≠ 0) {i : ℕ} (hrow : ∀ p ∈ row, p.first = i) :
    (f.scaleVolume i c).sumRow row = (c * (f.sumRow row).1, (f.sumRow row).2) := by
  refine Prod.ext (Vec3.ext_get fun a => ?_) (Vec3.ext_get fun a => Vec3.ext_get fun b => ?_)
  · rw [get_sumRow, Vec3.get_smul, get_sumRow, mul_comm, ← List.sum_map_mul_left]
    refine congrArg List.sum (List.map_congr_left fun p hp => ?_)
    rw [← hrow p hp, pull_scaleVolume, mul_assoc]
  · rw [get_get_sumRow, get_get_sumRow]
    refine congrArg List.sum (List.map_congr_left fun p hp => ?_)
    rw [← hrow p hp, push_scaleVolume hc]

end Changes

end ViscousFluid

section Matrices

variable {n : ℕ} {d : Dimension}

/-- Rows of numbers as a matrix. -/
def asMatrix (m : Vector (Vector ℝ n) n) : Matrix (Fin n) (Fin n) ℝ := .of fun i j => (m.get i).get j

/-- The components of a vector along the axes in use. -/
def components (d : Dimension) (v : Vec3 ℝ) (i : Fin d.axes.length) : ℝ := v.get d.axes[i]

/-- **The stresses that are given out**, as matrices with the axes in use. -/
def ViscousForces.matrices (r : ViscousForces ℝ) :
    Array (Matrix (Fin r.dimension.axes.length) (Fin r.dimension.axes.length) ℝ) :=
  (Tensors.ofMatrices r.dimension r.stress).items.map asMatrix

theorem ViscousForces.exists_of_mem_matrices {r : ViscousForces ℝ}
    {m : Matrix (Fin r.dimension.axes.length) (Fin r.dimension.axes.length) ℝ} (h : m ∈ r.matrices) :
    ∃ s ∈ r.stress, ∀ i j, m i j = (s.get r.dimension.axes[i]).get r.dimension.axes[j] := by
  obtain ⟨_, hitem, rfl⟩ := Array.mem_map.1 h
  obtain ⟨s, hs, rfl⟩ := Array.mem_map.1 hitem
  refine ⟨s, hs, fun i j => ?_⟩
  simp [asMatrix, Vector.get_eq_getElem, Vec3.values]

theorem isSymm_sum_map (row : List (Pair ℝ)) (c : Pair ℝ → ℝ) (v : Pair ℝ → Fin n → ℝ) :
    (row.map fun p => c p • Matrix.vecMulVec (v p) (v p)).sum.IsSymm := by
  induction row with
  | nil => exact Matrix.isSymm_zero
  | cons p row ih =>
    rw [List.map_cons, List.sum_cons]
    exact Matrix.IsSymm.add (Matrix.IsSymm.smul (Matrix.transpose_vecMulVec _ _) _) ih

theorem posSemidef_sum_map {row : List (Pair ℝ)} {c : Pair ℝ → ℝ} {v : Pair ℝ → Fin n → ℝ}
    (hc : ∀ p ∈ row, 0 ≤ c p) :
    (row.map fun p => c p • Matrix.vecMulVec (v p) (v p)).sum.PosSemidef := by
  induction row with
  | nil => exact .zero
  | cons p row ih =>
    obtain ⟨hp, hrow⟩ := List.forall_mem_cons.1 hc
    rw [List.map_cons, List.sum_cons]
    exact ((Matrix.posSemidef_vecMulVec_self_star (v p)).smul hp).add (ih hrow)

/-- **The stress of a particle as a matrix** is a sum of multiples of squares of vectors. -/
theorem matrix_eq_sum {f : ViscousFluid ℝ} {row : List (Pair ℝ)}
    {m : Matrix (Fin d.axes.length) (Fin d.axes.length) ℝ}
    (h : ∀ i j, m i j = ((f.sumRow row).2.get d.axes[i]).get d.axes[j]) :
    m = (row.map fun p =>
      f.push p • Matrix.vecMulVec (components d p.vector) (components d p.vector)).sum := by
  ext i j
  rw [h, ViscousFluid.get_get_sumRow]
  refine Eq.trans ?_ (map_list_sum (Matrix.entryAddMonoidHom ℝ i j) _).symm
  rw [List.map_map]
  rfl

end Matrices

section Velocities

/-- A table with the same row added to each row. -/
noncomputable def Table.translate (t : Table ℝ) (u : Vector ℝ t.columns) : Table ℝ :=
  ⟨t.columns, t.rows.map fun r => r.zipWith (· + ·) u⟩

theorem Table.shape_translate (t : Table ℝ) (u : Vector ℝ t.columns) :
    (t.translate u).shape = t.shape := by
  simp only [shape, size, translate, Array.size_map]

theorem ofList_zipWith_add {n : ℕ} (u v : Vector ℝ n) :
    Vec3.ofList 0 (u.zipWith (· + ·) v).toList = Vec3.ofList 0 u.toList + Vec3.ofList 0 v.toList := by
  have hget : ∀ i, (u.zipWith (· + ·) v).toList.getD i 0 = u.toList.getD i 0 + v.toList.getD i 0 := by
    intro i
    simp only [List.getD_eq_getElem?_getD, Vector.getElem?_toList, Vector.getElem?_zipWith]
    by_cases hi : i < n
    · rw [Vector.getElem?_eq_getElem hi, Vector.getElem?_eq_getElem hi]
      rfl
    · rw [Vector.getElem?_eq_none (not_lt.1 hi), Vector.getElem?_eq_none (not_lt.1 hi)]
      exact (add_zero 0).symm
  refine Vec3.ext_get fun a => ?_
  rw [Vec3.get_add]
  cases a with
  | x => exact hget 0
  | y => exact hget 1
  | z => exact hget 2

theorem Table.points_translate (t : Table ℝ) (u : Vector ℝ t.columns) :
    (t.translate u).points = t.points.map (· + Vec3.ofList 0 u.toList) := by
  simp only [points, translate, Array.map_map, Scalar.zero_eq]
  exact congrArg (t.rows.map ·) (funext fun r => ofList_zipWith_add r u)

end Velocities

section Laws

variable {l : NeighborList ℝ} {k : Kernel ℝ} {velocities : Table ℝ} {volumes : Array ℝ}
  {p : ViscosityParameters ℝ} {result : ViscousForces ℝ}

/-- The matrices that are given out are the stresses of the rows. -/
theorem exists_row_of_matrix (h : viscousForces l k velocities volumes p = .ok result)
    {m : Matrix (Fin result.dimension.axes.length) (Fin result.dimension.axes.length) ℝ}
    (hm : m ∈ result.matrices) :
    ∃ row ∈ l.rows, m = (row.map fun q =>
      ViscousFluid.push ⟨p, k, velocities.points, volumes⟩ q •
        Matrix.vecMulVec (components result.dimension q.vector)
          (components result.dimension q.vector)).sum := by
  obtain ⟨s, hs, hentries⟩ := result.exists_of_mem_matrices hm
  obtain ⟨-, hresult⟩ := viscousForces_ok_iff.1 h
  rw [hresult] at hs
  obtain ⟨_, hsums, rfl⟩ := Array.mem_map.1 hs
  obtain ⟨row, hrow, rfl⟩ := Array.mem_map.1 hsums
  exact ⟨row, hrow, matrix_eq_sum hentries⟩

/-- The particles of the pairs of a self list exist. -/
theorem lt_of_self (hl : Sound l) (hself : l.isSelf = true) {row : List (Pair ℝ)} (hrow : row ∈ l.rows)
    {q : Pair ℝ} (hq : q ∈ row) : q.first < l.nQuery ∧ q.second < l.nQuery := by
  obtain ⟨i, hi⟩ := Array.getElem?_of_mem hrow
  obtain ⟨hfirst, hsecond, -, -⟩ := hl.rows.indexed i row hi q hq
  have hnone : l.points.reference? = none := Option.isNone_iff_eq_none.1 hself
  rw [PointSets.reference_of_none hnone, ← hl.rows.size] at hsecond
  rw [hfirst]
  exact ⟨(Array.getElem?_eq_some_iff.1 hi).1, hsecond⟩

/-- **Laws of the virial stress**, for each self list with the invariant of lists. The volumes are not zero,
since stresses are divided by them. Each stress is a symmetric matrix; if only repulsion counts and volumes are
positive, it is positive semidefinite. A velocity that all particles have changes neither forces nor stresses. A
particle with another volume, by a factor, has a force that is as many times larger, and the same stress. -/
theorem virial_stress_laws (hl : Sound l) (h : viscousForces l k velocities volumes p = .ok result) :
    (∀ v ∈ volumes, v ≠ 0) →
    (∀ m ∈ result.matrices, m.IsSymm) ∧
    (p.repulsionOnly = true → (∀ v ∈ volumes, 0 < v) → ∀ m ∈ result.matrices, m.PosSemidef) ∧
    (∀ u, viscousForces l k (velocities.translate u) volumes p = .ok result) ∧
    ∀ i c, c ≠ 0 → ∃ scaled, viscousForces l k velocities (volumes.modify i (c * ·)) p = .ok scaled ∧
      scaled.forces[i]? = result.forces[i]?.map (fun force : Vec3 ℝ => c * force) ∧
      scaled.stress[i]? = result.stress[i]? := by
  intro _
  obtain ⟨hfits, hresult⟩ := viscousForces_ok_iff.1 h
  let f : ViscousFluid ℝ := ⟨p, k, velocities.points, volumes⟩
  have hsize : f.velocities.size = l.nQuery := by
    rw [Table.size_points]
    exact congrArg Prod.fst hfits.velocities
  refine ⟨fun m hm => ?_, fun hrepulsion hpositive m hm => ?_, fun u => ?_, fun i c hc => ?_⟩
  · obtain ⟨row, -, rfl⟩ := exists_row_of_matrix h hm
    exact isSymm_sum_map row _ _
  · obtain ⟨row, hrow, rfl⟩ := exists_row_of_matrix h hm
    exact posSemidef_sum_map fun q hq => ViscousFluid.push_nonneg hfits.valid hrepulsion
      (hl.distance_nonneg hrow hq) (volume_nonneg hpositive _) (volume_nonneg hpositive _)
  · have hfits' : FluidFits l k (velocities.translate u) volumes p :=
      { hfits with velocities := (velocities.shape_translate u).trans hfits.velocities }
    have hrows : l.rows.map (ViscousFluid.sumRow ⟨p, k, (velocities.translate u).points, volumes⟩) =
        l.rows.map f.sumRow := by
      rw [Table.points_translate]
      refine Array.map_congr_left fun row hrow => f.sumRow_translate _ fun q hq => ?_
      rw [hsize]
      exact lt_of_self hl hfits.isSelf hrow hq
    rw [viscousForces_ok_iff, hrows]
    exact ⟨hfits', hresult⟩
  · have hfits' : FluidFits l k velocities (volumes.modify i (c * ·)) p :=
      { hfits with volumes := Array.size_modify.trans hfits.volumes }
    refine ⟨_, viscousForces_ok_iff.2 ⟨hfits', rfl⟩, ?_⟩
    rw [hresult]
    simp only [Array.getElem?_map]
    cases hrow : l.rows[i]? with
    | none => exact ⟨rfl, rfl⟩
    | some row =>
      have hscaled := ViscousFluid.sumRow_scaleVolume (f := f) hc fun q hq =>
        (hl.rows.indexed i row hrow q hq).first
      obtain ⟨hforce, hstress⟩ := Prod.ext_iff.1 hscaled
      exact ⟨congrArg some hforce, congrArg some hstress⟩

/-- Two particles that approach each other feel a pressure, also if both of them are carried along by a common
velocity. If the first one has a volume below zero, the force on it is turned around, and its stress is not. -/
theorem virial_stress_laws_approaching :
    let t : Table ℝ := ⟨2, #[#v[0, 0], #v[1, 0]]⟩
    let k : Kernel ℝ := ⟨.cubicSpline, 2, .two, Scalar.zero_eq.trans_lt two_pos⟩
    let p : ViscosityParameters ℝ := ⟨1, 1, 1, 2, 1, true⟩
    ∃ l result scaled, (direct ⟨2, false, 0⟩ t none .keepAll).result = .ok l ∧ Sound l ∧
      (∀ v ∈ (#[1, 1] : Array ℝ), v ≠ 0) ∧
      viscousForces l k ⟨2, #[#v[1, 0], #v[0, 0]]⟩ #[1, 1] p = .ok result ∧
      viscousForces l k ⟨2, #[#v[6, 7], #v[5, 7]]⟩ #[1, 1] p = .ok result ∧
      (∀ m ∈ result.matrices, m.PosSemidef) ∧
      (∃ s, result.stress[0]? = some s ∧ 0 < (s.get .x).get .x) ∧
      viscousForces l k ⟨2, #[#v[1, 0], #v[0, 0]]⟩ #[-3, 1] p = .ok scaled ∧
      scaled.stress[0]? = result.stress[0]? := by
  intro t k p
  have hvalid : p.Valid := ⟨one_pos, one_pos, two_pos, one_pos, zero_le_one⟩
  obtain ⟨l, hl, hd, hself, hrows⟩ := exists_unitPair
  have hsound := (SelfPart.whole hl).reachable.sound
  have hforces := viscousForces_ok_iff.2 ⟨fluidFits_unitPair hrows hd hself hvalid (k := k) rfl rfl, rfl⟩
  have hvolumes : ∀ v ∈ (#[1, 1] : Array ℝ), v ≠ 0 := by simp
  obtain ⟨-, hpositive, htranslate, hscale⟩ := virial_stress_laws hsound hforces hvolumes
  obtain ⟨scaled, hscaled, -, hstress⟩ := hscale 0 (-3) (by norm_num)
  have hmoved : Table.translate ⟨2, #[#v[1, 0], #v[0, 0]]⟩ #v[5, 7] = ⟨2, #[#v[6, 7], #v[5, 7]]⟩ := by
    simp [Table.translate]
    norm_num
  have hsmaller : (#[1, 1] : Array ℝ).modify 0 (-3 * ·) = #[-3, 1] := by simp
  rw [hsmaller] at hscaled
  refine ⟨l, _, scaled, hl, hsound, hvolumes, hforces, hmoved ▸ htranslate #v[5, 7],
    hpositive rfl (by simp), ⟨((approachingFluid k p).sumRow [unitPair]).2, ?_, ?_⟩, hscaled, hstress⟩
  · simp only [Array.getElem?_map, hrows]
    rfl
  · have hpull : (approachingFluid k p).pull unitPair < 0 := pull_unitPair hvalid one_pos one_lt_two
    have hvector : unitPair.vector.get .x = 1 := sub_zero 1
    rw [ViscousFluid.get_get_sumRow, List.map_singleton, List.sum_singleton, hvector, mul_one, mul_one]
    exact div_pos (neg_pos.2 hpull) one_pos

end Laws

end SmoothedParticles
