import SmoothedParticles.Proofs.Force.Momentum
import SmoothedParticles.Proofs.Pairs.NearPairs
import SmoothedParticles.Proofs.Smoothing.Interpolations

/-!
# Far samples do not matter

A kernel has neither weight nor slope from its support on, so that pairs beyond the support add nothing to
sums. Lists that agree within the support give the same means and the same viscous forces, although their rows
may have different lengths. A row may even be empty in one list only: the mean is missing with both lists
then, in one because there are no samples, in the other because there are no weights. A sum without
normalization tells the two apart.

* `sum_map_near`: pairs beyond a distance that add nothing to a sum.
* `totalWeight_near`, `weightedSum_near`, `interpolateRow_near`: **far samples in a row**.
* `interpolate_near`, `exists_sums_near`: interpolations over lists that agree within the support.
* `pull_of_le`, `sumRow_near`, `viscousForces_near`: **far particles** feel no force.
* `far_samples_never_matter`: **lists that agree within the support give the same results**.
-/

namespace SmoothedParticles

open NeighborList

variable {k : Kernel ℝ} {l l' : NeighborList ℝ} {p : Pair ℝ} {row : List (Pair ℝ)} {c : ℝ}

/-- Pairs beyond a distance can be left out if they add nothing. -/
theorem sum_map_near {g : Pair ℝ → ℝ} (hg : ∀ p : Pair ℝ, c ≤ p.distance → g p = 0) :
    ((row.filter fun p => p.distance < c).map g).sum = (row.map g).sum := by
  have hfar : ((row.filter fun p => ¬p.distance < c).map g).sum = 0 := by
    refine List.sum_eq_zero fun x hx => ?_
    obtain ⟨p, hp, rfl⟩ := List.mem_map.1 hx
    exact hg p (not_lt.1 (of_decide_eq_true (List.mem_filter.1 hp).2))
  have hsplit := List.sum_map_filter_add_sum_map_filter_not (fun p => p.distance < c) g row
  rwa [hfar, add_zero] at hsplit

namespace Interpolator

variable {it : Interpolator ℝ} {volumes : Array ℝ} {n : ℕ} {values : Array (Vector ℝ n)}

theorem weight_of_le (hp : it.kernel.h ≤ p.distance) : it.weight volumes p = 0 := by
  rw [weight, Kernel.value_of_le hp, zero_mul]

theorem totalWeight_near (it : Interpolator ℝ) (volumes : Array ℝ) (row : List (Pair ℝ)) :
    it.totalWeight volumes (row.filter fun p => p.distance < it.kernel.h) = it.totalWeight volumes row :=
  sum_map_near fun _ => weight_of_le

theorem weightedSum_near (it : Interpolator ℝ) (values : Array (Vector ℝ n)) (volumes : Array ℝ)
    (row : List (Pair ℝ)) : it.weightedSum values volumes (row.filter fun p => p.distance < it.kernel.h) =
      it.weightedSum values volumes row := by
  refine Vector.ext fun j hj => ?_
  rw [getElem_weightedSum, getElem_weightedSum]
  exact sum_map_near fun p hp => by rw [weight_of_le hp, zero_mul]

/-- **Means do not depend on far samples**, and neither does whether they are missing: without near samples
there are no weights. -/
theorem interpolateRow_near :
    interpolateRow ⟨k, .shepard⟩ values volumes (row.filter fun p => p.distance < k.h) =
      interpolateRow ⟨k, .shepard⟩ values volumes row := by
  have htotal := totalWeight_near ⟨k, .shepard⟩ volumes row
  have hsum := weightedSum_near ⟨k, .shepard⟩ values volumes row
  rw [interpolateRow_shepard, interpolateRow_shepard, htotal, hsum]

section Lists

variable {values : Table ℝ}

theorem checks_near (it : Interpolator ℝ) (h : AgreeWithin c l l') (nValues nVolumes : ℕ) :
    it.checks l' nValues nVolumes = it.checks l nValues nVolumes := by
  refine it.checks_congr l h.dimension ?_
  rw [nReference, nReference, h.points]

/-- **Means with lists that agree within the support.** -/
theorem interpolate_near (h : AgreeWithin k.h l l') :
    (interpolate ⟨k, .shepard⟩ l' values volumes).result =
      (interpolate ⟨k, .shepard⟩ l values volumes).result := by
  rw [result_interpolate, result_interpolate, checks_near _ h,
    h.map_rows_eq fun row => interpolateRow_near]

/-- **Sums do not depend on far samples** at a query point that has samples in both lists. -/
theorem interpolateRow_sum_near {n i : ℕ} {values : Array (Vector ℝ n)} {row' : List (Pair ℝ)}
    (h : AgreeWithin k.h l l') (hrow : l.rows[i]? = some row) (hrow' : l'.rows[i]? = some row')
    (hne : row ≠ []) (hne' : row' ≠ []) :
    interpolateRow ⟨k, .sum⟩ values volumes row' = interpolateRow ⟨k, .sum⟩ values volumes row := by
  have hsum := weightedSum_near ⟨k, .sum⟩ values volumes
  rw [interpolateRow_sum, interpolateRow_sum, if_neg hne, if_neg hne', ← hsum row, ← hsum row']
  exact congrArg (fun row => some (weightedSum ⟨k, .sum⟩ values volumes row)) (h.row hrow hrow')

/-- **Sums with lists that agree within the support**: both fail the same checks, or none. -/
theorem exists_sums_near (h : AgreeWithin k.h l l') :
    ∃ (checked : Except (Error ℝ) Unit) (rows rows' : Array (Option (Vector ℝ values.columns))),
      (interpolate ⟨k, .sum⟩ l values volumes).result = checked.map (fun _ => ⟨values.columns, rows⟩) ∧
      (interpolate ⟨k, .sum⟩ l' values volumes).result = checked.map (fun _ => ⟨values.columns, rows'⟩) ∧
      ∀ (i : ℕ) row row', l.rows[i]? = some row → l'.rows[i]? = some row' → row ≠ [] → row' ≠ [] →
        rows'[i]? = rows[i]? := by
  refine ⟨_, _, l'.rows.map (interpolateRow ⟨k, .sum⟩ values.rows volumes), result_interpolate _ _ _ _, ?_,
    fun i row row' hrow hrow' hne hne' => ?_⟩
  · rw [result_interpolate, checks_near _ h]
  · rw [Array.getElem?_map, Array.getElem?_map, hrow, hrow', Option.map_some, Option.map_some,
      interpolateRow_sum_near h hrow hrow' hne hne']

end Lists

end Interpolator

namespace ViscousFluid

variable {f : ViscousFluid ℝ}

/-- **Particles beyond the support do not pull.** -/
theorem pull_of_le (hp : f.kernel.h ≤ p.distance) : f.pull p = 0 := by
  rw [pull, Kernel.derivative_of_le hp, mul_zero, zero_div, ite_self]

theorem eq_zero_of_pairForce {v : Vec3 ℝ} (hp : f.kernel.h ≤ p.distance) (h : f.pairForce p = some v) :
    v = .zero := by
  refine Vec3.ext_get fun a => ?_
  have hget := get_pairForce f p a
  rwa [h, Option.getD_some, pull_of_le hp, zero_mul, ← Vec3.get_zero a] at hget

/-- No force makes no stress. -/
theorem addMatrix_pairStress_zero (f : ViscousFluid ℝ) (p : Pair ℝ) (stress : Vec3 (Vec3 ℝ)) :
    addMatrix stress (f.pairStress p .zero) = stress := by
  refine Vec3.ext_get fun a => Vec3.ext_get fun b => ?_
  rw [addMatrix, pairStress, Vec3.tensor, Vec3.get_zipWith, Vec3.get_map, Vec3.get_map, Vec3.get_add,
    Vec3.get_div, Vec3.get_map, Vec3.get_zero, mul_zero, zero_div, add_zero]

/-- **Forces and stresses do not depend on far particles.** -/
theorem sumRow_near (f : ViscousFluid ℝ) (row : List (Pair ℝ)) :
    f.sumRow (row.filter fun p => p.distance < f.kernel.h) = f.sumRow row := by
  unfold sumRow
  rw [List.foldl_filter]
  congr 1
  funext ⟨force, stress⟩ p
  split_ifs with hp
  · rfl
  · have hfar : f.kernel.h ≤ p.distance := not_lt.1 fun h => hp (decide_eq_true h)
    cases hforce : f.pairForce p with
    | none => rfl
    | some pairForce =>
      obtain rfl := eq_zero_of_pairForce hfar hforce
      refine Prod.ext (Vec3.ext_get fun a => ?_) (addMatrix_pairStress_zero f p stress).symm
      show force.get a = (force + .zero).get a
      rw [Vec3.get_add, Vec3.get_zero, add_zero]

end ViscousFluid

section Results

variable {velocities : Table ℝ} {volumes : Array ℝ} {q : ViscosityParameters ℝ}

/-- **The particles of a list** are checked for their number and dimension, and not for their pairs. -/
theorem checkFluid_near (h : AgreeWithin c l l') :
    checkFluid l' k velocities volumes q = checkFluid l k velocities volumes q := by
  unfold checkFluid isSelf
  rw [h.points, h.dimension, h.nQuery]

/-- **Viscous forces with lists that agree within the support.** -/
theorem viscousForces_near (h : AgreeWithin k.h l l') :
    viscousForces l' k velocities volumes q = viscousForces l k velocities volumes q := by
  unfold viscousForces
  rw [checkFluid_near h]
  cases hfluid : checkFluid l k velocities volumes q with
  | error e => rfl
  | ok f =>
    obtain ⟨-, rfl⟩ := checkFluid_ok_iff.1 hfluid
    have hrows := h.map_rows_eq (ViscousFluid.sumRow_near ⟨q, k, velocities.points, volumes⟩)
    show Except.ok _ = Except.ok _
    rw [hrows, h.dimension]

/-- **Samples beyond the support of a kernel never matter.** Two lists over the same points agree within the
support if one of them is the other one without pairs that are at least that far apart, for example if both are
built with cutoffs that are not shorter than the support. Then means are the same at each query point, missing
ones included, sums are the same at each query point that has samples in both lists, and so are viscous forces
and stresses. The volumes in stresses are not zero, since stresses are divided by them. -/
theorem far_samples_never_matter (k : Kernel ℝ) (l l' : NeighborList ℝ) :
    (∀ keep : Pair ℝ → Bool, l'.dimension = l.dimension → l'.points = l.points →
      l'.rows = l.rows.map (·.filter keep) → (∀ p ∈ l.pairs, keep p = false → k.h ≤ p.distance) →
      AgreeWithin k.h l l') ∧
    (∀ box? o o' query reference? f, k.h ≤ o.cutoff → k.h ≤ o'.cutoff → o.selfPairs = o'.selfPairs →
      (build box? o query reference? f).result = .ok l →
      (build box? o' query reference? f).result = .ok l' → AgreeWithin k.h l l') ∧
    (AgreeWithin k.h l l' →
      (∀ (values : Table ℝ) (volumes : Array ℝ),
        (Interpolator.interpolate ⟨k, .shepard⟩ l' values volumes).result =
          (Interpolator.interpolate ⟨k, .shepard⟩ l values volumes).result ∧
        ∃ (checked : Except (Error ℝ) Unit) (rows rows' : Array (Option (Vector ℝ values.columns))),
          (Interpolator.interpolate ⟨k, .sum⟩ l values volumes).result =
            checked.map (fun _ => ⟨values.columns, rows⟩) ∧
          (Interpolator.interpolate ⟨k, .sum⟩ l' values volumes).result =
            checked.map (fun _ => ⟨values.columns, rows'⟩) ∧
          ∀ (i : ℕ) row row', l.rows[i]? = some row → l'.rows[i]? = some row' → row ≠ [] → row' ≠ [] →
            rows'[i]? = rows[i]?) ∧
      ∀ (velocities : Table ℝ) (volumes : Array ℝ) (q : ViscosityParameters ℝ), (∀ v ∈ volumes, v ≠ 0) →
        viscousForces l' k velocities volumes q = viscousForces l k velocities volumes q) := by
  refine ⟨fun keep => agreeWithin_of_filter, fun box? o o' query reference? f => agreeWithin_build,
    fun h => ⟨fun values volumes => ⟨Interpolator.interpolate_near h, Interpolator.exists_sums_near h⟩, ?_⟩⟩
  intro velocities volumes q _
  exact viscousForces_near h

/-- Two particles at a distance that is just the support of the kernel. A list with this cutoff has empty rows,
and one with a longer cutoff does not. -/
theorem far_samples_never_matter_touching :
    let k : Kernel ℝ := ⟨.cubicSpline, 1, .two, Scalar.zero_eq.trans_lt one_pos⟩
    let t : Table ℝ := ⟨2, #[#v[0, 0], #v[1, 0]]⟩
    let values : Table ℝ := ⟨1, #[#v[3], #v[4]]⟩
    let velocities : Table ℝ := ⟨2, #[#v[1, 0], #v[0, 0]]⟩
    let q : ViscosityParameters ℝ := ⟨1, 1, 1, 1, 1, true⟩
    ∃ l l', (direct ⟨1, false, 0⟩ t none .keepAll).result = .ok l ∧
      (direct ⟨2, false, 0⟩ t none .keepAll).result = .ok l' ∧ AgreeWithin k.h l l' ∧
      l.rows = #[[], []] ∧ l'.rows = #[[unitPair], [unitPair.flip]] ∧
      (Interpolator.interpolate ⟨k, .shepard⟩ l values #[1, 1]).result = .ok ⟨1, #[none, none]⟩ ∧
      (Interpolator.interpolate ⟨k, .shepard⟩ l' values #[1, 1]).result = .ok ⟨1, #[none, none]⟩ ∧
      ∃ forces, viscousForces l k velocities #[1, 1] q = .ok forces ∧
        viscousForces l' k velocities #[1, 1] q = .ok forces := by
  intro k t values velocities q
  have hq : q.Valid := ⟨one_pos, one_pos, one_pos, one_pos, zero_le_one⟩
  obtain ⟨l, hl, hd, hpoints⟩ := exists_direct_self (o := ⟨1, false, 0⟩) (t := t) ⟨one_pos, le_rfl⟩ rfl
  obtain ⟨l', hl', hd', hself', hrows'⟩ := exists_unitPair
  obtain ⟨-, hcutoffs, hresults⟩ := far_samples_never_matter k l l'
  have h := hcutoffs none ⟨1, false, 0⟩ ⟨2, false, 0⟩ t none .keepAll le_rfl one_le_two rfl hl hl'
  obtain ⟨hinterpolate, hforces⟩ := hresults h
  have hrows : l.rows = #[[], []] := by
    have hnear : within 1 l.rows = l.rows := @within_rows none _ _ _ _ _ hl
    rw [← hnear, ← show within 1 l'.rows = within 1 l.rows from h.rows, hrows', within]
    simp [Pair.flip, distance_unitPair]
  have hsize : l.nReference = 2 := by
    rw [nReference, hpoints]
    exact Table.size_points t
  have hmissing : (Interpolator.interpolate ⟨k, .shepard⟩ l values #[1, 1]).result =
      .ok ⟨1, #[none, none]⟩ := by
    have hchecks : Interpolator.checks ⟨k, .shepard⟩ l values.rows.size (#[1, 1] : Array ℝ).size = .ok () :=
      (Interpolator.checks_ok_iff _ l).2 ⟨hd, hsize.symm, hsize.symm⟩
    rw [Interpolator.result_interpolate, hchecks, hrows]
    simp only [List.map_toArray]
    rfl
  have hmeans := (hinterpolate values #[1, 1]).1
  have hfits : FluidFits l' k velocities #[1, 1] q := fluidFits_unitPair hrows' hd' hself' hq rfl rfl
  have hok := viscousForces_ok_iff.2 ⟨hfits, rfl⟩
  refine ⟨l, l', hl, hl', h, hrows, hrows', hmissing, hmeans.trans hmissing, _, ?_, hok⟩
  rw [← hforces velocities #[1, 1] q (by simp)]
  exact hok

end Results

end SmoothedParticles
