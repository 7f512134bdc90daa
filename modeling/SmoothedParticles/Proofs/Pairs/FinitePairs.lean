import SmoothedParticles.Proofs.Exact.PartialReals
import SmoothedParticles.Proofs.Pairs.UpdateFailures

/-!
# The pairs of a list are finite

In arithmetic with undefined values, every pair of a list that arises has a vector and a distance: a pair is
kept only if its distance is less than a cutoff, and this holds of no undefined value.

* `Pair.Finite`: the vector and the distance of a pair are real numbers.
* `finite_of_run`, `finite_of_revalidatePair`: the pairs that a search finds, and those that an update keeps.
* `Arises.finite`: **the pairs of every list that arises are finite**.
-/

namespace SmoothedParticles

open PartialReal

/-- Are the vector and the distance of a pair real numbers? -/
structure Pair.Finite (p : Pair PartialReal) : Prop where
  distance : Scalar.isFinite p.distance = true
  vector : p.vector.isFinite = true

/-- **A point that is found** is at a finite distance. -/
theorem Search.finite_of_hit {s : Search PartialReal} {i j : ℕ} {p q : Vec3 PartialReal}
    {hit : Hit PartialReal} (h : s.hit? i p j q = some hit) :
    Scalar.isFinite hit.distance = true ∧ hit.vector.isFinite = true := by
  unfold hit? at h
  split at h
  · obtain ⟨-, h⟩ := Option.ite_none_right_eq_some.1 h
    obtain rfl := Option.some.inj h
    exact ⟨rfl, rfl⟩
  · obtain ⟨⟨hnear, -⟩, h⟩ := Option.ite_none_right_eq_some.1 h
    obtain rfl := Option.some.inj h
    have hvector := isFinite_norm2.1 (isFinite_of_lt hnear).1
    exact ⟨isFinite_norm.2 hvector, hvector⟩

theorem Search.finite_of_run {s : Search PartialReal} {d : Dimension} {query : Array (Vec3 PartialReal)}
    {hits : Array (List (Hit PartialReal))} (h : s.run d query = .ok hits)
    {row : List (Hit PartialReal)} (hrow : row ∈ hits) {hit : Hit PartialReal} (hhit : hit ∈ row) :
    Scalar.isFinite hit.distance = true ∧ hit.vector.isFinite = true := by
  obtain ⟨_, _, _, _, -, hhit⟩ := exists_hit_of_run h hrow hhit
  exact finite_of_hit hhit

namespace NeighborList

variable {l : NeighborList PartialReal} {o : SearchOptions PartialReal} {f : PairFilter} {d : Dimension}
  {points : PointSets PartialReal} {box? : Option (Box PartialReal)} {query : Table PartialReal}
  {reference? : Option (Table PartialReal)} {rows : Array (List (Pair PartialReal))}

/-- Are all pairs of some rows finite? -/
def FiniteRows (rows : Array (List (Pair PartialReal))) : Prop := ∀ row ∈ rows, ∀ p ∈ row, p.Finite

theorem FiniteRows.filter (h : FiniteRows rows) (keep : Pair PartialReal → Bool) :
    FiniteRows (rows.map (·.filter keep)) := by
  intro row hrow p hp
  obtain ⟨old, hold, rfl⟩ := Array.mem_map.1 hrow
  exact h old hold p (List.mem_of_mem_filter hp)

/-- **A pair that is computed again** is finite. -/
theorem finite_of_revalidatePair {new : PointSets PartialReal} {p q : Pair PartialReal}
    (h : l.revalidatePair new p = some q) : q.Finite := by
  obtain ⟨hnear, h⟩ := Option.ite_none_right_eq_some.1 h
  obtain rfl := Option.some.inj h
  have hnorm := (isFinite_of_lt hnear).1
  exact ⟨hnorm, isFinite_norm.1 hnorm⟩

/-- The pairs of a list are finite, and so are those that it keeps in reserve. -/
structure FiniteList (l : NeighborList PartialReal) : Prop where
  rows : FiniteRows l.rows
  reserve : ∀ full ∈ l.reserve?, FiniteRows full.rows

theorem finite_ofRows (h : FiniteRows rows) : FiniteList (ofRows o f d points box? rows) := by
  unfold ofRows
  split_ifs
  · exact ⟨h.filter _, fun full hfull => Option.some.inj hfull ▸ h⟩
  · exact ⟨h, forall_mem_none⟩

theorem finite_build (h : (build box? o query reference? f).result = .ok l) : FiniteList l := by
  cases box? with
  | none =>
    obtain ⟨-, d, points, hits, -, -, hhits, rfl⟩ := direct_eq_ok_iff.1 h
    refine finite_ofRows fun row hrow p hp => ?_
    obtain ⟨i, hi, rfl⟩ := Array.mem_mapIdx.1 hrow
    obtain ⟨hit, hhit, rfl⟩ := List.mem_map.1 hp
    obtain ⟨hdistance, hvector⟩ := Search.finite_of_run hhits (Array.getElem_mem hi) hhit
    exact ⟨hdistance, hvector⟩
  | some box =>
    obtain ⟨-, -, -, -, -, points, images, hits, -, -, -, -, hhits, rfl⟩ := periodic_eq_ok_iff.1 h
    refine finite_ofRows fun row hrow p hp => ?_
    obtain ⟨i, hi, rfl⟩ := Array.mem_mapIdx.1 hrow
    obtain ⟨hit, hhit, rfl⟩ := List.mem_map.1 (List.mem_mergeSort.1 hp)
    obtain ⟨hdistance, hvector⟩ := Search.finite_of_run hhits (Array.getElem_mem hi) hhit
    exact ⟨hdistance, hvector⟩

theorem finite_revalidate (h : FiniteList l) (new : PointSets PartialReal) :
    FiniteList (l.revalidate new) := by
  refine ⟨fun row hrow q hq => ?_, h.reserve⟩
  obtain ⟨old, -, rfl⟩ := Array.mem_map.1 hrow
  obtain ⟨p, -, hpq⟩ := List.mem_filterMap.1 hq
  exact finite_of_revalidatePair hpq

/-- **The pairs of every list that arises are finite.** -/
theorem Arises.finite (h : Arises l) : FiniteList l := by
  -- on the operations that led to the list
  induction h with
  | built h => exact finite_build h
  | updated _ h ih =>
    obtain ⟨-, _, -, ⟨-, heq⟩ | ⟨-, list, hbuild, heq⟩⟩ := update_eq_ok_iff.1 h <;>
      obtain ⟨rfl, rfl⟩ := Prod.mk.inj heq
    · exact finite_revalidate ih _
    · exact finite_build hbuild
  | part _ ih => exact ⟨ih.rows.filter _, forall_mem_none⟩

end NeighborList

end SmoothedParticles
