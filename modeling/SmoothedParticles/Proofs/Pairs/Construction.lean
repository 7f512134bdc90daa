import SmoothedParticles.Proofs.Pairs.SearchPaths
import SmoothedParticles.Proofs.Pairs.Outcomes

/-!
# When a list is built

The checks on the options, the filter and the points in closed form, and what a list is made of.

* `SearchOptions.Valid`, `PairFilter.Fits`: the arguments that pass the checks.
* `ofRows_rows`: the rows of a list are the pairs found within the cutoff, with a skin or without.
* `aligned_directSearch`: the search of a list without periodic boundaries meets its precondition.
* `direct_eq_ok_iff`, `direct_ok_iff`: **when a list without periodic boundaries is built**, and which.
* `mem_directRow`, `rows_direct`: the pairs of one of its rows, and all of its rows.
* `rowByPairs_two`, `exists_direct_two`: the list of two points.
-/

namespace SmoothedParticles

/-- A positive cutoff and a skin that is not negative. -/
structure SearchOptions.Valid (o : SearchOptions ℝ) : Prop where
  cutoff_pos : 0 < o.cutoff
  skin_nonneg : 0 ≤ o.skin

theorem SearchOptions.validate_eq_ok_iff {α : Type} [Scalar α] {o : SearchOptions α} :
    o.validate = .ok () ↔
      Scalar.IsPositive o.cutoff ∧ 0 ≤ o.skin ∧ Scalar.isFinite o.skin = true := by
  simp only [validate, invalid_bind, ite_invalid_iff, not_not]
  exact ⟨fun h => ⟨h.1, h.2.1⟩, fun h => ⟨h.1, h.2, rfl⟩⟩

theorem SearchOptions.validate_ok_iff {o : SearchOptions ℝ} : o.validate = .ok () ↔ o.Valid := by
  simp only [validate_eq_ok_iff, Scalar.isPositive_iff, Scalar.isFinite_eq, Scalar.zero_eq, and_true]
  exact ⟨fun h => ⟨h.1, h.2⟩, fun h => ⟨h.1, h.2⟩⟩

theorem SearchOptions.Valid.cutoff_le {o : SearchOptions ℝ} (h : o.Valid) :
    o.cutoff ≤ o.searchRadius :=
  le_add_of_nonneg_right h.skin_nonneg

theorem SearchOptions.Valid.searchRadius_pos {o : SearchOptions ℝ} (h : o.Valid) :
    0 < o.searchRadius :=
  h.cutoff_pos.trans_le h.cutoff_le

/-- Has the filter one entry per query point and per reference point? -/
def PairFilter.Fits (f : PairFilter) (nQuery nReference : ℕ) : Prop :=
  match f with
  | keepAll => True
  | mask query reference _ => query.size = nQuery ∧ reference.size = nReference
  | distinctGroups query reference => query.size = nQuery ∧ reference.size = nReference

theorem PairFilter.validate_ok_iff {α : Type} {f : PairFilter} {n m : ℕ} :
    (f.validate n m : Except (Error α) Unit) = .ok () ↔ f.Fits n m := by
  cases f with
  | keepAll => exact iff_of_true rfl trivial
  | mask query reference relation =>
    simp only [validate, Fits, mismatch_bind, ite_mismatch_iff, not_not]
    exact ⟨fun h => ⟨h.1, h.2.1⟩, fun h => ⟨h.1, h.2, rfl⟩⟩
  | distinctGroups query reference =>
    simp only [validate, Fits, mismatch_bind, ite_mismatch_iff, not_not]
    exact ⟨fun h => ⟨h.1, h.2.1⟩, fun h => ⟨h.1, h.2, rfl⟩⟩

namespace PointSet

variable {α : Type} [Scalar α] {side : Side}

theorem checkFinite_ok_iff {ps : Array (Vec3 α)} :
    checkFinite side ps = .ok () ↔ ∀ p ∈ ps, p.isFinite = true := by
  unfold checkFinite
  cases hfind : ps.findIdx? fun p => !p.isFinite with
  | some i =>
    refine iff_of_false invalid_ne_ok fun h => ?_
    obtain ⟨hi, hp, -⟩ := Array.findIdx?_eq_some_iff_getElem.1 hfind
    rw [h _ (Array.getElem_mem hi)] at hp
    exact Bool.false_ne_true hp
  | none =>
    refine iff_of_true rfl fun p hp => ?_
    simpa using Array.findIdx?_eq_none_iff.1 hfind p hp

theorem ofTable_ok_iff {t : Table α} {d : Dimension} {ps : Array (Vec3 α)} :
    ofTable side t = .ok (d, ps) ↔ Dimension.ofNat? t.columns = some d ∧
      (∀ p ∈ t.points, p.isFinite = true) ∧ t.points = ps := by
  unfold ofTable
  cases Dimension.ofNat? t.columns with
  | none => simp
  | some e =>
    simp only [bind_eq_ok_iff, pure_eq_ok_iff, Option.some.injEq, Prod.mk.injEq]
    constructor
    · rintro ⟨_, hfinite, rfl, rfl⟩
      exact ⟨rfl, checkFinite_ok_iff.1 hfinite, rfl⟩
    · rintro ⟨rfl, hfinite, rfl⟩
      exact ⟨(), checkFinite_ok_iff.2 hfinite, rfl, rfl⟩

end PointSet

/-- All exact vectors are finite. -/
@[simp] theorem Vec3.isFinite_eq (v : Vec3 ℝ) : v.isFinite = true := by
  simp [Vec3.isFinite, Scalar.isFinite_eq]

/-- Without reference points of their own, query points are compared with themselves. -/
theorem PointSets.reference_of_none {α : Type} {points : PointSets α}
    (h : points.reference? = none) : points.reference = points.query := by
  rw [reference, h, Option.getD_none]

theorem PointSets.reference_map_points {α : Type} [Scalar α] (query : Table α)
    (reference? : Option (Table α)) :
    (⟨query.points, reference?.map Table.points⟩ : PointSets α).reference =
      (reference?.getD query).points := by
  cases reference? <;> rfl

namespace NeighborList

section Fields

variable {α : Type} [Scalar α] {o : SearchOptions α} {f : PairFilter} {d : Dimension}
  {points : PointSets α} {box? : Option (Box α)} {found : Array (List (Pair α))}

@[simp] theorem options_ofRows : (ofRows o f d points box? found).options = o := by
  unfold ofRows
  split_ifs <;> rfl

@[simp] theorem filter_ofRows : (ofRows o f d points box? found).filter = f := by
  unfold ofRows
  split_ifs <;> rfl

@[simp] theorem dimension_ofRows : (ofRows o f d points box? found).dimension = d := by
  unfold ofRows
  split_ifs <;> rfl

@[simp] theorem partitioned_ofRows : (ofRows o f d points box? found).partitioned = false := by
  unfold ofRows
  split_ifs <;> rfl

@[simp] theorem points_ofRows : (ofRows o f d points box? found).points = points := by
  unfold ofRows
  split_ifs <;> rfl

@[simp] theorem box?_ofRows : (ofRows o f d points box? found).box? = box? := by
  unfold ofRows
  split_ifs <;> rfl

end Fields

variable {o : SearchOptions ℝ} {f : PairFilter} {d : Dimension} {points : PointSets ℝ}
  {box? : Option (Box ℝ)} {l : NeighborList ℝ}

/-- With a skin, all pairs found are kept in reserve. -/
theorem reserve?_ofRows {found : Array (List (Pair ℝ))} :
    (ofRows o f d points box? found).reserve? =
      if 0 < o.skin then some ⟨found, points⟩ else none := by
  unfold ofRows
  rw [Scalar.zero_eq]
  split_ifs <;> rfl

/-- **The rows of a list are the pairs within the cutoff**; without a skin, all pairs found. -/
theorem ofRows_rows {row : ℕ → Vec3 ℝ → List (Pair ℝ)} (ho : o.Valid)
    (hrow : ∀ i x, points.query[i]? = some x → ∀ p ∈ row i x, p.distance < o.searchRadius) :
    (ofRows o f d points box? (points.query.mapIdx row)).rows =
      within o.cutoff (points.query.mapIdx row) := by
  unfold ofRows
  split_ifs with hskin
  · rfl
  · -- the search radius is the cutoff, so all pairs found are kept
    rw [Scalar.zero_eq] at hskin
    have hradius : o.searchRadius = o.cutoff := by
      rw [SearchOptions.searchRadius, le_antisymm (not_lt.1 hskin) ho.skin_nonneg, add_zero]
    apply Array.ext_getElem?
    intro i
    rw [within, Array.getElem?_map, Array.getElem?_mapIdx]
    cases hx : points.query[i]? with
    | none => rfl
    | some x =>
      rw [Option.map_some, Option.map_some, List.filter_eq_self.2]
      intro p hp
      rw [decide_eq_true_eq, ← hradius]
      exact hrow i x hx p hp

/-- All pairs of a list without periodic boundaries within the search radius. -/
noncomputable def directRows (o : SearchOptions ℝ) (f : PairFilter) (points : PointSets ℝ) :
    Array (List (Pair ℝ)) :=
  points.query.mapIdx fun i p => ((directSearch o f points).rowByPairs i p).map (pairOfHit i)

/-- **A list without periodic boundaries meets the precondition** of its search: it compares points with themselves
only if there are no other reference points. -/
theorem aligned_directSearch (o : SearchOptions ℝ) (f : PairFilter) (points : PointSets ℝ) :
    (directSearch o f points).Aligned points.query := by
  intro hid i p q hp hq
  have hself : points.reference? = none := by
    by_contra h
    simp [directSearch, h] at hid
  have hq : points.reference[i]? = some q := hq
  rw [PointSets.reference_of_none hself, hp] at hq
  exact Option.some.inj hq

/-- **The points of both sides**, if they are finite and have the same dimension, in any arithmetic. -/
theorem pointSets_ok_iff {α : Type} [Scalar α] {points : PointSets α} {query : Table α}
    {reference? : Option (Table α)} :
    pointSets query reference? = .ok (d, points) ↔ Dimension.ofNat? query.columns = some d ∧
      (∀ r ∈ reference?, r.columns = query.columns) ∧ (∀ p ∈ query.points, p.isFinite = true) ∧
      (∀ r ∈ reference?, ∀ p ∈ r.points, p.isFinite = true) ∧
      points = ⟨query.points, reference?.map Table.points⟩ := by
  unfold pointSets
  rw [bind_eq_ok_iff]
  simp only [Prod.exists, PointSet.ofTable_ok_iff]
  cases reference? with
  | none =>
    simp only [Option.mem_def, reduceCtorEq, false_imp_iff, implies_true, true_and, Option.map_none]
    constructor
    · intro h
      obtain ⟨e, ps, ⟨he, hfinite, rfl⟩, h⟩ := h
      obtain ⟨rfl, rfl⟩ := Prod.mk.inj (Except.ok.inj h)
      exact ⟨he, hfinite, rfl⟩
    · intro h
      obtain ⟨he, hfinite, rfl⟩ := h
      exact ⟨d, query.points, ⟨he, hfinite, rfl⟩, rfl⟩
  | some r =>
    simp only [Option.mem_def, Option.some.injEq, forall_eq', mismatch_bind, ite_mismatch_iff,
      not_not, bind_eq_ok_iff, Prod.exists, PointSet.ofTable_ok_iff, Option.map_some]
    constructor
    · intro h
      obtain ⟨e, ps, ⟨he, hfinite, rfl⟩, hr, e', rs, ⟨-, hfinite', rfl⟩, h⟩ := h
      obtain ⟨rfl, rfl⟩ := Prod.mk.inj (Except.ok.inj h)
      exact ⟨he, hr, hfinite, hfinite', rfl⟩
    · intro h
      obtain ⟨he, hr, hfinite, hfinite', rfl⟩ := h
      exact ⟨d, query.points, ⟨he, hfinite, rfl⟩, hr, d, r.points, ⟨by rw [hr, he], hfinite', rfl⟩, rfl⟩

/-- **When a list without periodic boundaries is built**, and which, in any arithmetic. -/
theorem direct_eq_ok_iff {α : Type} [Scalar α] {o : SearchOptions α} {query : Table α}
    {reference? : Option (Table α)} {l : NeighborList α} :
    (direct o query reference? f).result = .ok l ↔ o.validate = .ok () ∧ ∃ d points hits,
      pointSets query reference? = .ok (d, points) ∧
      f.Fits points.query.size points.reference.size ∧
      (directSearch o f points).run d points.query = .ok hits ∧
      l = ofRows o f d points none (hits.mapIdx fun i row => row.map (pairOfHit i)) := by
  rw [result_direct]
  simp only [bind_eq_ok_iff, Prod.exists, pure_eq_ok_iff]
  constructor
  · rintro ⟨_, ho, d, points, hpoints, _, hf, hits, hhits, rfl⟩
    exact ⟨ho, d, points, hits, hpoints, PairFilter.validate_ok_iff.1 hf, hhits, rfl⟩
  · rintro ⟨ho, d, points, hits, hpoints, hf, hhits, rfl⟩
    exact ⟨(), ho, d, points, hpoints, (), PairFilter.validate_ok_iff.2 hf, hits, hhits, rfl⟩

/-- **When a list without periodic boundaries is built**, and which. -/
theorem direct_ok_iff {query : Table ℝ} {reference? : Option (Table ℝ)} :
    (direct o query reference? f).result = .ok l ↔ o.Valid ∧ ∃ d points,
      Dimension.ofNat? query.columns = some d ∧
      (∀ r ∈ reference?, r.columns = query.columns) ∧
      points = ⟨query.points, reference?.map Table.points⟩ ∧
      f.Fits points.query.size points.reference.size ∧
      l = ofRows o f d points none (directRows o f points) := by
  have hrun : ∀ d points, o.Valid →
      (directSearch o f points).run d points.query =
        .ok (points.query.mapIdx (directSearch o f points).rowByPairs) :=
    fun d points ho => Search.run_eq d ho.searchRadius_pos (aligned_directSearch o f points)
  rw [direct_eq_ok_iff, SearchOptions.validate_ok_iff]
  refine and_congr_right fun ho => ?_
  constructor
  · rintro ⟨d, points, hits, hpoints, hf, hhits, rfl⟩
    rw [hrun d points ho] at hhits
    obtain rfl := Except.ok.inj hhits
    obtain ⟨hd, hcols, -, -, hpoints⟩ := pointSets_ok_iff.1 hpoints
    refine ⟨d, points, hd, hcols, hpoints, hf, ?_⟩
    rw [Array.mapIdx_mapIdx]
    rfl
  · rintro ⟨d, points, hd, hcols, hpoints, hf, rfl⟩
    have hfinite := pointSets_ok_iff.2
      ⟨hd, hcols, fun p _ => p.isFinite_eq, fun _ _ p _ => p.isFinite_eq, hpoints⟩
    refine ⟨d, points, _, hfinite, hf, hrun d points ho, ?_⟩
    rw [Array.mapIdx_mapIdx]
    rfl

/-- A self list of all pairs is built over any points of the plane or of space. -/
theorem exists_direct_self {t : Table ℝ} (ho : o.Valid) (hd : Dimension.ofNat? t.columns = some d) :
    ∃ l, (direct o t none .keepAll).result = .ok l ∧ l.dimension = d ∧ l.points = ⟨t.points, none⟩ :=
  ⟨_, direct_ok_iff.2 ⟨ho, d, _, hd, forall_mem_none, rfl, trivial, rfl⟩, dimension_ofRows,
    points_ofRows⟩

/-- The pair of a query point at `x` and a reference point that is moved to `y`. -/
noncomputable def pairTo (i : ℕ) (x : Vec3 ℝ) (j : ℕ) (y : Vec3 ℝ) (s : Vec3 ℤ) : Pair ℝ :=
  ⟨i, j, (y - x).norm, y - x, s⟩

/-- **The pairs of a row without periodic boundaries.** -/
theorem mem_directRow {i : ℕ} {x : Vec3 ℝ} {p : Pair ℝ} (ho : o.Valid)
    (hx : points.query[i]? = some x) :
    p ∈ ((directSearch o f points).rowByPairs i x).map (pairOfHit i) ↔
      ∃ y, points.reference[p.second]? = some y ∧ f.keep i p.second = true ∧
        (y - x).norm < o.searchRadius ∧
        (points.reference? = none → i = p.second → o.selfPairs = true) ∧
        p = pairTo i x p.second y (.replicate 0) := by
  have hself : ∀ q, (directSearch o f points).identity = some true →
      (directSearch o f points).reference[i]? = some q → x = q :=
    fun q hid hq => aligned_directSearch o f points hid i x q hx hq
  have hid : ∀ j, (i = j → (directSearch o f points).identity ≠ some false) ↔
      (points.reference? = none → i = j → o.selfPairs = true) := by
    intro j
    cases hr : points.reference? <;> simp [directSearch, hr]
  simp only [List.mem_map, Search.mem_rowByPairs_iff (s := directSearch o f points)
    ho.searchRadius_pos hself, hid]
  constructor
  · intro h
    obtain ⟨h, ⟨y, hy, hk, hnear, hne, heq⟩, rfl⟩ := h
    refine ⟨y, hy, hk, hnear, hne, ?_⟩
    rw [heq]
    rfl
  · intro h
    obtain ⟨y, hy, hk, hnear, hne, heq⟩ := h
    refine ⟨⟨p.second, (y - x).norm, y - x⟩, ⟨y, hy, hk, hnear, hne, rfl⟩, ?_⟩
    rw [heq]
    rfl

/-- **The rows of a list without periodic boundaries.** -/
theorem rows_direct (ho : o.Valid) : (ofRows o f d points none (directRows o f points)).rows =
    within o.cutoff (directRows o f points) := by
  refine ofRows_rows ho fun i x hx p hp => ?_
  obtain ⟨y, -, -, hnear, -, heq⟩ := (mem_directRow ho hx).1 hp
  rw [heq]
  exact hnear

/-- A search among two points that are close to each other finds each of them once, in any arithmetic. -/
theorem rowByPairs_two {α : Type} [Scalar α] {s : Search α} {x y : Vec3 α}
    (hself : s.identity = some false) (hkeep : ∀ i j, s.keep i j = true) (href : s.reference = #[x, y])
    (hnear : (y - x).norm2 < s.cutoff * s.cutoff) (hnear' : (x - y).norm2 < s.cutoff * s.cutoff) :
    s.rowByPairs 0 x = [⟨1, (y - x).norm, y - x⟩] ∧ s.rowByPairs 1 y = [⟨0, (x - y).norm, x - y⟩] := by
  have hitself : ∀ i z, s.hit? i z i z = none := by
    intro i z
    simp [Search.hit?, hself]
  have hother : ∀ i j u v, i ≠ j → (v - u).norm2 < s.cutoff * s.cutoff →
      s.hit? i u j v = some ⟨j, (v - u).norm, v - u⟩ := by
    intro i j u v hij hlt
    simp [Search.hit?, hself, hij, hlt, hkeep, Vec3.norm]
  simp only [Search.rowByPairs, Search.rowOf, href]
  constructor
  · show List.filterMap (fun j => #[x, y][j]?.bind (s.hit? 0 x j)) [0, 1] = _
    simp [hitself, hother 0 1 x y zero_ne_one hnear]
  · show List.filterMap (fun j => #[x, y][j]?.bind (s.hit? 1 y j)) [0, 1] = _
    simp [hitself, hother 1 0 y x one_ne_zero hnear']

/-- **Two points within the cutoff** are each other's only neighbors. -/
theorem exists_direct_two {t : Table ℝ} {x y : Vec3 ℝ} (ho : o.Valid) (hself : o.selfPairs = false)
    (hd : Dimension.ofNat? t.columns = some d) (hpoints : t.points = #[x, y])
    (hnear : (y - x).norm < o.cutoff) :
    ∃ l, (direct o t none .keepAll).result = .ok l ∧ l.dimension = d ∧ l.points = ⟨t.points, none⟩ ∧
      l.rows = #[[pairTo 0 x 1 y (.replicate 0)], [pairTo 1 y 0 x (.replicate 0)]] := by
  let s := directSearch o .keepAll ⟨#[x, y], none⟩
  have hnear' : (x - y).norm < o.cutoff := by
    rw [Vec3.norm_sub_comm]
    exact hnear
  have hclose : ∀ {v : Vec3 ℝ}, v.norm < o.cutoff → v.norm2 < o.searchRadius * o.searchRadius :=
    fun hv => (Vec3.norm_lt_iff ho.searchRadius_pos).1 (hv.trans_le ho.cutoff_le)
  obtain ⟨hfirst, hsecond⟩ := rowByPairs_two (s := s) (congrArg some hself) (fun _ _ => rfl) rfl
    (hclose hnear) (hclose hnear')
  refine ⟨_, direct_ok_iff.2 ⟨ho, d, _, hd, forall_mem_none, rfl, trivial, rfl⟩, dimension_ofRows,
    points_ofRows, (rows_direct ho).trans ?_⟩
  rw [directRows, hpoints]
  simp only [List.mapIdx_toArray, List.mapIdx_cons, List.mapIdx_nil]
  show within _ #[(s.rowByPairs 0 x).map (pairOfHit 0), (s.rowByPairs 1 y).map (pairOfHit 1)] = _
  rw [hfirst, hsecond]
  simp [within, pairOfHit, pairTo, hnear, hnear']

end NeighborList

end SmoothedParticles
