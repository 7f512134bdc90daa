import SmoothedParticles.Proofs.Pairs.RowInvariant
import SmoothedParticles.Proofs.Pairs.Tiling

/-!
# The skin does not show in a fresh list

A larger skin means a larger search radius: other cells, more candidates and, in a box, more images, of
which only the first one at each position is kept. The pairs within the cutoff stay the same, since a copy
within the cutoff is left out only for a copy of another point, whatever the radius.

* `within_congr`: rows that agree within the cutoff.
* `mem_directRow_skin`, `mem_periodicRow_skin`: **a pair within the cutoff is found with any skin**.
* `rows_eq_of_skins`: **lists built with different skins have the same rows**.
-/

namespace SmoothedParticles.NeighborList

variable {box? : Option (Box ℝ)} {box : Box ℝ} {o o' : SearchOptions ℝ} {f : PairFilter}
  {points : PointSets ℝ} {l l' : NeighborList ℝ} {query : Table ℝ} {reference? : Option (Table ℝ)}
  {i : ℕ} {x : Vec3 ℝ} {p : Pair ℝ}

/-- Rows that have the same pairs within a cutoff agree there, since all of them are sorted. -/
theorem within_congr {c : ℝ} {row row' : ℕ → Vec3 ℝ → List (Pair ℝ)}
    (h : ∀ i x, points.query[i]? = some x → FoundRow box? o f points i x (row i x))
    (h' : ∀ i x, points.query[i]? = some x → FoundRow box? o' f points i x (row' i x))
    (hmem : ∀ i x, points.query[i]? = some x →
      ∀ p : Pair ℝ, p.distance < c → (p ∈ row i x ↔ p ∈ row' i x)) :
    within c (points.query.mapIdx row) = within c (points.query.mapIdx row') := by
  apply Array.ext_getElem?
  intro i
  simp only [within, Array.getElem?_map, Array.getElem?_mapIdx, Option.map_map, Function.comp_def]
  cases hx : points.query[i]? with
  | none => rfl
  | some x =>
    refine congrArg some
      (row_ext ((h i x hx).sorted.filter _) ((h' i x hx).sorted.filter _) fun p => ?_)
    rw [List.mem_filter, List.mem_filter, decide_eq_true_eq]
    exact and_congr_left (hmem i x hx p)

/-- **Without a box**, a pair within the cutoff is found with any skin. -/
theorem mem_directRow_skin (ho : o.Valid) (ho' : o'.Valid) (hcutoff : o.cutoff = o'.cutoff)
    (hself : o.selfPairs = o'.selfPairs) (hx : points.query[i]? = some x)
    (hlt : p.distance < o.cutoff)
    (h : p ∈ ((directSearch o f points).rowByPairs i x).map (pairOfHit i)) :
    p ∈ ((directSearch o' f points).rowByPairs i x).map (pairOfHit i) := by
  obtain ⟨y, hy, hk, -, hitself, heq⟩ := (mem_directRow ho hx).1 h
  rw [hself] at hitself
  rw [hcutoff, heq] at hlt
  exact (mem_directRow ho' hx).2 ⟨y, hy, hk, hlt.trans_le ho'.cutoff_le, hitself, heq⟩

/-- The tiling knows nothing of the skin. -/
theorem Tiled.skin {j : ℕ} {s : Vec3 ℤ} (hcutoff : o.cutoff = o'.cutoff)
    (hself : o.selfPairs = o'.selfPairs) (h : Tiled box o f points i j s) :
    Tiled box o' f points i j s := by
  obtain ⟨hs, hnear, hk, hitself⟩ := h
  rw [hcutoff] at hnear
  rw [hself] at hitself
  exact ⟨hs, hnear, hk, hitself⟩

/-- **In a box**, a pair within the cutoff is found with any skin: its copy is one of the tiling that is
not shadowed. -/
theorem mem_periodicRow_skin (ho : o.Valid) (ho' : o'.Valid) (hcutoff : o.cutoff = o'.cutoff)
    (hself : o.selfPairs = o'.selfPairs) (hcut : box.AcceptsCutoff (.replicate o.searchRadius))
    (hcut' : box.AcceptsCutoff (.replicate o'.searchRadius))
    (hquery : ∀ p ∈ points.query, box.Encloses p)
    (hreference : ∀ p ∈ points.reference, box.Encloses p) (hx : points.query[i]? = some x)
    (hlt : p.distance < o.cutoff) (h : p ∈ periodicRow box o f points i x) :
    p ∈ periodicRow box o' f points i x := by
  obtain ⟨htiled, hshadow⟩ :=
    (exists_pair_iff ho hcut hquery hreference hx).1 ⟨p, h, hlt, rfl, rfl⟩
  obtain ⟨q, hq, -, hsecond, hshift⟩ := (exists_pair_iff ho' hcut' hquery hreference hx).2
    ⟨htiled.skin hcutoff hself, hshadow⟩
  -- the indexes and the shift say what the pair is
  obtain ⟨y, hy, -, -, -, -, hp⟩ := (mem_periodicRow ho hx).1 h
  obtain ⟨y', hy', -, -, -, -, hq'⟩ := (mem_periodicRow ho' hx).1 hq
  rw [hsecond] at hy'
  obtain rfl := Option.some.inj (hy.symm.trans hy')
  rw [hsecond, hshift, ← hp] at hq'
  rwa [hq'] at hq

/-- **Lists built with different skins have the same rows**: the same pairs in the same order, with the
same shifts, vectors and distances. -/
theorem rows_eq_of_skins {cutoff s s' : ℝ} {selfPairs : Bool}
    (h : (build box? ⟨cutoff, selfPairs, s⟩ query reference? f).result = .ok l)
    (h' : (build box? ⟨cutoff, selfPairs, s'⟩ query reference? f).result = .ok l') :
    l.rows = l'.rows := by
  cases box? with
  | none =>
    obtain ⟨ho, d, points, hd, -, hpoints, -, rfl⟩ := direct_ok_iff.1 h
    obtain ⟨ho', d', points', -, -, hpoints', -, rfl⟩ := direct_ok_iff.1 h'
    obtain rfl : points = points' := hpoints.trans hpoints'.symm
    rw [rows_direct ho, rows_direct ho']
    exact within_congr (fun i x => foundRow_direct ho) (fun i x => foundRow_direct ho')
      fun i x hx p hlt =>
        ⟨mem_directRow_skin ho ho' rfl rfl hx hlt, mem_directRow_skin ho' ho rfl rfl hx hlt⟩
  | some box =>
    obtain ⟨ho, hquery, hreference, hcut, points, hpoints, -, rfl⟩ := periodic_ok_iff.1 h
    obtain ⟨ho', -, -, hcut', points', hpoints', -, rfl⟩ := periodic_ok_iff.1 h'
    obtain rfl : points = points' := hpoints.trans hpoints'.symm
    have hqs : ∀ p ∈ points.query, box.Encloses p := by
      rw [hpoints]
      exact hquery.2
    have hrs : ∀ p ∈ points.reference, box.Encloses p := by
      rw [hpoints, PointSets.reference_map_points]
      exact (hquery.getD hreference).2
    rw [periodic_rows ho, periodic_rows ho']
    exact within_congr (fun i x => foundRow_periodic ho hcut) (fun i x => foundRow_periodic ho' hcut')
      fun i x hx p hlt => ⟨mem_periodicRow_skin ho ho' rfl rfl hcut hcut' hqs hrs hx hlt,
        mem_periodicRow_skin ho' ho rfl rfl hcut' hcut hqs hrs hx hlt⟩

/-- Two points at one place, of which a third one sees the first one only, across a face of the box. -/
theorem rows_eq_of_skins_coincident :
    let box := Box.square 8 (by norm_num) true
    let t : Table ℝ := ⟨2, #[#v[1, 4], #v[1, 4], #v[7, 4]]⟩
    ∃ l l', (build (some box) ⟨3, false, 0⟩ t none .keepAll).result = .ok l ∧
      (build (some box) ⟨3, false, 1⟩ t none .keepAll).result = .ok l' ∧
      l.reserve? = none ∧ l'.reserve?.isSome = true ∧
      l.reported 1 2 ⟨-1, 0, 0⟩ = 1 ∧ l.rows = l'.rows := by
  intro box t
  have hpoints : t.points = #[⟨1, 4, 0⟩, ⟨1, 4, 0⟩, ⟨7, 4, 0⟩] := by
    simp [t, Table.points, Vec3.ofList]
  have ht : box.Admits t := by
    refine Box.admits_square.2 ?_
    simp only [List.mem_toArray, List.forall_mem_cons]
    norm_num
  have hvalid : ∀ skin : ℝ, 0 ≤ skin → (⟨3, false, skin⟩ : SearchOptions ℝ).Valid :=
    fun skin hskin => ⟨by norm_num, hskin⟩
  have hcut : ∀ skin : ℝ, 0 ≤ skin → skin ≤ 1 →
      box.AcceptsCutoff (.replicate (⟨3, false, skin⟩ : SearchOptions ℝ).searchRadius) := by
    intro skin h0 h1
    refine Box.acceptsCutoff_square (hvalid skin h0).searchRadius_pos ?_
    norm_num [SearchOptions.searchRadius]
    linarith
  have hbuild : ∀ skin : ℝ, 0 ≤ skin → skin ≤ 1 →
      (build (some box) ⟨3, false, skin⟩ t none .keepAll).result =
        .ok (ofRows ⟨3, false, skin⟩ .keepAll box.dimension ⟨t.points, none⟩ (some box)
          (t.points.mapIdx (periodicRow box ⟨3, false, skin⟩ .keepAll ⟨t.points, none⟩))) :=
    fun skin h0 h1 => periodic_ok_iff.2
      ⟨hvalid skin h0, ht, forall_mem_none, hcut skin h0 h1, _, rfl, trivial, rfl⟩
  have hl := hbuild 0 le_rfl zero_le_one
  have hl' := hbuild 1 zero_le_one le_rfl
  have hlast : (ofRows ⟨3, false, 0⟩ .keepAll box.dimension ⟨t.points, none⟩ (some box)
      (t.points.mapIdx (periodicRow box ⟨3, false, 0⟩ .keepAll ⟨t.points, none⟩))).reported
        1 2 ⟨-1, 0, 0⟩ = 1 := by
    have hin : ∀ p ∈ (⟨t.points, none⟩ : PointSets ℝ).reference, box.Encloses p := ht.2
    refine (reported_iff (hvalid 0 le_rfl) (hcut 0 le_rfl zero_le_one) ht.2 hin rfl).2.2 ⟨?_, ?_⟩
    · rw [hpoints]
      exact (tiled_coincident rfl).symm rfl
    · show ¬box.Shadowed t.points.toList 2 ⟨-1, 0, 0⟩
      rw [hpoints]
      exact not_shadowed_coincident
  refine ⟨_, _, hl, hl', ?_, ?_, hlast, rows_eq_of_skins hl hl'⟩
  · rw [reserve?_ofRows, if_neg (lt_irrefl _)]
  · rw [reserve?_ofRows, if_pos one_pos]
    rfl

end SmoothedParticles.NeighborList
