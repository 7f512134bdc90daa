import SmoothedParticles.Proofs.Pairs.FreshPairs

/-!
# The closest approach

The smallest distance of a list is taken over the pairs that it has. In a box these are not all pairs of
points: of several points at one place only one has an image. The smallest distance is that of the whole set
all the same, since the point with the image is at the same place.

* `smallest?_eq_some_iff`, `exists_smallest?_iff`: the smallest of some distances.
* `separations`: the distances between points with different indexes.
* `distances_eq`: **the distances of the pairs are the separations within the cutoff**.
* `minDistance_eq_closest`: **the smallest distance of a list is the closest approach of its points**.
-/

namespace SmoothedParticles.NeighborList

variable {box? : Option (Box ℝ)} {o : SearchOptions ℝ} {d : Dimension} {ps : Array (Vec3 ℝ)}
  {l : NeighborList ℝ} {p : Pair ℝ} {i j : ℕ} {x y : Vec3 ℝ} {c : ℝ}

section Smallest

theorem smallest?_eq (ds : List ℝ) : smallest? ds = ds.min? := by
  cases ds with
  | nil => rfl
  | cons d ds =>
    refine List.foldl_hom some fun m c => ?_
    show some (if c < m then c else m) = some (min m c)
    rw [min_comm, min_def_lt]

theorem smallest?_eq_some_iff {ds : List ℝ} : smallest? ds = some c ↔ IsLeast {e | e ∈ ds} c := by
  rw [smallest?_eq, List.min?_eq_some_iff]
  rfl

theorem exists_smallest?_iff {ds : List ℝ} : (∃ c, smallest? ds = some c) ↔ ∃ c, c ∈ ds := by
  constructor
  · rintro ⟨c, h⟩
    exact ⟨c, (smallest?_eq_some_iff.1 h).1⟩
  · rintro ⟨c, hc⟩
    refine Option.ne_none_iff_exists'.1 fun hnone => ?_
    rw [smallest?_eq, List.min?_eq_none_iff] at hnone
    exact List.ne_nil_of_mem hc hnone

end Smallest

/-- **The distances between points with different indexes**, to the nearest images in a box. -/
def separations (box? : Option (Box ℝ)) (ps : Array (Vec3 ℝ)) : Set ℝ :=
  {c | ∃ (i j : ℕ) (x y : Vec3 ℝ), i ≠ j ∧ ps[i]? = some x ∧ ps[j]? = some y ∧
    (nearestIn box? (y - x)).norm = c}

/-- The distances that the smallest distance of a list is taken from. -/
noncomputable def distances (l : NeighborList ℝ) : List ℝ :=
  (l.pairs.filter fun p => !l.isSelfPair p).map Pair.distance

section Fresh

variable (ho : o.Valid) (hcut : ∀ box ∈ box?, box.AcceptsCutoff (.replicate o.searchRadius))
  (hin : ∀ box ∈ box?, ∀ q ∈ ps, box.Encloses q)
  (hl : l = ofRows o .keepAll d ⟨ps, none⟩ box? (foundRows box? o .keepAll ⟨ps, none⟩))

include ho hcut hl

/-- **Only pairs of a point with itself are left out**, since no point is a neighbor of its own images. -/
theorem mem_distances_iff : c ∈ l.distances ↔
    ∃ p ∈ l.pairs, p.first ≠ p.second ∧ p.distance = c := by
  have hself : l.isSelf = true := by
    rw [isSelf, hl, points_ofRows]
    rfl
  have hother : ∀ p ∈ l.pairs, (!l.isSelfPair p) = true ↔ p.first ≠ p.second := by
    intro p hp
    rw [hl] at hp
    have hshift := ((mem_pairs_fresh ho).1 hp).1.shift_eq_zero ho hcut rfl
    simp only [isSelfPair, hself, Bool.true_and, Bool.not_eq_true', Bool.and_eq_false_iff,
      decide_eq_false_iff_not]
    exact ⟨fun h heq => h.elim (· heq) (· (hshift heq)), .inl⟩
  simp only [distances, List.mem_map, List.mem_filter]
  constructor
  · rintro ⟨p, ⟨hp, hne⟩, rfl⟩
    exact ⟨p, hp, (hother p hp).1 hne, rfl⟩
  · rintro ⟨p, hp, hne, rfl⟩
    exact ⟨p, ⟨hp, (hother p hp).2 hne⟩, rfl⟩

include hin

/-- **A separation within the cutoff is the distance of a pair** of the first point, with the second one or
with another one that has an image at the same place. -/
theorem exists_pair_of_separation (hij : i ≠ j) (hx : ps[i]? = some x) (hy : ps[j]? = some y)
    (hnear : (nearestIn box? (y - x)).norm < o.cutoff) :
    ∃ p ∈ l.pairs, p.first ≠ p.second ∧ p.distance = (nearestIn box? (y - x)).norm := by
  have hradius := hnear.trans_le ho.cutoff_le
  obtain ⟨k, z, t, hz, hsees, hdistance, hzero⟩ := exists_sees_nearest ho.searchRadius_pos hcut
    (fun box hb => ⟨hin box hb x (Array.mem_of_getElem? hx), hin box hb y (Array.mem_of_getElem? hy)⟩)
    hy hradius
  rw [← hdistance] at hnear hradius ⊢
  have hik : i ≠ k := by
    rintro rfl
    -- an image of the first point itself is too far away
    obtain rfl := Option.some.inj (hx.symm.trans hz)
    exact hij (hzero (shift_eq_zero hcut ho.searchRadius_pos hsees.supports hradius))
  rw [hl]
  exact ⟨pairTo i x k (moved box? t z) t, (mem_pairs_fresh ho).2
    ⟨⟨x, z, hx, hz, hsees, rfl, hnear, rfl⟩, fun _ h => absurd h hik⟩, hik, rfl⟩

/-- **The distances of the pairs are the separations within the cutoff.** -/
theorem distances_eq : {c | c ∈ l.distances} = {c ∈ separations box? ps | c < o.cutoff} := by
  ext c
  refine (mem_distances_iff ho hcut hl).trans ⟨?_, ?_⟩
  · rintro ⟨p, hp, hne, rfl⟩
    rw [hl] at hp
    obtain ⟨x, y, hx, hy, hdistance, hlt⟩ := ((mem_pairs_fresh ho).1 hp).1.distance_eq ho hcut
    exact ⟨⟨p.first, p.second, x, y, hne, hx, hy, hdistance.symm⟩, hlt⟩
  · rintro ⟨⟨i, j, x, y, hij, hx, hy, rfl⟩, hlt⟩
    exact exists_pair_of_separation ho hcut hin hl hij hx hy hlt

end Fresh

/-- **The smallest distance of a list over some points is their closest approach**, if all pairs are kept:
there is one if two points with different indexes are within the cutoff, and it is then the least distance
between any two such points of the whole set, with nearest images in a box. This holds with any skin, with or
without pairs of a point and itself, and for points at one place or on opposite faces. -/
theorem minDistance_eq_closest {t : Table ℝ} (h : (build box? o t none .keepAll).result = .ok l) :
    ((∃ c, l.minDistance = some c) ↔ ∃ c ∈ separations box? t.points, c < o.cutoff) ∧
      ∀ c, l.minDistance = some c ↔ c < o.cutoff ∧ IsLeast (separations box? t.points) c := by
  obtain ⟨ho, d, _, -, -, hbox, rfl, -, hl⟩ := build_ok_iff.1 h
  have hdistances := distances_eq ho (fun box hb => (hbox box hb).1)
    (fun box hb => (hbox box hb).2.1.2) hl
  refine ⟨?_, fun c => ?_⟩
  · exact exists_smallest?_iff.trans (exists_congr fun c => Set.ext_iff.1 hdistances c)
  · refine smallest?_eq_some_iff.trans ?_
    show IsLeast {c | c ∈ l.distances} c ↔ _
    rw [hdistances]
    constructor
    · rintro ⟨⟨hc, hlt⟩, hleast⟩
      -- what is beyond the cutoff is larger anyway
      refine ⟨hlt, hc, fun e he => ?_⟩
      rcases lt_or_ge e o.cutoff with hlt' | hge
      · exact hleast ⟨he, hlt'⟩
      · exact hlt.le.trans hge
    · rintro ⟨hlt, hc, hleast⟩
      exact ⟨⟨hc, hlt⟩, fun e he => hleast he.1⟩

/-- Two points on opposite faces of a square are at one place, although their coordinates differ. They are
not the same point, so their distance counts, while those of points and themselves do not. -/
theorem minDistance_eq_closest_faces :
    let box := Box.square 8 (by norm_num) true
    let t : Table ℝ := ⟨2, #[#v[3, 4], #v[0, 4], #v[8, 4]]⟩
    ∃ l, (build (some box) ⟨3, true, 1⟩ t none .keepAll).result = .ok l ∧
      IsLeast (separations (some box) t.points) 0 ∧ l.minDistance = some 0 := by
  intro box t
  have hpoints : t.points = #[⟨3, 4, 0⟩, ⟨0, 4, 0⟩, ⟨8, 4, 0⟩] := by
    simp [t, Table.points, Vec3.ofList]
  have ho : (⟨3, true, 1⟩ : SearchOptions ℝ).Valid := ⟨by norm_num, by norm_num⟩
  have ht : box.Admits t := by
    refine Box.admits_square.2 ?_
    simp only [List.mem_toArray, List.forall_mem_cons]
    norm_num
  have hcut : box.AcceptsCutoff (.replicate (⟨3, true, 1⟩ : SearchOptions ℝ).searchRadius) :=
    Box.acceptsCutoff_square ho.searchRadius_pos (by norm_num [SearchOptions.searchRadius])
  obtain ⟨l, hbuild⟩ : ∃ l, (build (some box) ⟨3, true, 1⟩ t none .keepAll).result = .ok l :=
    ⟨_, build_ok_iff.2 ⟨ho, .two, ⟨t.points, none⟩, rfl, forall_mem_none,
      fun b hb => Option.some.inj hb ▸ ⟨hcut, ht, forall_mem_none⟩, rfl, trivial, rfl⟩⟩
  have hfaces : (nearestIn (some box) (⟨8, 4, 0⟩ - ⟨0, 4, 0⟩)).norm = 0 := by
    have hsub : (⟨8, 4, 0⟩ : Vec3 ℝ) - ⟨0, 4, 0⟩ = ⟨8, 0, 0⟩ :=
      Vec3.ext_get fun a => by rw [Vec3.get_sub]; cases a <;> norm_num [Vec3.get]
    have hround : nearestWhole (8 / 8) = 1 := by
      rw [div_self (by norm_num)]
      exact_mod_cast nearestWhole_intCast 1
    refine le_antisymm ?_ (Vec3.norm_nonneg _)
    show (box.nearestImage _).norm ≤ 0
    rw [hsub, norm_nearestImage_square_le le_rfl, hround, zero_div, nearestWhole_zero]
    norm_num
  have hleast : IsLeast (separations (some box) t.points) 0 := by
    refine ⟨⟨1, 2, ⟨0, 4, 0⟩, ⟨8, 4, 0⟩, by decide, ?_, ?_, hfaces⟩, ?_⟩
    · rw [hpoints]
      rfl
    · rw [hpoints]
      rfl
    · rintro _ ⟨i, j, x, y, -, -, -, rfl⟩
      exact Vec3.norm_nonneg _
  exact ⟨l, hbuild, hleast, ((minDistance_eq_closest hbuild).2 0).2 ⟨by norm_num, hleast⟩⟩

end SmoothedParticles.NeighborList
