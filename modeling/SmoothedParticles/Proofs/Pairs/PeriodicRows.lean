import SmoothedParticles.Proofs.Pairs.Construction
import SmoothedParticles.Proofs.Periodic.CopyOrder
import SmoothedParticles.Pairs.PeriodicList

/-!
# The rows of a periodic list

A periodic search looks at the reference points followed by their images. Each of these entries is a
reference point moved by a shift, and tells which.

* `Offers`: the reference points and shifts that have an entry.
* `offers_iff`: close to the box these are all shifts along periodic axes that are not shadowed.
* `entry_of_get`, `exists_entry`, `entry_inj`: the entries, each of another point or shift.
* `aligned_periodicSearch`: the search among points and images meets its precondition.
* `periodic_eq_ok_iff`, `periodic_ok_iff`: **when a periodic list is built**, and which.
* `mem_periodicRow`, `pairwise_periodicRow`: the pairs of one of its rows, and their order.
-/

namespace SmoothedParticles

namespace Box

variable {box : Box ℝ} {cutoff : Vec3 ℝ} {ys : List (Vec3 ℝ)} {j : ℕ} {x y : Vec3 ℝ} {s : Vec3 ℤ}

@[simp] theorem displace_zero (box : Box ℝ) (p : Vec3 ℝ) : box.displace (.replicate 0) p = p :=
  Vec3.ext_get fun a => by simp

/-- Does a search see the point, moved by the shift? -/
def Offers (box : Box ℝ) (cutoff : Vec3 ℝ) (ys : List (Vec3 ℝ)) (j : ℕ) (y : Vec3 ℝ)
    (s : Vec3 ℤ) : Prop :=
  s = .replicate 0 ∨ box.copyOf y j s ∈ (box.imagesOf cutoff ys).items

theorem Offers.isImageShift (h : box.Offers cutoff ys j y s) (h0 : s ≠ .replicate 0) :
    box.IsImageShift s := by
  obtain ⟨x, k, t, -, ht, hcopy⟩ := copy_of_mem_items (h.resolve_left h0)
  rw [copyOf, copyOf, Image.mk.injEq] at hcopy
  obtain ⟨-, -, rfl, -⟩ := hcopy
  exact ht

theorem Offers.supports (h : box.Offers cutoff ys j y s) : box.Supports s := by
  by_cases h0 : s = .replicate 0
  · rw [h0]
    exact box.supports_zero
  · exact (h.isImageShift h0).periodic

theorem Offers.unit (h : box.Offers cutoff ys j y s) (a : Axis) :
    s.get a = 0 ∨ s.get a = 1 ∨ s.get a = -1 := by
  by_cases h0 : s = .replicate 0
  · rw [h0]
    exact .inl (Vec3.get_replicate 0 a)
  · exact (h.isImageShift h0).unit a

/-- **Close to a point of the box** the search sees all copies that are not shadowed. -/
theorem offers_iff {r : ℝ} (hcut : box.AcceptsCutoff (.replicate r)) (hr : 0 < r)
    (hys : ∀ p ∈ ys, box.Encloses p) (hj : ys[j]? = some y) (hx : box.Encloses x)
    (hnear : (box.displace s y - x).norm < r) :
    box.Offers (.replicate r) ys j y s ↔ box.Supports s ∧ ¬box.Shadowed ys j s := by
  constructor
  · intro h
    refine ⟨h.supports, fun hshadow => ?_⟩
    obtain ⟨x', y', k, t, -, -, hs, -⟩ := id hshadow
    rcases h with rfl | h
    · exact hs.ne_zero rfl
    · exact ((mem_items_iff hcut hys hj).1 h).2 hshadow
  · rintro ⟨hs, hshadow⟩
    by_cases h0 : s = .replicate 0
    · exact .inl h0
    have hclose : ∀ a ∈ box.dimension.axes,
        |(box.displace s y).get a - x.get a| ≤ (Vec3.replicate r).get a := by
      intro a _
      have h := Vec3.abs_get_lt_of_norm_lt hr hnear a
      rw [Vec3.get_sub] at h
      rw [Vec3.get_replicate]
      exact h.le
    have hmem := mem_copies_of_near hcut (hys y (List.mem_of_getElem? hj)) hx hj h0 hs hclose
    exact .inr ((mem_items_iff hcut hys hj).2 ⟨hmem, hshadow⟩)

/-- **No two copies of a point** are within half of each periodic length of another one. -/
theorem shift_unique {r : ℝ} {t : Vec3 ℤ} (hcut : box.AcceptsCutoff (.replicate r)) (hr : 0 < r)
    (hs : box.Supports s) (ht : box.Supports t) (h : (box.displace s y - x).norm < r)
    (h' : (box.displace t y - x).norm < r) : s = t := by
  refine Vec3.ext_get fun a => ?_
  by_cases hper : box.periodic.get a = true
  · have ha := mem_axes_of_periodic hper
    have hL := length_pos ha
    have hhalf := (hcut a ha).2 hper
    have h1 := abs_lt.1 (Vec3.abs_get_lt_of_norm_lt hr h a)
    have h2 := abs_lt.1 (Vec3.abs_get_lt_of_norm_lt hr h' a)
    simp only [Vec3.get_sub, get_displace, Vec3.get_replicate] at h1 h2 hhalf
    -- the copies are less than one length apart, and a whole number of lengths
    have hlt : (s.get a : ℝ) - t.get a < 1 := by
      refine lt_of_mul_lt_mul_right ?_ hL.le
      linarith
    have hgt : (t.get a : ℝ) - s.get a < 1 := by
      refine lt_of_mul_lt_mul_right ?_ hL.le
      linarith
    have hlt : s.get a - t.get a < 1 := by exact_mod_cast hlt
    have hgt : t.get a - s.get a < 1 := by exact_mod_cast hgt
    omega
  · rw [hs.get_eq_zero hper, ht.get_eq_zero hper]

end Box

namespace NeighborList

section Entries

section AnyArithmetic

variable {α : Type} [Scalar α] {box : Box α} {cutoff : Vec3 α} {ys : Array (Vec3 α)}
  {images : Images α} {e : ℕ} {q : Vec3 α}

/-- An entry is one of the points, or an image of one of them. -/
theorem extend_cases {α : Type} {ys : Array (Vec3 α)} {images : Images α} {e : ℕ} {q : Vec3 α}
    (he : (images.extend ys)[e]? = some q) :
    (images.image? ys.size e = none ∧ ys[e]? = some q) ∨
      ∃ c, images.image? ys.size e = some c ∧ ys.size ≤ e ∧ images.items[e - ys.size]? = some c ∧
        c.position = q := by
  unfold Images.extend at he
  unfold Images.image?
  by_cases hlt : e < ys.size
  · rw [Array.getElem?_append_left hlt] at he
    exact .inl ⟨if_pos hlt, he⟩
  · have hle := not_lt.1 hlt
    rw [Array.getElem?_append_right hle, Array.getElem?_map] at he
    obtain ⟨c, hc, hpos⟩ := Option.map_eq_some_iff.1 he
    exact .inr ⟨c, by rw [if_neg hlt, hc], hle, hc, hpos⟩

/-- The point behind an entry is one of the points. -/
theorem pointBehind_lt (himages : images = box.imagesOf cutoff ys.toList)
    (he : (images.extend ys)[e]? = some q) : pointBehind images ys.size e < ys.size := by
  unfold pointBehind
  rcases extend_cases he with ⟨hnone, hq⟩ | ⟨c, hsome, -, hitem, -⟩
  · rw [hnone]
    exact (Array.getElem?_eq_some_iff.1 hq).1
  · rw [hsome]
    have hc := Array.mem_of_getElem? hitem
    rw [himages] at hc
    obtain ⟨y, j, s, hy, -, rfl⟩ := Box.copy_of_mem_items hc
    rw [Array.getElem?_toList] at hy
    exact (Array.getElem?_eq_some_iff.1 hy).1

end AnyArithmetic

variable {box : Box ℝ} {cutoff : Vec3 ℝ} {ys : Array (Vec3 ℝ)} {images : Images ℝ} {e e' j : ℕ}
  {q y : Vec3 ℝ} {s : Vec3 ℤ}

/-- **Each entry is a point moved by a shift.** -/
theorem entry_of_get (himages : images = box.imagesOf cutoff ys.toList)
    (he : (images.extend ys)[e]? = some q) :
    ∃ y, ys[pointBehind images ys.size e]? = some y ∧
      q = box.displace (shiftOf images ys.size e) y ∧
      box.Offers cutoff ys.toList (pointBehind images ys.size e) y (shiftOf images ys.size e) := by
  unfold pointBehind shiftOf
  rcases extend_cases he with ⟨hnone, hq⟩ | ⟨c, hsome, -, hitem, hpos⟩
  · rw [hnone]
    exact ⟨q, hq, (box.displace_zero q).symm, .inl rfl⟩
  · rw [hsome]
    have hc := Array.mem_of_getElem? hitem
    rw [himages] at hc
    obtain ⟨y, j, s, hy, -, rfl⟩ := Box.copy_of_mem_items hc
    rw [Array.getElem?_toList] at hy
    exact ⟨y, hy, hpos.symm, .inr hc⟩

/-- The points come first, without a shift. -/
theorem entry_of_lt (images : Images ℝ) (he : e < ys.size) :
    pointBehind images ys.size e = e ∧ shiftOf images ys.size e = .replicate 0 := by
  unfold pointBehind shiftOf Images.image?
  rw [if_pos he]
  exact ⟨rfl, rfl⟩

/-- The images come after all points. -/
theorem entry_of_item {k : ℕ} {c : Image ℝ} (hk : images.items[k]? = some c) :
    (images.extend ys)[ys.size + k]? = some c.position ∧
      pointBehind images ys.size (ys.size + k) = c.source ∧
      shiftOf images ys.size (ys.size + k) = c.shift := by
  have hle : ys.size ≤ ys.size + k := Nat.le_add_right _ _
  unfold pointBehind shiftOf Images.image? Images.extend
  rw [Array.getElem?_append_right hle, if_neg (not_lt.2 hle), Nat.add_sub_cancel_left,
    Array.getElem?_map, hk]
  exact ⟨rfl, rfl, rfl⟩

/-- **Each point and shift that the search sees has an entry.** -/
theorem exists_entry (himages : images = box.imagesOf cutoff ys.toList) (hj : ys[j]? = some y)
    (h : box.Offers cutoff ys.toList j y s) :
    ∃ e, (images.extend ys)[e]? = some (box.displace s y) ∧ pointBehind images ys.size e = j ∧
      shiftOf images ys.size e = s := by
  rcases h with rfl | h
  · have hlt := (Array.getElem?_eq_some_iff.1 hj).1
    refine ⟨j, ?_, entry_of_lt images hlt⟩
    rw [Images.extend, Array.getElem?_append_left hlt, hj, box.displace_zero]
  · rw [← himages] at h
    obtain ⟨k, hk⟩ := Array.getElem?_of_mem h
    exact ⟨ys.size + k, entry_of_item hk⟩

/-- **No two entries** are the same point with the same shift. -/
theorem entry_inj {q' : Vec3 ℝ} (himages : images = box.imagesOf cutoff ys.toList)
    (he : (images.extend ys)[e]? = some q) (he' : (images.extend ys)[e']? = some q')
    (hpoint : pointBehind images ys.size e = pointBehind images ys.size e')
    (hshift : shiftOf images ys.size e = shiftOf images ys.size e') : e = e' := by
  have hne : ∀ c ∈ images.items, c.shift ≠ .replicate 0 := by
    intro c hc
    rw [himages] at hc
    obtain ⟨y, j, s, -, hs, rfl⟩ := Box.copy_of_mem_items hc
    exact hs.ne_zero
  -- the entries are at the same position
  have hq : q = q' := by
    obtain ⟨y, hy, hq, -⟩ := entry_of_get himages he
    obtain ⟨y', hy', hq', -⟩ := entry_of_get himages he'
    rw [hpoint, hy'] at hy
    rw [hq, hq', hshift, Option.some.inj hy]
  unfold pointBehind at hpoint
  unfold shiftOf at hshift
  rcases extend_cases he with ⟨h, -⟩ | ⟨c, h, hle, hc, hpos⟩ <;>
    rcases extend_cases he' with ⟨h', -⟩ | ⟨c', h', hle', hc', hpos'⟩ <;>
    rw [h, h'] at hpoint hshift
  · exact hpoint
  · exact absurd hshift.symm (hne c' (Array.mem_of_getElem? hc'))
  · exact absurd hshift (hne c (Array.mem_of_getElem? hc))
  · -- two images at the same position
    have hnodup : (images.items.toList.map Image.position).Nodup := by
      rw [himages]
      exact nodup_positions _
    have hget : ∀ (k : ℕ) (c : Image ℝ), images.items[k]? = some c →
        (images.items.toList.map Image.position)[k]? = some c.position := by
      intro k c hk
      rw [List.getElem?_map, Array.getElem?_toList, hk, Option.map_some]
    have h1 := hget _ c hc
    have h2 := hget _ c' hc'
    rw [hpos, hq, ← hpos'] at h1
    have hidx := (List.getElem?_inj (List.getElem?_eq_some_iff.1 h1).1 hnodup).1 (h1.trans h2.symm)
    omega

end Entries

variable {box : Box ℝ} {o : SearchOptions ℝ} {f : PairFilter} {points : PointSets ℝ}
  {l : NeighborList ℝ}

/-- The images that a periodic search looks at. -/
noncomputable def searchedImages (box : Box ℝ) (o : SearchOptions ℝ) (points : PointSets ℝ) :
    Images ℝ :=
  box.imagesOf (.replicate o.searchRadius) points.reference.toList

/-- The pairs of a query point within the search radius, in order. -/
noncomputable def periodicRow (box : Box ℝ) (o : SearchOptions ℝ) (f : PairFilter)
    (points : PointSets ℝ) (i : ℕ) (x : Vec3 ℝ) : List (Pair ℝ) :=
  let images := searchedImages box o points
  (((periodicSearch o f points images).rowByPairs i x).map
    (pairOfImage images points.reference.size i)).mergeSort precedes

/-- **A periodic list meets the precondition** of its search: the reference points come before their images. -/
theorem aligned_periodicSearch (box : Box ℝ) (o : SearchOptions ℝ) (f : PairFilter)
    (points : PointSets ℝ) :
    (periodicSearch o f points (searchedImages box o points)).Aligned points.query := by
  intro hid i p q hp hq
  have hself : points.reference? = none := by
    by_contra h
    simp [periodicSearch, h] at hid
  have href := PointSets.reference_of_none hself
  have hq : ((searchedImages box o points).extend points.reference)[i]? = some q := hq
  rw [href, Images.extend, Array.getElem?_append_left (Array.getElem?_eq_some_iff.1 hp).1, hp] at hq
  exact Option.some.inj hq

/-- **When a periodic list is built**, and which, in any arithmetic. -/
theorem periodic_eq_ok_iff {α : Type} [Scalar α] {box : Box α} {o : SearchOptions α} {query : Table α}
    {reference? : Option (Table α)} {l : NeighborList α} :
    (periodic box o query reference? f).result = .ok l ↔ o.validate = .ok () ∧ box.Covers query ∧
      (∀ p ∈ query.points, p.isFinite = true) ∧ (∀ t ∈ reference?, box.Covers t) ∧
      (∀ a ∈ box.dimension.axes, box.checkCutoff (.replicate o.searchRadius) a = .ok ()) ∧
      ∃ points images hits, points = ⟨query.points, reference?.map Table.points⟩ ∧
        f.Fits points.query.size points.reference.size ∧
        images = box.imagesOf (.replicate o.searchRadius) points.reference.toList ∧
        (∀ p ∈ images.extend points.reference, p.isFinite = true) ∧
        (periodicSearch o f points images).run box.dimension points.query = .ok hits ∧
        l = ofRows o f box.dimension points (some box) (hits.mapIdx fun i row =>
          (row.map (pairOfImage images points.reference.size i)).mergeSort precedes) := by
  have htables : ∀ {rs? : Option (Array (Vec3 α))}, reference?.mapM box.checkInside = .ok rs? ↔
      (∀ t ∈ reference?, box.Covers t) ∧ reference?.map Table.points = rs? :=
    option_mapM_eq_ok_iff fun t ps => Box.checkInside_eq_ok_iff
  have hpoints := PointSets.reference_map_points query reference?
  rw [result_periodic]
  simp only [bind_eq_ok_iff, pure_eq_ok_iff, Box.checkInside_eq_ok_iff, htables, Box.images_eq_ok_iff]
  constructor
  · rintro ⟨_, ho, _, ⟨hquery, rfl⟩, _, hqs, _, ⟨hrs, rfl⟩, _, hf, images, ⟨-, hcut, himages⟩, _,
      hfinite, hits, hhits, rfl⟩
    rw [← hpoints] at himages
    exact ⟨ho, hquery, PointSet.checkFinite_ok_iff.1 hqs, hrs, hcut, _, images, hits, rfl,
      PairFilter.validate_ok_iff.1 hf, himages.symm, PointSet.checkFinite_ok_iff.1 hfinite, hhits, rfl⟩
  · rintro ⟨ho, hquery, hqs, hrs, hcut, points, images, hits, rfl, hf, himages, hfinite, hhits, rfl⟩
    rw [hpoints] at himages
    exact ⟨(), ho, query.points, ⟨hquery, rfl⟩, (), PointSet.checkFinite_ok_iff.2 hqs, _, ⟨hrs, rfl⟩,
      (), PairFilter.validate_ok_iff.2 hf, images, ⟨hquery.getD hrs, hcut, himages.symm⟩, (),
      PointSet.checkFinite_ok_iff.2 hfinite, hits, hhits, rfl⟩

/-- **When a periodic list is built**, and which. -/
theorem periodic_ok_iff {query : Table ℝ} {reference? : Option (Table ℝ)} :
    (periodic box o query reference? f).result = .ok l ↔ o.Valid ∧ box.Admits query ∧
      (∀ t ∈ reference?, box.Admits t) ∧ box.AcceptsCutoff (.replicate o.searchRadius) ∧
      ∃ points : PointSets ℝ, points = ⟨query.points, reference?.map Table.points⟩ ∧
        f.Fits points.query.size points.reference.size ∧
        l = ofRows o f box.dimension points (some box)
          (points.query.mapIdx (periodicRow box o f points)) := by
  have hrun : ∀ points, o.Valid →
      (periodicSearch o f points (searchedImages box o points)).run box.dimension points.query =
        .ok (points.query.mapIdx
          (periodicSearch o f points (searchedImages box o points)).rowByPairs) :=
    fun points ho => Search.run_eq _ ho.searchRadius_pos (aligned_periodicSearch box o f points)
  simp only [periodic_eq_ok_iff, SearchOptions.validate_ok_iff, Box.covers_iff, Box.checkCutoff_ok_iff]
  constructor
  · rintro ⟨ho, hquery, -, hrs, hcut, points, images, hits, hpoints, hf, rfl, -, hhits, rfl⟩
    obtain rfl := Except.ok.inj ((hrun points ho).symm.trans hhits)
    refine ⟨ho, hquery, hrs, hcut, points, hpoints, hf, ?_⟩
    rw [Array.mapIdx_mapIdx]
    rfl
  · rintro ⟨ho, hquery, hrs, hcut, points, hpoints, hf, rfl⟩
    refine ⟨ho, hquery, fun p _ => p.isFinite_eq, hrs, hcut, points, searchedImages box o points, _,
      hpoints, hf, rfl, fun p _ => p.isFinite_eq, hrun points ho, ?_⟩
    rw [Array.mapIdx_mapIdx]
    rfl

/-- **Of a self list only the query point itself** is subject to the choice of self pairs, and not its
images. -/
theorem identity_iff {i e : ℕ} {x q : Vec3 ℝ} {images : Images ℝ}
    (himages : images = searchedImages box o points) (hx : points.query[i]? = some x)
    (he : (images.extend points.reference)[e]? = some q) :
    (i = e → (periodicSearch o f points images).identity ≠ some false) ↔
      (points.reference? = none → i = pointBehind images points.reference.size e →
        shiftOf images points.reference.size e = .replicate 0 → o.selfPairs = true) := by
  cases hr : points.reference? with
  | some r => simp [periodicSearch, hr]
  | none =>
    have href := PointSets.reference_of_none hr
    have hi : i < points.reference.size := by
      rw [href]
      exact (Array.getElem?_eq_some_iff.1 hx).1
    obtain ⟨hpoint, hshift⟩ := entry_of_lt images hi
    have hget : (images.extend points.reference)[i]? = some x := by
      rw [Images.extend, Array.getElem?_append_left hi, href, hx]
    -- the entry of the query point itself is its point without a shift
    have hentry : i = e ↔ i = pointBehind images points.reference.size e ∧
        shiftOf images points.reference.size e = .replicate 0 := by
      constructor
      · rintro rfl
        exact ⟨hpoint.symm, hshift⟩
      · intro h
        obtain ⟨h1, h2⟩ := h
        exact entry_inj himages hget he (hpoint.trans h1) (hshift.trans h2.symm)
    rw [hentry]
    simp [periodicSearch, hr]

/-- **The pairs of a periodic row** are those of the query point with the reference points and their
images within the search radius. -/
theorem mem_periodicRow {i : ℕ} {x : Vec3 ℝ} {p : Pair ℝ} (ho : o.Valid)
    (hx : points.query[i]? = some x) : p ∈ periodicRow box o f points i x ↔
      ∃ y, points.reference[p.second]? = some y ∧
        box.Offers (.replicate o.searchRadius) points.reference.toList p.second y p.shift ∧
        f.keep i p.second = true ∧ (box.displace p.shift y - x).norm < o.searchRadius ∧
        (points.reference? = none → i = p.second → p.shift = .replicate 0 → o.selfPairs = true) ∧
        p = pairTo i x p.second (box.displace p.shift y) p.shift := by
  obtain ⟨images, himages⟩ : ∃ images, images = searchedImages box o points := ⟨_, rfl⟩
  have hself : ∀ q, (periodicSearch o f points images).identity = some true →
      (periodicSearch o f points images).reference[i]? = some q → x = q := by
    intro q hid hq
    rw [himages] at hid hq
    exact aligned_periodicSearch box o f points hid i x q hx hq
  have hradius : 0 < (periodicSearch o f points images).cutoff := ho.searchRadius_pos
  unfold periodicRow
  simp only [List.mem_mergeSort, List.mem_map, ← himages, Search.mem_rowByPairs_iff hradius hself]
  constructor
  · intro h
    obtain ⟨h, ⟨q, hq, hk, hnear, hne, heq⟩, rfl⟩ := h
    obtain ⟨y, hy, rfl, hoffers⟩ := entry_of_get himages hq
    refine ⟨y, hy, hoffers, hk, hnear, (identity_iff himages hx hq).1 hne, ?_⟩
    rw [heq]
    rfl
  · intro h
    obtain ⟨y, hy, hoffers, hk, hnear, hne, heq⟩ := h
    obtain ⟨e, he, hpoint, hshift⟩ := exists_entry himages hy hoffers
    refine ⟨⟨e, (box.displace p.shift y - x).norm, box.displace p.shift y - x⟩,
      ⟨_, he, ?_, hnear, (identity_iff himages hx he).2 ?_, rfl⟩, ?_⟩
    · show f.keep i (pointBehind images points.reference.size e) = true
      rw [hpoint]
      exact hk
    · rw [hpoint, hshift]
      exact hne
    · rw [heq, pairOfImage, hpoint, hshift]
      rfl

section Order

theorem lexLE_trans {as bs cs : List ℤ} (h1 : lexLE as bs = true) (h2 : lexLE bs cs = true) :
    lexLE as cs = true := by
  induction as generalizing bs cs with
  | nil => rfl
  | cons a as ih =>
    cases bs with
    | nil => exact absurd h1 Bool.false_ne_true
    | cons b bs =>
      cases cs with
      | nil => exact absurd h2 Bool.false_ne_true
      | cons c cs =>
        simp only [lexLE, Bool.or_eq_true, Bool.and_eq_true, decide_eq_true_eq] at h1 h2 ⊢
        rcases h1 with h1 | ⟨rfl, h1⟩
        · exact .inl (h2.elim h1.trans fun h2 => h2.1 ▸ h1)
        · exact h2.imp_right fun h2 => ⟨h2.1, ih h1 h2.2⟩

theorem lexLE_total (as bs : List ℤ) : (lexLE as bs || lexLE bs as) = true := by
  induction as generalizing bs with
  | nil => rfl
  | cons a as ih =>
    cases bs with
    | nil => rfl
    | cons b bs =>
      have hrest := ih bs
      simp only [lexLE, Bool.or_eq_true, Bool.and_eq_true, decide_eq_true_eq] at hrest ⊢
      rcases lt_trichotomy a b with h | h | h
      · exact .inl (.inl h)
      · exact hrest.imp (fun hr => .inr ⟨h, hr⟩) fun hr => .inr ⟨h.symm, hr⟩
      · exact .inr (.inl h)

theorem second_le_of_precedes {α : Type} {p q : Pair α} (h : precedes p q = true) : p.second ≤ q.second := by
  simp only [precedes, lexLE, Bool.or_eq_true, Bool.and_eq_true, decide_eq_true_eq] at h
  omega

end Order

/-- **A periodic row is strictly sorted** by the reference points: no two copies of a point are within
half of each periodic length. -/
theorem pairwise_periodicRow {i : ℕ} {x : Vec3 ℝ} (ho : o.Valid)
    (hcut : box.AcceptsCutoff (.replicate o.searchRadius)) (hx : points.query[i]? = some x) :
    (periodicRow box o f points i x).Pairwise fun p q => p.second < q.second := by
  -- one shift for each reference point
  have hshift : ∀ p ∈ periodicRow box o f points i x, ∀ q ∈ periodicRow box o f points i x,
      p.second = q.second → p.shift = q.shift := by
    intro p hp q hq hpq
    obtain ⟨y, hy, hoffers, -, hnear, -⟩ := (mem_periodicRow ho hx).1 hp
    obtain ⟨y', hy', hoffers', -, hnear', -⟩ := (mem_periodicRow ho hx).1 hq
    rw [hpq, hy'] at hy
    obtain rfl := Option.some.inj hy
    exact Box.shift_unique hcut ho.searchRadius_pos hoffers.supports hoffers'.supports hnear hnear'
  have hsorted : (periodicRow box o f points i x).Pairwise fun p q => precedes p q = true :=
    @List.pairwise_mergeSort _ precedes (fun _ _ _ => lexLE_trans) (fun _ _ => lexLE_total _ _) _
  have hnodup : (periodicRow box o f points i x).Pairwise fun p q => p.second ≠ q.second := by
    have hperm := List.mergeSort_perm (((periodicSearch o f points
      (searchedImages box o points)).rowByPairs i x).map
        (pairOfImage (searchedImages box o points) points.reference.size i)) precedes
    refine (hperm.pairwise_iff fun h => Ne.symm h).2 (List.pairwise_map.2 ?_)
    refine (List.Pairwise.and_mem.1 (Search.pairwise_rowByPairs _ i x)).imp ?_
    rintro g h ⟨hg, hh, hlt⟩ heq
    -- two entries of the same point, which have the same shift, are one entry
    have hgh := hshift _ (hperm.mem_iff.2 (List.mem_map_of_mem hg)) _
      (hperm.mem_iff.2 (List.mem_map_of_mem hh)) heq
    obtain ⟨e, q, hq, hge⟩ := Search.mem_rowByPairs.1 hg
    obtain ⟨e', q', hq', hhe⟩ := Search.mem_rowByPairs.1 hh
    rw [← Search.second_of_hit hge] at hq
    rw [← Search.second_of_hit hhe] at hq'
    exact hlt.ne (entry_inj rfl hq hq' heq hgh)
  exact (hsorted.and hnodup).imp fun h => lt_of_le_of_ne (second_le_of_precedes h.1) h.2

end NeighborList

end SmoothedParticles
