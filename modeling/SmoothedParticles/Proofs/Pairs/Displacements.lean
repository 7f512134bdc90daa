import SmoothedParticles.Proofs.Pairs.UpdateRuns

/-!
# What displacements are measured from

With a skin, displacements are measured from the points of the last full search. Without one, they are
measured from the points of the list itself. An update that computes known pairs again replaces these, so
that a point it did not look at can have moved without being noticed by any later update.

* `IsPeriod`, `norm_nearestIn_le_zero_iff`: a separation with a vanishing nearest image is a whole number
  of box lengths along periodic axes.
* `staysWithin_zero_iff`: points that have not moved leave it open where they were before.
* `staysWithin_searched_iff`: an update that looks at all points and computes known pairs again bounds the
  displacement **since the last full search exactly if** there is a skin, or the list had not moved since.
* `unnoticed_displacement`: a point that moves unnoticed, without a skin.
-/

namespace SmoothedParticles.NeighborList

/-- The length of the box along an axis; without a box it is zero. -/
noncomputable def lengthIn (box? : Option (Box ℝ)) (a : Axis) : ℝ := box?.elim 0 fun box => box.length a

/-- Is the vector a whole number of box lengths along periodic axes, and zero along the others? -/
def IsPeriod (box? : Option (Box ℝ)) (v : Vec3 ℝ) : Prop :=
  ∀ a, ∃ n : ℤ, v.get a = n * lengthIn box? a ∧ (n ≠ 0 → ∃ box ∈ box?, box.periodic.get a = true)

variable {box? : Option (Box ℝ)} {o : SearchOptions ℝ} {f : PairFilter}
  {searched old middle new : PointSets ℝ} {l l' : NeighborList ℝ} {query : Table ℝ}
  {reference? : Option (Table ℝ)} {tolerance : ℝ} {samples : ℕ} {u v w : Vec3 ℝ}

/-- Whole numbers of box lengths can be added and subtracted. -/
theorem IsPeriod.add_mul (hu : IsPeriod box? u) (hw : IsPeriod box? w) (c : ℤ)
    (h : ∀ a, v.get a = u.get a + c * w.get a) : IsPeriod box? v := by
  intro a
  obtain ⟨n, hn, hper⟩ := hu a
  obtain ⟨m, hm, hper'⟩ := hw a
  refine ⟨n + c * m, ?_, fun hne => ?_⟩
  · rw [h, hn, hm]
    push_cast
    ring
  · by_cases hzero : n = 0
    · exact hper' fun hm => hne (by rw [hzero, hm, mul_zero, add_zero])
    · exact hper hzero

/-- Along a periodic axis, exactly the multiples of the length have a vanishing nearest image. -/
theorem nearestImage_eq_zero_iff {length x : ℝ} (hlength : 0 < length) :
    nearestImage length x = 0 ↔ ∃ n : ℤ, x = n * length := by
  show x - nearestWhole (x / length) * length = 0 ↔ _
  constructor
  · intro h
    exact ⟨_, sub_eq_zero.1 h⟩
  · rintro ⟨n, rfl⟩
    rw [mul_div_cancel_right₀ _ hlength.ne', nearestWhole_intCast, sub_self]

/-- **A separation with a vanishing nearest image** is a whole number of box lengths along periodic
axes. -/
theorem norm_nearestIn_le_zero_iff : (nearestIn box? v).norm ≤ 0 ↔ IsPeriod box? v := by
  rw [Vec3.norm_le_zero_iff]
  refine forall_congr' fun a => ?_
  -- away from periodic axes, the whole number is zero
  have hother : (¬∃ box ∈ box?, box.periodic.get a = true) → (v.get a = 0 ↔ ∃ n : ℤ,
      v.get a = n * lengthIn box? a ∧ (n ≠ 0 → ∃ box ∈ box?, box.periodic.get a = true)) := by
    intro hnone
    constructor
    · intro h
      exact ⟨0, by rw [h, Int.cast_zero, zero_mul], fun hne => absurd rfl hne⟩
    · rintro ⟨n, hn, hper⟩
      rw [hn, not_imp_comm.1 hper hnone, Int.cast_zero, zero_mul]
  cases hbox : box? with
  | none =>
    rw [hbox] at hother
    exact hother fun ⟨box, hmem, _⟩ => Option.not_mem_none box hmem
  | some box =>
    rw [hbox] at hother
    show (box.nearestImage v).get a = 0 ↔ _
    rw [Box.nearestImage, Vec3.get_ofFn]
    split_ifs with hper
    · rw [nearestImage_eq_zero_iff (Box.length_pos_of_periodic hper)]
      exact exists_congr fun n => (and_iff_left fun _ => ⟨box, rfl, hper⟩).symm
    · refine hother ?_
      rintro ⟨b, hb, hper'⟩
      rw [← Option.some.inj hb] at hper'
      exact hper hper'

theorem nearOld_zero_iff {olds middles news : Array (Vec3 ℝ)} (hsize : news.size = middles.size)
    (h : NearOld box? 0 middles news) : NearOld box? 0 olds news ↔ NearOld box? 0 olds middles := by
  constructor
  · intro hnew i y hy
    have hlt : i < news.size := by
      rw [hsize]
      exact (Array.getElem?_eq_some_iff.1 hy).1
    obtain ⟨z, hz⟩ : ∃ z, news[i]? = some z := ⟨_, Array.getElem?_eq_getElem hlt⟩
    obtain ⟨y', hy', hle⟩ := h i z hz
    obtain rfl := Option.some.inj (hy.symm.trans hy')
    obtain ⟨x, hx, hle'⟩ := hnew i z hz
    rw [norm_nearestIn_le_zero_iff] at hle hle'
    refine ⟨x, hx, norm_nearestIn_le_zero_iff.2 (hle'.add_mul hle (-1) fun a => ?_)⟩
    simp only [Vec3.get_sub]
    push_cast
    ring
  · intro hmiddle i z hz
    obtain ⟨y, hy, hle⟩ := h i z hz
    obtain ⟨x, hx, hle'⟩ := hmiddle i y hy
    rw [norm_nearestIn_le_zero_iff] at hle hle'
    refine ⟨x, hx, norm_nearestIn_le_zero_iff.2 (hle.add_mul hle' 1 fun a => ?_)⟩
    simp only [Vec3.get_sub]
    push_cast
    ring

/-- **Points that have not moved** are where they were before exactly if they already were there. -/
theorem staysWithin_zero_iff (hshape : SameShape middle new) (h : StaysWithin box? 0 middle new) :
    StaysWithin box? 0 old new ↔ StaysWithin box? 0 old middle := by
  have hq := @nearOld_zero_iff box? old.query _ _ hshape.query h.query
  have hr := @nearOld_zero_iff box? old.reference _ _ hshape.reference h.reference
  exact ⟨fun hs => ⟨hq.1 hs.query, hr.1 hs.reference⟩, fun hs => ⟨hq.2 hs.query, hr.2 hs.reference⟩⟩

/-- **What an update says about the displacement since the last full search**, if it looks at all points
and computes known pairs again. With a skin, no point is further away than the tolerance and half of the
skin. Without one, no point has moved since the update before, and none since the last full search exactly
if none had until then. -/
theorem staysWithin_searched_iff (hrun : UpdateRun box? o f searched l)
    (hupdate : (l.update query reference? tolerance samples).result = .ok (l', .revalidated))
    (hquery : query.size ≤ samples) (hreference : ∀ t ∈ reference?, t.size ≤ samples) :
    (StaysWithin box? (min tolerance (o.skin / 2)) searched l'.points ↔
      0 < o.skin ∨ StaysWithin box? 0 searched l.points) ∧
    (o.skin = 0 → StaysWithin box? 0 l.points l'.points) := by
  have h := hrun.searchedAt
  have hbase := h.staysWithin_baseline hupdate hquery hreference
  rw [h.points_baseline] at hbase
  by_cases hskin : 0 < o.skin
  · rw [if_pos hskin] at hbase
    exact ⟨iff_of_true hbase (.inl hskin), fun hzero => absurd hzero hskin.ne'⟩
  · rw [if_neg hskin] at hbase
    have hzero : o.skin = 0 := le_antisymm (not_lt.1 hskin) h.valid.skin_nonneg
    have hthreshold : min tolerance (o.skin / 2) = 0 := by
      rw [hzero, zero_div, min_eq_right (tolerance_nonneg_of_update hupdate)]
    obtain ⟨new, -, hshape, hpoints, -⟩ := h.update_cases hupdate
    rw [← hpoints] at hshape
    rw [hthreshold] at hbase ⊢
    exact ⟨(staysWithin_zero_iff hshape hbase).trans (or_iff_right hskin).symm, fun _ => hbase⟩

/-- A point that crosses a face of a square is not far from where it was at the last full search. -/
theorem staysWithin_searched_iff_crossing :
    let box := Box.square 8 (by norm_num) true
    let o : SearchOptions ℝ := ⟨5 / 2, false, 1 / 2⟩
    let t : Table ℝ := ⟨2, #[#v[1 / 8, 4], #v[7, 4]]⟩
    let t' : Table ℝ := ⟨2, #[#v[63 / 8, 4], #v[7, 4]]⟩
    ∃ start l l', (periodic box o t none .keepAll).result = .ok start ∧
      (start.update t' none 1 1).result = .ok (l, .revalidated) ∧
      UpdateRun (some box) o .keepAll start.points l ∧
      (l.update t' none 1 2).result = .ok (l', .revalidated) ∧
      StaysWithin (some box) (1 / 4) start.points l'.points := by
  intro box o t t'
  have hskin : 0 < o.skin := by norm_num [o]
  have ho : o.Valid := ⟨by norm_num [o], hskin.le⟩
  have hpoints : t.points = #[⟨1 / 8, 4, 0⟩, ⟨7, 4, 0⟩] := by simp [t, Table.points, Vec3.ofList]
  have hpoints' : t'.points = #[⟨63 / 8, 4, 0⟩, ⟨7, 4, 0⟩] := by
    simp [t', Table.points, Vec3.ofList]
  have ht : box.Admits t := by
    refine Box.admits_square.2 ?_
    simp only [List.mem_toArray, List.forall_mem_cons, Vector.getElem_mk, List.getElem_toArray,
      List.getElem_cons_zero, List.getElem_cons_succ]
    norm_num
  have ht' : box.Admits t' := by
    refine Box.admits_square.2 ?_
    simp only [List.mem_toArray, List.forall_mem_cons, Vector.getElem_mk, List.getElem_toArray,
      List.getElem_cons_zero, List.getElem_cons_succ]
    norm_num
  have hcut : box.AcceptsCutoff (.replicate o.searchRadius) :=
    Box.acceptsCutoff_square ho.searchRadius_pos (by norm_num [o, SearchOptions.searchRadius])
  have hquarter : min 1 (o.skin / 2) = 1 / 4 := by norm_num [o]
  have hnear : ∀ samples, ∀ i ∈ sampledIndexes t'.points.size samples, (nearestIn (some box)
      (t'.points.getD i .zero - t.points.getD i .zero)).norm ≤ min 1 (o.skin / 2) := by
    intro samples i hi
    have hi : i < 2 := by
      rw [hpoints'] at hi
      exact lt_of_mem_sampledIndexes hi
    rw [hquarter, hpoints, hpoints']
    interval_cases i
    · -- the plain separation is almost the whole length of the box
      have hsub : (⟨63 / 8, 4, 0⟩ : Vec3 ℝ) - ⟨1 / 8, 4, 0⟩ = ⟨31 / 4, 0, 0⟩ :=
        Vec3.ext_get fun a => by rw [Vec3.get_sub]; cases a <;> norm_num [Vec3.get]
      have hround : nearestWhole (31 / 4 / 8) = 1 := by
        rw [nearestWhole, if_pos (by norm_num), Int.floor_eq_iff]
        norm_num
      show (box.nearestImage (⟨63 / 8, 4, 0⟩ - ⟨1 / 8, 4, 0⟩)).norm ≤ 1 / 4
      rw [hsub, norm_nearestImage_square_le (by norm_num), hround, zero_div, nearestWhole_zero]
      norm_num
    · show (nearestIn (some box) (⟨7, 4, 0⟩ - ⟨7, 4, 0⟩)).norm ≤ 1 / 4
      rw [norm_nearestIn_sub_self]
      norm_num
  obtain ⟨start, hstart, hd, hp⟩ : ∃ start, (periodic box o t none .keepAll).result = .ok start ∧
      start.dimension = .two ∧ start.points = ⟨t.points, none⟩ :=
    ⟨_, periodic_ok_iff.2 ⟨ho, ht, forall_mem_none, hcut, _, rfl, trivial, rfl⟩, dimension_ofRows,
      points_ofRows⟩
  have hrun : UpdateRun (some box) o .keepAll start.points start :=
    @UpdateRun.built (some box) _ _ _ _ _ hstart
  have hself : start.points.reference? = none := by rw [hp]
  have hfirst : (start.update t' none 1 1).result =
      .ok (start.revalidate ⟨t'.points, none⟩, .revalidated) := by
    refine hrun.searchedAt.update_revalidated hself zero_le_one one_ne_zero ?_ (fun b hb => ?_) ?_
    · rw [hp, hd, hpoints]
      rfl
    · rw [← Option.some.inj hb]
      exact ht'
    · rw [hrun.searchedAt.points_baseline, if_pos hskin, hp]
      exact hnear 1
  have hrun' := hrun.revalidated hfirst
  have hsecond := hrun.searchedAt.update_again hself hfirst two_ne_zero fun _ => by
    rw [hp]
    exact hnear 2
  obtain ⟨hiff, -⟩ := staysWithin_searched_iff hrun' hsecond le_rfl forall_mem_none
  rw [hquarter] at hiff
  exact ⟨start, _, _, hstart, hfirst, hrun', hsecond, hiff.2 (.inl hskin)⟩

/-- **A displacement that is never noticed.** Without a skin, the first update looks at one of two points
only, and computes known pairs again although the other one has moved. The second update looks at both of
them, and does so too. -/
theorem unnoticed_displacement :
    let o : SearchOptions ℝ := ⟨1, false, 0⟩
    let t : Table ℝ := ⟨2, #[#v[0, 0], #v[5, 0]]⟩
    let t' : Table ℝ := ⟨2, #[#v[0, 0], #v[1 / 2, 0]]⟩
    ∃ start l l', (direct o t none .keepAll).result = .ok start ∧
      (start.update t' none 1 1).result = .ok (l, .revalidated) ∧
      UpdateRun none o .keepAll start.points l ∧
      (l.update t' none 1 2).result = .ok (l', .revalidated) ∧ t'.size = 2 ∧
      ¬StaysWithin none (min 1 (o.skin / 2)) start.points l'.points := by
  intro o t t'
  have ho : o.Valid := ⟨one_pos, le_rfl⟩
  have hpoints : t.points = #[⟨0, 0, 0⟩, ⟨5, 0, 0⟩] := by simp [t, Table.points, Vec3.ofList]
  have hpoints' : t'.points = #[⟨0, 0, 0⟩, ⟨1 / 2, 0, 0⟩] := by simp [t', Table.points, Vec3.ofList]
  have hthreshold : min 1 (o.skin / 2) = 0 := by norm_num [o]
  obtain ⟨start, hstart, hd, hp⟩ := exists_direct_self (t := t) ho rfl
  have hrun : UpdateRun none o .keepAll start.points start :=
    @UpdateRun.built none _ _ _ _ _ hstart
  have hself : start.points.reference? = none := by rw [hp]
  have hfirst : (start.update t' none 1 1).result =
      .ok (start.revalidate ⟨t'.points, none⟩, .revalidated) := by
    refine hrun.searchedAt.update_revalidated hself zero_le_one one_ne_zero ?_ forall_mem_none ?_
    · rw [hp, hd, hpoints]
      rfl
    · intro i hi
      rw [hrun.searchedAt.points_baseline, if_neg (lt_irrefl _), hp, hpoints, hpoints', hthreshold]
      rw [hpoints'] at hi
      have hi : i = 0 := by simpa [sampledIndexes] using hi
      rw [hi]
      exact (norm_nearestIn_sub_self none ⟨0, 0, 0⟩).le
  refine ⟨start, _, _, hstart, hfirst, hrun.revalidated hfirst,
    hrun.searchedAt.update_again hself hfirst two_ne_zero fun h => absurd h (lt_irrefl _), rfl, ?_⟩
  intro hstays
  obtain ⟨x, hx, hle⟩ := hstays.query 1 ⟨1 / 2, 0, 0⟩ (by
    show t'.points[1]? = _
    rw [hpoints']
    rfl)
  rw [hp, hpoints] at hx
  obtain rfl : ⟨5, 0, 0⟩ = x := Option.some.inj hx
  rw [hthreshold, Vec3.norm_le_zero_iff] at hle
  have hzero : (1 / 2 : ℝ) - 5 = 0 := hle .x
  norm_num at hzero

end SmoothedParticles.NeighborList
