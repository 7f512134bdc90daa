import SmoothedParticles.Proofs.Pairs.Merging
import SmoothedParticles.Proofs.Pairs.OnePass

/-!
# Parts by types

A list is split by the types of the points of its pairs. Nothing is lost or added, and the rows stay in order:
merging the parts gives the list back, in any arithmetic, for every list that arises.

* `HasTypes`, `typesOf_eq_iff`: the pairs with two types.
* `filterPart_congr`, `filterPart_filterPart`: parts are known by the pairs that they keep.
* `get?_of_partition`, `same_of_partition`, `cross_of_partition`: **the parts of a list**.
* `merge_byTypes`, `merge_same_cross`, `onePass_of_partition`, `partition_again`: what they make together, how
  they are filled, and what becomes of them when they are split again.
* `partition_lossless`: **a split loses nothing and keeps the order**.
-/

namespace SmoothedParticles.NeighborList

variable {α : Type} [Scalar α] {l part : NeighborList α} {types rtypes : Array ℤ}
  {referenceTypes? : Option (Array ℤ)} {parts : TypePartition α} {p : Pair α} {t : ℤ × ℤ}

section Types

/-- Have the query point and the reference point of a pair the two types? -/
def HasTypes (types rtypes : Array ℤ) (t : ℤ × ℤ) (p : Pair α) : Prop :=
  types[p.first]? = some t.1 ∧ rtypes[p.second]? = some t.2

instance : Decidable (HasTypes types rtypes t p) := inferInstanceAs (Decidable (_ ∧ _))

/-- **A type for each point of a list.** -/
structure Typed (l : NeighborList α) (types rtypes : Array ℤ) : Prop where
  query : types.size = l.nQuery
  reference : rtypes.size = l.nReference

theorem typed_of_partition (hl : Ordered l) (h : l.partition types referenceTypes? = .ok parts) :
    Typed l types (referenceTypes?.getD types) := by
  obtain ⟨hquery, hsides, hreference, -⟩ := partition_ok_iff.1 h
  refine ⟨hquery, ?_⟩
  cases referenceTypes? with
  | some given => exact hreference given rfl
  | none =>
    have hself : l.points.reference? = none :=
      Option.not_isSome_iff_eq_none.1 fun hsome => Bool.false_ne_true (hsides.2 hsome)
    rw [Option.getD_none, hquery, nReference, PointSets.reference_of_none hself]
    exact hl.rows.size

theorem hasTypes_typesOf (hl : Ordered l) (ht : Typed l types rtypes) (hp : p ∈ l.pairs) :
    HasTypes types rtypes (typesOf types rtypes p) p := by
  obtain ⟨i, row, hrow, hp⟩ := mem_pairs_iff.1 hp
  obtain ⟨hfirst, hsecond⟩ := hl.rows.indexed i row hrow p hp
  have hi : p.first < types.size := by
    rw [hfirst, ht.query]
    exact (Array.getElem?_eq_some_iff.1 hrow).1
  have hj : p.second < rtypes.size := by
    rw [ht.reference]
    exact hsecond
  unfold HasTypes typesOf
  rw [Array.getD_eq_getD_getElem?, Array.getD_eq_getD_getElem?, Array.getElem?_eq_getElem hi,
    Array.getElem?_eq_getElem hj]
  exact ⟨rfl, rfl⟩

theorem typesOf_eq_iff (hl : Ordered l) (ht : Typed l types rtypes) (hp : p ∈ l.pairs) :
    typesOf types rtypes p = t ↔ HasTypes types rtypes t p := by
  have hown := hasTypes_typesOf hl ht hp
  constructor
  · rintro rfl
    exact hown
  · rintro ⟨h1, h2⟩
    exact Prod.ext (Option.some.inj (hown.1.symm.trans h1)) (Option.some.inj (hown.2.symm.trans h2))

/-- A part is known by which pairs of the list it keeps. -/
theorem filterPart_congr {keep keep' : Pair α → Bool} (h : ∀ p ∈ l.pairs, keep p = keep' p) :
    l.filterPart keep = l.filterPart keep' := by
  have hrows : l.rows.map (·.filter keep) = l.rows.map (·.filter keep') := by
    refine Array.map_congr_left fun row hrow => List.filter_congr fun p hp => h p ?_
    obtain ⟨i, hi⟩ := Array.getElem?_of_mem hrow
    exact mem_pairs_iff.2 ⟨i, row, hi, hp⟩
  unfold filterPart
  rw [hrows]

/-- A part of a part is a part. -/
theorem filterPart_filterPart (keep keep' : Pair α → Bool) :
    (l.filterPart keep).filterPart keep' = l.filterPart fun p => keep p && keep' p := by
  have hrows : (l.rows.map (·.filter keep)).map (·.filter keep') =
      l.rows.map (·.filter fun p => keep p && keep' p) := by
    rw [Array.map_map]
    refine Array.map_congr_left fun row _ => ?_
    rw [Function.comp_apply, List.filter_filter]
    exact List.filter_congr fun p _ => Bool.and_comm _ _
  unfold filterPart
  rw [← hrows]
  rfl

theorem nodup_eraseDups {β : Type} [BEq β] [LawfulBEq β] (xs : List β) : xs.eraseDups.Nodup := by
  -- on the length: what is left after the first member is shorter, but not the rest of the list
  induction hn : xs.length using Nat.strong_induction_on generalizing xs with
  | _ n ih =>
    cases xs with
    | nil => exact List.nodup_nil
    | cons a xs =>
      rw [List.eraseDups_cons, List.nodup_cons, List.mem_eraseDups]
      refine ⟨by simp, ih _ ?_ _ rfl⟩
      rw [← hn, List.length_cons]
      exact Nat.lt_succ_of_le (List.length_filter_le _ _)

/-- The types of the pairs of a list, each one once. -/
def presentTypes (l : NeighborList α) (types rtypes : Array ℤ) : List (ℤ × ℤ) :=
  (l.pairs.map (typesOf types rtypes)).eraseDups.mergeSort typesPrecede

theorem mem_presentTypes : t ∈ l.presentTypes types rtypes ↔
    t ∈ l.pairs.map (typesOf types rtypes) := by
  rw [presentTypes, List.mem_mergeSort, List.mem_eraseDups]

theorem nodup_presentTypes (l : NeighborList α) (types rtypes : Array ℤ) :
    (l.presentTypes types rtypes).Nodup :=
  (List.mergeSort_perm _ _).nodup_iff.2 (nodup_eraseDups _)

/-- **The part with two types**, if there is a pair with these types. -/
theorem get?_splitByTypes : (l.splitByTypes types rtypes).get? t.1 t.2 =
    if t ∈ l.pairs.map (typesOf types rtypes) then
      some (l.filterPart fun p => typesOf types rtypes p = t) else none := by
  split_ifs with ht
  · exact List.lookup_graph (fun t => l.filterPart fun p => typesOf types rtypes p = t)
      (mem_presentTypes.2 ht)
  · refine List.lookup_eq_none_iff.2 fun entry hentry => bne_iff_ne.2 fun heq => ht ?_
    obtain ⟨u, hu, rfl⟩ := List.mem_map.1 hentry
    obtain rfl : t = u := heq
    exact mem_presentTypes.1 hu

end Types

section Parts

/-- All parts keep some of the pairs of the list, and the points of it. -/
theorem exists_keep (h : l.partition types referenceTypes? = .ok parts)
    (hpart : part ∈ parts.same :: parts.cross :: parts.byTypes.map Prod.snd) :
    ∃ keep, part = l.filterPart keep := by
  obtain ⟨-, -, -, rfl⟩ := partition_ok_iff.1 h
  rcases List.mem_cons.1 hpart with rfl | hpart
  · exact ⟨_, rfl⟩
  rcases List.mem_cons.1 hpart with rfl | hpart
  · exact ⟨_, rfl⟩
  obtain ⟨_, hentry, rfl⟩ := List.mem_map.1 hpart
  obtain ⟨t, -, rfl⟩ := List.mem_map.1 hentry
  exact ⟨_, rfl⟩

variable (hl : Ordered l) (h : l.partition types referenceTypes? = .ok parts)

include hl h

/-- **The part with two types** is there if a pair has these types, and has all pairs of this kind. -/
theorem get?_of_partition {a b : ℤ} : parts.get? a b = some part ↔
    (∃ p ∈ l.pairs, HasTypes types (referenceTypes?.getD types) (a, b) p) ∧
      part = l.filterPart fun p => HasTypes types (referenceTypes?.getD types) (a, b) p := by
  have ht := typed_of_partition hl h
  obtain ⟨-, -, -, rfl⟩ := partition_ok_iff.1 h
  have hkeep : (l.filterPart fun p => typesOf types (referenceTypes?.getD types) p = (a, b)) =
      l.filterPart fun p => HasTypes types (referenceTypes?.getD types) (a, b) p :=
    filterPart_congr fun p hp => decide_eq_decide.2 (typesOf_eq_iff hl ht hp)
  rw [get?_splitByTypes (t := (a, b)), hkeep, Option.ite_none_right_eq_some, List.mem_map,
    Option.some.injEq, eq_comm (a := part)]
  refine and_congr_left fun _ => exists_congr fun p => and_congr_right fun hp => ?_
  exact typesOf_eq_iff hl ht hp

theorem same_of_partition : parts.same =
    l.filterPart fun p => types[p.first]? = (referenceTypes?.getD types)[p.second]? := by
  have ht := typed_of_partition hl h
  obtain ⟨-, -, -, rfl⟩ := partition_ok_iff.1 h
  refine filterPart_congr fun p hp => decide_eq_decide.2 ?_
  rw [(hasTypes_typesOf hl ht hp).1, (hasTypes_typesOf hl ht hp).2, Option.some.injEq]

theorem cross_of_partition : parts.cross =
    l.filterPart fun p => types[p.first]? ≠ (referenceTypes?.getD types)[p.second]? := by
  have ht := typed_of_partition hl h
  obtain ⟨-, -, -, rfl⟩ := partition_ok_iff.1 h
  refine filterPart_congr fun p hp => decide_eq_decide.2 ?_
  rw [(hasTypes_typesOf hl ht hp).1, (hasTypes_typesOf hl ht hp).2, Ne, Ne, Option.some.injEq]

/-- **One pass over all pairs** fills the rows of all parts. -/
theorem onePass_of_partition :
    onePass l.nQuery (typesOf types (referenceTypes?.getD types)) l.pairs =
      ⟨fun t => (parts.get? t.1 t.2).map NeighborList.rows, parts.same.rows, parts.cross.rows⟩ := by
  obtain ⟨-, -, -, rfl⟩ := partition_ok_iff.1 h
  rw [onePass_eq, PartRows.mk.injEq]
  refine ⟨funext fun t => ?_, rowsOf_pairs hl _, rowsOf_pairs hl _⟩
  rw [get?_splitByTypes, rowsOf_pairs hl]
  split_ifs <;> rfl

/-- The parts by types merge to the whole list. -/
theorem merge_byTypes : mergedRows l.nQuery (parts.byTypes.map Prod.snd) = l.rows := by
  obtain ⟨-, -, -, rfl⟩ := partition_ok_iff.1 h
  let c := typesOf (α := α) types (referenceTypes?.getD types)
  have hparts : (l.splitByTypes types (referenceTypes?.getD types)).byTypes.map Prod.snd =
      (l.presentTypes types (referenceTypes?.getD types)).map fun t => l.filterPart fun p => c p = t :=
    List.map_map
  rw [hparts]
  refine merge_parts hl (nodup_presentTypes _ _ _) (fun p hp => ?_) fun p q hfirst hsecond => ?_
  · exact mem_presentTypes.2 (List.mem_map_of_mem hp)
  · show typesOf _ _ p = typesOf _ _ q
    rw [typesOf, typesOf, hfirst, hsecond]

/-- So do the parts with equal and with different types. -/
theorem merge_same_cross : mergedRows l.nQuery [parts.same, parts.cross] = l.rows := by
  obtain ⟨-, -, -, rfl⟩ := partition_ok_iff.1 h
  let c := typesOf (α := α) types (referenceTypes?.getD types)
  let equal (p : Pair α) : Bool := (c p).1 = (c p).2
  have hcross : (l.splitByTypes types (referenceTypes?.getD types)).cross =
      l.filterPart fun p => equal p = false :=
    filterPart_congr fun p _ => decide_eq_decide.2 decide_eq_false_iff_not.symm
  have hsame : (l.splitByTypes types (referenceTypes?.getD types)).same =
      l.filterPart fun p => equal p = true :=
    filterPart_congr fun p _ => decide_eq_decide.2 decide_eq_true_iff.symm
  rw [hcross, hsame]
  show mergedRows l.nQuery ([true, false].map fun b => l.filterPart fun p => equal p = b) = l.rows
  refine merge_parts hl (by decide) (fun p _ => ?_) fun p q hfirst hsecond => ?_
  · cases equal p <;> simp
  · show decide _ = decide _
    rw [show c p = c q by simp only [c, typesOf, hfirst, hsecond]]

/-- **A part with two types, split again**, is its own only part by types. -/
theorem partition_again {a b : ℤ} (hpart : parts.get? a b = some part) :
    ∃ again, part.partition types referenceTypes? = .ok again ∧ again.byTypes = [((a, b), part)] := by
  have ht := typed_of_partition hl h
  obtain ⟨⟨p, hp, htypes⟩, rfl⟩ := (get?_of_partition hl h).1 hpart
  obtain ⟨hquery, hsides, hreference, -⟩ := partition_ok_iff.1 h
  have hsize : ∀ keep, (l.filterPart keep).nQuery = l.nQuery := fun _ => Array.size_map ..
  refine ⟨_, partition_ok_iff.2 ⟨hquery.trans (hsize _).symm, hsides, hreference, rfl⟩, ?_⟩
  generalize hkeep : (fun p : Pair α => decide (HasTypes types (referenceTypes?.getD types) (a, b) p)) =
    keep
  have hmem : ∀ q ∈ (l.filterPart keep).pairs, typesOf types (referenceTypes?.getD types) q = (a, b) := by
    intro q hq
    rw [pairs_filterPart, List.mem_filter, ← hkeep] at hq
    exact (typesOf_eq_iff hl ht hq.1).2 (of_decide_eq_true hq.2)
  have hpresent : (l.filterPart keep).presentTypes types (referenceTypes?.getD types) = [(a, b)] := by
    refine List.perm_singleton.1 ((List.perm_ext_iff_of_nodup (nodup_presentTypes _ _ _)
      (List.nodup_singleton _)).2 fun t => ?_)
    rw [mem_presentTypes, List.mem_map, List.mem_singleton]
    constructor
    · rintro ⟨q, hq, rfl⟩
      exact hmem q hq
    · rintro rfl
      refine ⟨p, ?_, (typesOf_eq_iff hl ht hp).2 htypes⟩
      rw [pairs_filterPart, List.mem_filter, ← hkeep]
      exact ⟨hp, decide_eq_true htypes⟩
  have hall : ((l.filterPart keep).filterPart fun q =>
      typesOf types (referenceTypes?.getD types) q = (a, b)) = l.filterPart keep := by
    rw [filterPart_filterPart]
    refine filterPart_congr fun q hq => ?_
    cases hk : keep q with
    | false => rfl
    | true =>
      refine (Bool.true_and _).trans (decide_eq_true (hmem q ?_))
      rw [pairs_filterPart, List.mem_filter]
      exact ⟨hq, hk⟩
  show ((l.filterPart keep).presentTypes types (referenceTypes?.getD types)).map _ = _
  rw [hpresent, List.map_cons, List.map_nil, hall]

end Parts

/-- **A split by types loses nothing and keeps the order**, for every list that arises and all types that it
accepts. There is a part for two types exactly if a pair has them; its rows are those of the list without the
other pairs, and so are the rows with equal and with different types. Each pair is in exactly one of the parts
by types, and in one of the two others. Merged by reference points, the parts give the list back. All parts have
the points of the list, and a part with two types is not split any further. One pass over all pairs in order
fills the rows of all parts. -/
theorem partition_lossless (hl : Arises l) (h : l.partition types referenceTypes? = .ok parts) :
    let referenceTypes := referenceTypes?.getD types
    (∀ a b, (∃ part, parts.get? a b = some part) ↔
      ∃ p ∈ l.pairs, HasTypes types referenceTypes (a, b) p) ∧
    (∀ a b part, parts.get? a b = some part →
      part.rows = l.rows.map (·.filter fun p => HasTypes types referenceTypes (a, b) p)) ∧
    parts.same.rows = l.rows.map (·.filter fun p => types[p.first]? = referenceTypes[p.second]?) ∧
    parts.cross.rows = l.rows.map (·.filter fun p => types[p.first]? ≠ referenceTypes[p.second]?) ∧
    (∀ p ∈ l.pairs, (∃! t : ℤ × ℤ, ∃ part, parts.get? t.1 t.2 = some part ∧ p ∈ part.pairs) ∧
      (p ∈ parts.same.pairs ↔ p ∉ parts.cross.pairs)) ∧
    mergedRows l.nQuery (parts.byTypes.map Prod.snd) = l.rows ∧
    mergedRows l.nQuery [parts.same, parts.cross] = l.rows ∧
    (∀ part ∈ parts.same :: parts.cross :: parts.byTypes.map Prod.snd,
      part.nQuery = l.nQuery ∧ part.nReference = l.nReference ∧ part.queryTable = l.queryTable ∧
        part.referenceTable = l.referenceTable) ∧
    (∀ a b part, parts.get? a b = some part → ∃ again,
      part.partition types referenceTypes? = .ok again ∧ again.byTypes = [((a, b), part)]) ∧
    onePass l.nQuery (typesOf types referenceTypes) l.pairs =
      ⟨fun t => (parts.get? t.1 t.2).map NeighborList.rows, parts.same.rows, parts.cross.rows⟩ := by
  intro referenceTypes
  have hordered := hl.ordered
  have htyped := typed_of_partition hordered h
  have hget : ∀ a b part, parts.get? a b = some part ↔ _ := fun a b part => get?_of_partition hordered h
  have hsame := same_of_partition hordered h
  have hcross := cross_of_partition hordered h
  refine ⟨fun a b => ?_, fun a b part hpart => ?_, ?_, ?_, fun p hp => ⟨?_, ?_⟩,
    merge_byTypes hordered h, merge_same_cross hordered h, fun part hpart => ?_,
    fun a b part hpart => partition_again hordered h hpart, onePass_of_partition hordered h⟩
  · exact ⟨fun ⟨part, hpart⟩ => ((hget a b part).1 hpart).1,
      fun hpair => ⟨_, (hget a b _).2 ⟨hpair, rfl⟩⟩⟩
  · rw [((hget a b part).1 hpart).2]
    rfl
  · rw [hsame]
    rfl
  · rw [hcross]
    rfl
  · have hown := hasTypes_typesOf hordered htyped hp
    refine ⟨typesOf types referenceTypes p, ⟨_, (hget _ _ _).2 ⟨⟨p, hp, hown⟩, rfl⟩, ?_⟩, ?_⟩
    · rw [pairs_filterPart, List.mem_filter]
      exact ⟨hp, decide_eq_true hown⟩
    · rintro t ⟨part, hpart, hmem⟩
      rw [((hget _ _ _).1 hpart).2, pairs_filterPart, List.mem_filter] at hmem
      exact ((typesOf_eq_iff hordered htyped hp).2 (of_decide_eq_true hmem.2)).symm
  · rw [hsame, hcross, pairs_filterPart, pairs_filterPart, List.mem_filter, List.mem_filter]
    simp only [hp, true_and, decide_eq_true_eq, not_not, ne_eq]
  · obtain ⟨keep, rfl⟩ := exists_keep h hpart
    exact ⟨Array.size_map .., rfl, rfl, rfl⟩

/-- Two points of different types: each of them sees the other one in the part for the two types, in this
order, and there are no pairs of equal types. -/
theorem partition_lossless_two :
    let t : Table ℝ := ⟨2, #[#v[0, 0], #v[1, 0]]⟩
    ∃ (l : NeighborList ℝ) (parts : TypePartition ℝ), Arises l ∧ l.points = ⟨t.points, none⟩ ∧
      l.partition #[1, 2] none = .ok parts ∧
      (∃ part, parts.get? 1 2 = some part ∧ part.rows.map List.length = #[1, 0]) ∧
      (∃ part, parts.get? 2 1 = some part ∧ part.rows.map List.length = #[0, 1]) ∧
      parts.same.rows.map List.length = #[0, 0] ∧
      mergedRows l.nQuery (parts.byTypes.map Prod.snd) = l.rows := by
  intro t
  have hpoints : t.points = #[⟨0, 0, 0⟩, ⟨1, 0, 0⟩] := by simp [t, Table.points, Vec3.ofList]
  have hnear : ((⟨1, 0, 0⟩ : Vec3 ℝ) - ⟨0, 0, 0⟩).norm < 2 := by
    rw [Vec3.norm_lt_iff two_pos, Vec3.norm2_sub_plane]
    norm_num
  obtain ⟨l, hl, -, hp, hrows⟩ :=
    exists_direct_two (o := ⟨2, false, 0⟩) ⟨two_pos, le_rfl⟩ rfl rfl hpoints hnear
  have harises : Arises l := @Arises.built _ _ none _ _ _ _ _ hl
  have hquery : l.nQuery = 2 := by rw [nQuery, hrows]; rfl
  obtain ⟨parts, hparts⟩ : ∃ parts, l.partition #[1, 2] none = .ok parts :=
    ⟨_, (partition_self_ok_iff (by rw [hp])).2 ⟨hquery.symm, rfl, rfl⟩⟩
  obtain ⟨hexists, hpart, hsame, -, -, hmerge, -⟩ := partition_lossless harises hparts
  have hpairs : l.pairs = [pairTo 0 ⟨0, 0, 0⟩ 1 ⟨1, 0, 0⟩ (.replicate 0),
      pairTo 1 ⟨1, 0, 0⟩ 0 ⟨0, 0, 0⟩ (.replicate 0)] := by
    rw [pairs, hrows]
    rfl
  obtain ⟨part, hget⟩ := (hexists 1 2).2
    ⟨_, by rw [hpairs]; exact List.mem_cons_self, rfl, rfl⟩
  obtain ⟨part', hget'⟩ := (hexists 2 1).2
    ⟨_, by rw [hpairs]; exact List.mem_cons_of_mem _ List.mem_cons_self, rfl, rfl⟩
  refine ⟨l, parts, harises, hp, hparts, ⟨part, hget, ?_⟩, ⟨part', hget', ?_⟩, ?_, hmerge⟩
  · rw [hpart 1 2 part hget, hrows]
    simp [HasTypes, pairTo]
  · rw [hpart 2 1 part' hget', hrows]
    simp [HasTypes, pairTo]
  · rw [hsame, hrows]
    simp [pairTo]

end SmoothedParticles.NeighborList
