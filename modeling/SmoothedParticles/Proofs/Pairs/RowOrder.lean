import SmoothedParticles.Proofs.Pairs.UpdateFailures

/-!
# The order of pairs

In any arithmetic, each row of a list has the pairs of one query point, sorted by the reference points. With
rounded numbers two pairs of a row can have the same reference point, so the order is not strict here.

* `OrderedRows`: rows of pairs between some numbers of points, in order.
* `orderedRows_mapIdx`, `OrderedRows.filterMap`: rows made from the hits of a search, and from other rows.
* `Ordered`, `Arises.ordered`: **the rows of every list that arises are in order**, and so is its reserve.
* `OrderedRows.filter_first`: the pairs of a query point are its row.
-/

namespace SmoothedParticles.NeighborList

variable {α : Type}

/-- **Rows of pairs between some numbers of points**, in order. -/
structure OrderedRows (n m : ℕ) (rows : Array (List (Pair α))) : Prop where
  size : rows.size = n
  sorted : ∀ row ∈ rows, row.Pairwise fun p q => p.second ≤ q.second
  indexed : ∀ (i : ℕ) row, rows[i]? = some row → ∀ p ∈ row, p.first = i ∧ p.second < m

section Rows

variable {n m : ℕ} {rows : Array (List (Pair α))}

/-- Rows made one by one. -/
theorem orderedRows_mapIdx {β : Type} {xs : Array β} {g : ℕ → β → List (Pair α)} (hsize : xs.size = n)
    (h : ∀ i, ∀ x ∈ xs, ((g i x).Pairwise fun p q => p.second ≤ q.second) ∧
      ∀ p ∈ g i x, p.first = i ∧ p.second < m) : OrderedRows n m (xs.mapIdx g) := by
  refine ⟨by rw [Array.size_mapIdx, hsize], fun row hrow => ?_, fun i row hrow => ?_⟩
  · obtain ⟨i, hi, rfl⟩ := Array.mem_mapIdx.1 hrow
    exact (h i _ (Array.getElem_mem hi)).1
  · rw [Array.getElem?_mapIdx] at hrow
    obtain ⟨x, hx, rfl⟩ := Option.map_eq_some_iff.1 hrow
    exact (h i x (Array.mem_of_getElem? hx)).2

/-- Rows stay in order if pairs are left out, or get other data. -/
theorem OrderedRows.filterMap (h : OrderedRows n m rows) {g : Pair α → Option (Pair α)}
    (hg : ∀ p q, g p = some q → q.first = p.first ∧ q.second = p.second) :
    OrderedRows n m (rows.map (·.filterMap g)) := by
  refine ⟨by rw [Array.size_map, h.size], fun row hrow => ?_, fun i row hrow q hq => ?_⟩
  · obtain ⟨old, hold, rfl⟩ := Array.mem_map.1 hrow
    refine List.pairwise_filterMap.2 ((h.sorted old hold).imp ?_)
    intro p q hpq p' hp' q' hq'
    rw [(hg p p' hp').2, (hg q q' hq').2]
    exact hpq
  · rw [Array.getElem?_map] at hrow
    obtain ⟨old, hold, rfl⟩ := Option.map_eq_some_iff.1 hrow
    obtain ⟨p, hp, hpq⟩ := List.mem_filterMap.1 hq
    obtain ⟨hfirst, hsecond⟩ := hg p q hpq
    rw [hfirst, hsecond]
    exact h.indexed i old hold p hp

theorem OrderedRows.filter (h : OrderedRows n m rows) (keep : Pair α → Bool) :
    OrderedRows n m (rows.map (·.filter keep)) := by
  have hfilter : (fun row : List (Pair α) => row.filter keep) =
      fun row => row.filterMap (Option.guard keep) := by
    funext row
    rw [List.filterMap_eq_filter]
  rw [hfilter]
  refine h.filterMap fun p q hpq => ?_
  obtain ⟨rfl, -⟩ := Option.guard_eq_some_iff.1 hpq
  exact ⟨rfl, rfl⟩

/-- The pairs of all rows with a query point are the row of that point. -/
theorem OrderedRows.filter_first (h : OrderedRows n m rows) {i : ℕ} (hi : i < rows.size) :
    rows.toList.flatten.filter (fun p => p.first = i) = rows[i] := by
  have hlen : i < rows.toList.length := hi
  -- the other rows have no such pair
  have hother : ∀ part : List (List (Pair α)),
      (∀ row ∈ part, ∃ k, k ≠ i ∧ rows[k]? = some row) →
      part.flatten.filter (fun p => p.first = i) = [] := by
    intro part hpart
    rw [List.filter_eq_nil_iff]
    intro p hp
    obtain ⟨row, hrow, hp⟩ := List.mem_flatten.1 hp
    obtain ⟨k, hk, hrow⟩ := hpart row hrow
    rw [(h.indexed k row hrow p hp).1, decide_eq_true_eq]
    exact hk
  have hself : rows[i].filter (fun p => p.first = i) = rows[i] :=
    List.filter_eq_self.2 fun p hp => decide_eq_true (h.indexed i _ (Array.getElem?_eq_getElem hi) p hp).1
  have hbefore : ∀ row ∈ rows.toList.take i, ∃ k, k ≠ i ∧ rows[k]? = some row := by
    intro row hrow
    obtain ⟨k, hk⟩ := List.getElem?_of_mem hrow
    rw [List.getElem?_take] at hk
    split_ifs at hk with hlt
    rw [Array.getElem?_toList] at hk
    exact ⟨k, hlt.ne, hk⟩
  have hafter : ∀ row ∈ rows.toList.drop (i + 1), ∃ k, k ≠ i ∧ rows[k]? = some row := by
    intro row hrow
    obtain ⟨k, hk⟩ := List.getElem?_of_mem hrow
    rw [List.getElem?_drop, Array.getElem?_toList] at hk
    exact ⟨i + 1 + k, by omega, hk⟩
  have hsplit := List.take_append_drop i rows.toList
  rw [← List.getElem_cons_drop hlen] at hsplit
  rw [← hsplit, List.flatten_append, List.flatten_cons, List.filter_append, List.filter_append,
    hother _ hbefore, hother _ hafter, List.nil_append, List.append_nil]
  exact hself

end Rows

variable [Scalar α] {box? : Option (Box α)} {o : SearchOptions α} {f : PairFilter} {d : Dimension}
  {points : PointSets α} {query : Table α} {reference? : Option (Table α)} {l : NeighborList α}

/-- **The rows of a list are in order**, and so are those that it keeps in reserve. -/
structure Ordered (l : NeighborList α) : Prop where
  rows : OrderedRows l.points.query.size l.points.reference.size l.rows
  reserve : ∀ full ∈ l.reserve?, OrderedRows l.points.query.size l.points.reference.size full.rows

theorem ordered_ofRows {found : Array (List (Pair α))}
    (h : OrderedRows points.query.size points.reference.size found) :
    Ordered (ofRows o f d points box? found) := by
  unfold ofRows
  split_ifs
  · exact ⟨h.filter _, fun full hfull => Option.some.inj hfull ▸ h⟩
  · exact ⟨h, forall_mem_none⟩

/-- **A list built from scratch is in order**: the hits of a search are, and those of a periodic search are
sorted once more after the indexes of images are those of points. -/
theorem ordered_build (h : (build box? o query reference? f).result = .ok l) : Ordered l := by
  cases box? with
  | none =>
    obtain ⟨-, d, points, hits, -, -, hhits, rfl⟩ := direct_eq_ok_iff.1 h
    obtain ⟨hsize, hlt⟩ := Search.indexes_of_run hhits
    refine ordered_ofRows (orderedRows_mapIdx hsize fun i row hrow => ⟨?_, fun p hp => ?_⟩)
    · exact List.pairwise_map.2 (Search.pairwise_of_run hhits row hrow)
    · obtain ⟨hit, hhit, rfl⟩ := List.mem_map.1 hp
      exact ⟨rfl, hlt row hrow hit hhit⟩
  | some box =>
    obtain ⟨-, -, -, -, -, points, images, hits, -, -, himages, -, hhits, rfl⟩ :=
      periodic_eq_ok_iff.1 h
    obtain ⟨hsize, hlt⟩ := Search.indexes_of_run hhits
    refine ordered_ofRows (orderedRows_mapIdx hsize fun i row hrow => ⟨?_, fun p hp => ?_⟩)
    · exact (@List.pairwise_mergeSort _ precedes (fun _ _ _ => lexLE_trans)
        (fun _ _ => lexLE_total _ _) _).imp second_le_of_precedes
    · obtain ⟨hit, hhit, rfl⟩ := List.mem_map.1 (List.mem_mergeSort.1 hp)
      exact ⟨rfl, pointBehind_lt himages (Array.getElem?_eq_getElem (hlt row hrow hit hhit))⟩

/-- Pairs that are computed again stay where they are. -/
theorem ordered_revalidate (h : Ordered l) {new : PointSets α}
    (hquery : new.query.size = l.points.query.size)
    (hreference : new.reference.size = l.points.reference.size) : Ordered (l.revalidate new) := by
  have hbase : OrderedRows l.points.query.size l.points.reference.size l.baseline.rows := by
    unfold baseline
    cases hr : l.reserve? with
    | none => exact h.rows
    | some full => exact h.reserve full hr
  have hrows := hbase.filterMap (g := l.revalidatePair new) fun _ _ => indexes_of_revalidatePair
  have hreserve := h.reserve
  rw [← hquery, ← hreference] at hrows hreserve
  exact ⟨hrows, hreserve⟩

/-- **The rows of every list that arises are in order.** -/
theorem Arises.ordered (h : Arises l) : Ordered l := by
  -- on the operations that led to the list; each keeps the order
  induction h with
  | built h => exact ordered_build h
  | updated _ h ih =>
    obtain ⟨haccepts, _, rfl, ⟨-, heq⟩ | ⟨-, list, hbuild, heq⟩⟩ := update_eq_ok_iff.1 h <;>
      obtain ⟨rfl, rfl⟩ := Prod.mk.inj heq
    · exact ordered_revalidate ih haccepts.sizes.1 haccepts.sizes.2
    · exact ordered_build hbuild
  | part _ ih => exact ⟨ih.rows.filter _, forall_mem_none⟩

end SmoothedParticles.NeighborList
