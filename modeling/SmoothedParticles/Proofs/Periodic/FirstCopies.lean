import SmoothedParticles.Proofs.Exact.Reals
import SmoothedParticles.Periodic.Images

/-!
# One image at each position

Of all copies at one position the first becomes an image.

* `FirstIn`: the copies that no other one precedes at their position.
* `mem_firstAtPosition`: these are the images.
* `exists_image_at`, `nodup_positions`: so each position of a copy has an image, and only one.
-/

namespace SmoothedParticles

/-- Is the copy in the list, and the first one at its position? -/
def FirstIn (l : List (Image ℝ)) (c : Image ℝ) : Prop :=
  ∃ before after, l = before ++ c :: after ∧ ∀ k ∈ before, k.position ≠ c.position

variable {l : List (Image ℝ)} {c : Image ℝ}

theorem FirstIn.mem (h : FirstIn l c) : c ∈ l := by
  obtain ⟨before, after, rfl, -⟩ := h
  simp

/-- The first copy at a position, if there is a copy at all. -/
theorem exists_firstIn (hc : c ∈ l) : ∃ k, FirstIn l k ∧ k.position = c.position := by
  classical
  have hsome : (l.find? fun k => decide (k.position = c.position)).isSome :=
    List.find?_isSome.2 ⟨c, hc, decide_eq_true rfl⟩
  obtain ⟨k, hk⟩ := Option.isSome_iff_exists.1 hsome
  obtain ⟨hp, before, after, hl, hb⟩ := List.find?_eq_some_iff_append.1 hk
  have hp : k.position = c.position := of_decide_eq_true hp
  refine ⟨k, ⟨before, after, hl, fun k' hk' => ?_⟩, hp⟩
  rw [hp]
  simpa using hb k' hk'

/-- What is kept of a list, after some images. -/
def keepFirst {α : Type} [Scalar α] (kept : Array (Image α)) (l : List (Image α)) :
    Array (Image α) :=
  l.foldl (fun kept image =>
    if kept.any fun other => image.position.identical other.position then kept
    else kept.push image) kept

/-- Whatever it means to be at one position, only copies are kept. -/
theorem mem_of_mem_firstAtPosition {α : Type} [Scalar α] {l : List (Image α)} {c : Image α}
    (h : c ∈ firstAtPosition l) : c ∈ l := by
  have hkept : ∀ (l : List (Image α)) (kept : Array (Image α)),
      c ∈ keepFirst kept l → c ∈ kept ∨ c ∈ l := by
    intro l
    induction l with
    | nil => exact fun kept hc => .inl hc
    | cons d l ih =>
      intro kept hc
      unfold keepFirst at ih hc
      rw [List.foldl_cons] at hc
      split_ifs at hc
      · exact (ih _ hc).imp_right (List.mem_cons_of_mem d)
      · rcases ih _ hc with hc | hc
        · rcases Array.mem_push.1 hc with hc | rfl
          · exact .inl hc
          · exact .inr List.mem_cons_self
        · exact .inr (List.mem_cons_of_mem d hc)
  exact (hkept l #[] h).resolve_left (Array.not_mem_empty c)

theorem Vec3.identical_iff {v w : Vec3 ℝ} : v.identical w = true ↔ v = w := by
  cases v; cases w
  simp [Vec3.identical, and_assoc]

/-- One copy is kept if there is nothing at its position yet. -/
theorem keepFirst_cons (kept : Array (Image ℝ)) (c : Image ℝ) (l : List (Image ℝ)) :
    (∃ k ∈ kept, k.position = c.position) ∧ keepFirst kept (c :: l) = keepFirst kept l ∨
      (∀ k ∈ kept, k.position ≠ c.position) ∧
        keepFirst kept (c :: l) = keepFirst (kept.push c) l := by
  have hany : (kept.any fun other => c.position.identical other.position) = true ↔
      ∃ k ∈ kept, k.position = c.position := by
    simp only [Array.any_eq_true', Vec3.identical_iff]
    exact ⟨fun ⟨k, hk, hp⟩ => ⟨k, hk, hp.symm⟩, fun ⟨k, hk, hp⟩ => ⟨k, hk, hp.symm⟩⟩
  unfold keepFirst
  rw [List.foldl_cons]
  split_ifs with h
  · exact .inl ⟨hany.1 h, rfl⟩
  · refine .inr ⟨fun k hk hp => h (hany.2 ⟨k, hk, hp⟩), rfl⟩

theorem firstIn_cons {d : Image ℝ} :
    FirstIn (d :: l) c ↔ d = c ∨ FirstIn l c ∧ d.position ≠ c.position := by
  constructor
  · intro h
    obtain ⟨before, after, hl, hb⟩ := h
    cases before with
    | nil => exact .inl (List.cons.inj hl).1
    | cons e before =>
      obtain ⟨rfl, htail⟩ := List.cons.inj hl
      exact .inr ⟨⟨before, after, htail, fun k hk => hb k (List.mem_cons_of_mem _ hk)⟩,
        hb d List.mem_cons_self⟩
  · intro h
    rcases h with rfl | ⟨⟨before, after, rfl, hb⟩, hd⟩
    · exact ⟨[], l, rfl, fun k hk => absurd hk List.not_mem_nil⟩
    · refine ⟨d :: before, after, rfl, fun k hk => ?_⟩
      rcases List.mem_cons.1 hk with rfl | hk
      · exact hd
      · exact hb k hk

theorem mem_keepFirst (kept : Array (Image ℝ)) : c ∈ keepFirst kept l ↔
    c ∈ kept ∨ FirstIn l c ∧ ∀ k ∈ kept, k.position ≠ c.position := by
  -- on the copies still to come, whatever is kept so far
  induction l generalizing kept with
  | nil =>
    refine ⟨.inl, fun h => h.resolve_right ?_⟩
    intro h
    obtain ⟨h, -⟩ := h
    simpa using h.mem
  | cons d l ih =>
    rw [firstIn_cons]
    rcases keepFirst_cons kept d l with ⟨⟨k, hk, hkd⟩, h⟩ | ⟨hnew, h⟩
    · -- the position of `d` is taken already
      rw [h, ih]
      refine or_congr_right (and_congr_left fun hc => ?_)
      refine ⟨fun hf => .inr ⟨hf, fun hd => hc k hk (hkd.trans hd)⟩, fun hf => ?_⟩
      rcases hf with rfl | ⟨hf, -⟩
      · exact absurd hkd (hc k hk)
      · exact hf
    · -- `d` is kept, and is in the way of later copies
      rw [h, ih]
      simp only [Array.mem_push]
      constructor
      · intro h
        rcases h with (hc | rfl) | ⟨hf, hc⟩
        · exact .inl hc
        · exact .inr ⟨.inl rfl, hnew⟩
        · exact .inr ⟨.inr ⟨hf, hc d (.inr rfl)⟩, fun k hk => hc k (.inl hk)⟩
      · intro h
        rcases h with hc | ⟨rfl | ⟨hf, hd⟩, hc⟩
        · exact .inl (.inl hc)
        · exact .inl (.inr rfl)
        · refine .inr ⟨hf, fun k hk => ?_⟩
          rcases hk with hk | rfl
          · exact hc k hk
          · exact hd

/-- **The images are the first copies** at their positions. -/
theorem mem_firstAtPosition : c ∈ firstAtPosition l ↔ FirstIn l c := by
  show c ∈ keepFirst #[] l ↔ _
  rw [mem_keepFirst]
  simp

/-- **Each position of a copy has an image.** -/
theorem exists_image_at (hc : c ∈ l) : ∃ k ∈ firstAtPosition l, k.position = c.position := by
  obtain ⟨k, hk, hp⟩ := exists_firstIn hc
  exact ⟨k, mem_firstAtPosition.2 hk, hp⟩

theorem nodup_keepFirst (kept : Array (Image ℝ)) (h : (kept.toList.map Image.position).Nodup) :
    ((keepFirst kept l).toList.map Image.position).Nodup := by
  induction l generalizing kept with
  | nil => exact h
  | cons d l ih =>
    rcases keepFirst_cons kept d l with ⟨-, hd⟩ | ⟨hnew, hd⟩
    · rw [hd]
      exact ih kept h
    · rw [hd]
      apply ih
      rw [Array.toList_push, List.map_append, List.nodup_append]
      refine ⟨h, List.nodup_singleton _, ?_⟩
      rintro p hp q hq rfl
      obtain ⟨k, hk, rfl⟩ := List.mem_map.1 hp
      exact hnew k (Array.mem_toList_iff.1 hk) (by simpa using hq)

/-- **No two images are at the same position.** -/
theorem nodup_positions (l : List (Image ℝ)) :
    ((firstAtPosition l).toList.map Image.position).Nodup :=
  nodup_keepFirst #[] List.nodup_nil

end SmoothedParticles
