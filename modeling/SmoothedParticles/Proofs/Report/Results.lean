import Mathlib
import SmoothedParticles.Report.Logged

/-!
# When an operation succeeds

An operation is a list of checks followed by a result. It succeeds if all checks do, which these
lemmas read off its steps.

* `bind_eq_ok_iff`, `ite_invalid_iff`, `ite_mismatch_iff`, `forM_eq_ok_iff`: one step after another,
  one check, and one check for each member of a list.
* `bind_eq_map_bind`: two operations with the same first step.
* `option_forM_eq_ok_iff`, `option_mapM_eq_ok_iff`: a check, or an operation, on something that may be
  missing.
* `Logged.result_bind_iff`, `Logged.result_forM`, `Logged.result_option_mapM`: the same for operations
  that keep a log.
-/

namespace SmoothedParticles

variable {α β γ ε : Type}

theorem bind_eq_ok_iff {x : Except ε β} {f : β → Except ε γ} {c : γ} :
    x >>= f = .ok c ↔ ∃ b, x = .ok b ∧ f b = .ok c := by
  cases x with
  | error e => exact ⟨fun h => (nomatch h), fun ⟨b, h, _⟩ => (nomatch h)⟩
  | ok b => exact ⟨fun h => ⟨b, rfl, h⟩, fun ⟨b', h, h'⟩ => by cases h; exact h'⟩

/-- **Two operations with the same first step**: what follows it matters only for its result. -/
theorem bind_eq_map_bind {δ : Type} {x : Except ε β} {f : β → Except ε δ} {g : β → Except ε γ}
    {k : γ → δ} (h : ∀ b, x = .ok b → f b = (g b).map k) : x >>= f = (x >>= g).map k := by
  cases x with
  | error e => rfl
  | ok b => exact h b rfl

@[simp] theorem pure_eq_ok_iff {b c : β} : (pure b : Except ε β) = .ok c ↔ b = c := by
  show Except.ok b = .ok c ↔ b = c
  rw [Except.ok.injEq]

@[simp] theorem invalid_ne_ok {cause : InvalidParameter α} {b : β} : invalid cause ≠ .ok b :=
  nofun

@[simp] theorem mismatch_ne_ok {cause : ShapeMismatch} {b : β} :
    (mismatch cause : Except (Error α) β) ≠ .ok b :=
  nofun

@[simp] theorem invalid_bind {cause : InvalidParameter α} {f : β → Except (Error α) γ} :
    (invalid cause >>= f) = invalid cause :=
  rfl

@[simp] theorem mismatch_bind {cause : ShapeMismatch} {f : β → Except (Error α) γ} :
    (mismatch cause >>= f) = mismatch cause :=
  rfl

theorem exists_eq_ok {x : Except ε β} (h : x.toOption.isSome = true) : ∃ b, x = .ok b := by
  cases x with
  | error e => exact absurd h Bool.false_ne_true
  | ok b => exact ⟨b, rfl⟩

/-- An operation fails if it does not succeed. -/
theorem exists_error_iff {x : Except ε β} : (∃ e, x = .error e) ↔ ¬∃ b, x = .ok b := by
  cases x with
  | error e => exact iff_of_true ⟨e, rfl⟩ fun ⟨_, h⟩ => nomatch h
  | ok b => exact iff_of_false (fun ⟨_, h⟩ => nomatch h) fun h => h ⟨b, rfl⟩

/-- A check that reports an invalid parameter. -/
theorem ite_invalid_iff {p : Prop} [Decidable p] {cause : InvalidParameter α}
    {x : Except (Error α) β} {b : β} :
    (if p then invalid cause else x) = .ok b ↔ ¬p ∧ x = .ok b := by
  by_cases h : p <;> simp [h]

/-- A check that reports shapes that do not match. -/
theorem ite_mismatch_iff {p : Prop} [Decidable p] {cause : ShapeMismatch}
    {x : Except (Error α) β} {b : β} :
    (if p then mismatch cause else x) = .ok b ↔ ¬p ∧ x = .ok b := by
  by_cases h : p <;> simp [h]

theorem forall_mem_none {p : β → Prop} : ∀ b ∈ (none : Option β), p b :=
  fun b hb => absurd hb (Option.not_mem_none b)

theorem getD_of_forall {β : Type} {P : β → Prop} {x? : Option β} {d : β} (h : ∀ x ∈ x?, P x) (hd : P d) :
    P (x?.getD d) := by
  cases x? with
  | none => exact hd
  | some x => exact h x rfl

theorem forM_eq_ok_iff {l : List β} {f : β → Except ε Unit} :
    l.forM f = .ok () ↔ ∀ b ∈ l, f b = .ok () := by
  induction l with
  | nil => exact ⟨fun _ b hb => absurd hb List.not_mem_nil, fun _ => rfl⟩
  | cons b l ih =>
    show (f b >>= fun _ => l.forM f) = .ok () ↔ _
    rw [List.forall_mem_cons, ← ih, bind_eq_ok_iff]
    exact ⟨fun ⟨_, h⟩ => h, fun h => ⟨(), h⟩⟩

theorem option_forM_eq_ok_iff {o : Option β} {f : β → Except ε Unit} :
    o.forM f = .ok () ↔ ∀ b ∈ o, f b = .ok () := by
  cases o with
  | none => exact iff_of_true rfl forall_mem_none
  | some b =>
    show f b = .ok () ↔ _
    simp only [Option.mem_def, Option.some.injEq, forall_eq']

/-- An operation on something that may be missing, if it succeeds under a condition with a known
result. -/
theorem option_mapM_eq_ok_iff {o : Option β} {f : β → Except ε γ} {p : β → Prop} {g : β → γ}
    {c : Option γ} (hf : ∀ b c, f b = .ok c ↔ p b ∧ g b = c) :
    o.mapM f = .ok c ↔ (∀ b ∈ o, p b) ∧ o.map g = c := by
  cases o with
  | none =>
    show Except.ok none = .ok c ↔ _
    rw [Except.ok.injEq]
    exact (and_iff_right forall_mem_none).symm
  | some b =>
    show (f b >>= fun c => pure (some c)) = .ok c ↔ _
    simp only [bind_eq_ok_iff, hf, pure_eq_ok_iff, Option.mem_def, Option.some.injEq, forall_eq',
      Option.map_some]
    constructor
    · intro h
      obtain ⟨d, ⟨hb, rfl⟩, h⟩ := h
      exact ⟨hb, h⟩
    · intro h
      obtain ⟨hb, h⟩ := h
      exact ⟨g b, ⟨hb, rfl⟩, h⟩

namespace Logged

theorem result_bind_iff {x : Logged α β} {f : β → Logged α γ} {c : γ} :
    (x >>= f).result = .ok c ↔ ∃ b, x.result = .ok b ∧ (f b).result = .ok c := by
  rw [result_bind]
  exact bind_eq_ok_iff

theorem result_option_mapM (o : Option β) (f : β → Logged α γ) :
    (o.mapM f).result = o.mapM fun b => (f b).result := by
  cases o with
  | none => rfl
  | some b =>
    show (f b >>= fun c => pure (some c)).result = ((f b).result >>= fun c => pure (some c))
    rw [result_bind]
    rfl

theorem result_forM (l : List β) (f : β → Logged α Unit) :
    (l.forM f).result = l.forM fun b => (f b).result := by
  induction l with
  | nil => rfl
  | cons b l ih =>
    show (f b >>= fun _ => l.forM f).result = ((f b).result >>= fun _ => l.forM fun b => (f b).result)
    rw [result_bind, ih]
    rfl

end Logged

end SmoothedParticles
