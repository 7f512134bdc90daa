import SmoothedParticles.Report.Error
import SmoothedParticles.Report.Event

/-!
# Results with a log

A `Logged` result is what an operation returned, or why it failed, beside the events on the way
there. Events before a failure are kept.

* `result_bind`: the results of two steps in a row, as if there were no log.
* `events_bind`: the events of two steps in a row, one after the other.
-/

namespace SmoothedParticles

/-- The outcome of an operation, and what happened on the way. -/
structure Logged (α β : Type) where
  events : List (Event α)
  result : Except (Error α) β

namespace Logged

variable {α β γ : Type}

/-- Tell one event. -/
def tell (e : Event α) : Logged α Unit := ⟨[e], .ok ()⟩

/-- Tell an event if a condition holds. -/
def tellIf (c : Bool) (e : Event α) : Logged α Unit := ⟨if c then [e] else [], .ok ()⟩

/-- An outcome without events. -/
def ofExcept (r : Except (Error α) β) : Logged α β := ⟨[], r⟩

/-- Go on with the result of a first step, if it has one. -/
def andThen (x : Logged α β) (f : β → Logged α γ) : Logged α γ :=
  match x.result with
  | .ok b => ⟨x.events ++ (f b).events, (f b).result⟩
  | .error e => ⟨x.events, .error e⟩

instance : Monad (Logged α) where
  pure b := ⟨[], .ok b⟩
  bind := andThen

instance : MonadLift (Except (Error α)) (Logged α) := ⟨ofExcept⟩

@[simp] theorem result_pure (b : β) : (pure b : Logged α β).result = .ok b := rfl

@[simp] theorem events_pure (b : β) : (pure b : Logged α β).events = [] := rfl

@[simp] theorem result_tell (e : Event α) : (tell e).result = .ok () := rfl

@[simp] theorem result_tellIf (c : Bool) (e : Event α) : (tellIf c e).result = .ok () := rfl

@[simp] theorem result_ofExcept (r : Except (Error α) β) : (ofExcept r).result = r := rfl

@[simp] theorem result_monadLift (r : Except (Error α) β) :
    (monadLift r : Logged α β).result = r := rfl

/-- **Results ignore the log.** -/
@[simp] theorem result_bind (x : Logged α β) (f : β → Logged α γ) :
    (x >>= f).result = x.result.bind fun b => (f b).result := by
  show (andThen x f).result = _
  unfold andThen
  cases x.result <;> rfl

/-- **Events come in order**, up to the first failure. -/
theorem events_bind (x : Logged α β) (f : β → Logged α γ) :
    (x >>= f).events = x.events ++ match x.result with
      | .ok b => (f b).events
      | .error _ => [] := by
  show (andThen x f).events = _
  unfold andThen
  cases x.result <;> simp

end Logged

end SmoothedParticles
