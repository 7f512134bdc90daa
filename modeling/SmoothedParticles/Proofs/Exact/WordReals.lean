import SmoothedParticles.Proofs.Exact.Reals
import SmoothedParticles.Report.Error

/-!
# Exact arithmetic beside machine words

Over the real numbers counts and indexes are unbounded. To say what becomes of an index that is too large, the
definitions are read over the `WordReal`s. These are the real numbers too, but the counts and indexes beside
them are kept in machine words of 64 bits, as they are beside doubles.

* `IsWord`, `checkedWord`, `wrappedWord`: the signed words, and what a sum of two of them becomes.
* `instScalarWordReal`: the real numbers as a scalar with words.
* `index_intCast`, `count_natCast`: whole numbers become the nearest word.
-/

namespace SmoothedParticles

namespace Scalar

variable (α : Type) [Scalar α]

/-- Does the integer fit into a signed machine word? -/
def IsWord (n : ℤ) : Prop := ∀ w ∈ wordBits α, -2 ^ (w - 1) ≤ n ∧ n < 2 ^ (w - 1)

instance (n : ℤ) : Decidable (IsWord α n) := inferInstanceAs (Decidable (∀ w ∈ wordBits α, _))

/-- A sum of words, where one that is not a word is an error. -/
def checkedWord (n : ℤ) : Except (Error α) ℤ := if IsWord α n then .ok n else .error .fault

/-- A sum of words, where one that is not a word loses its high digits. -/
def wrappedWord (n : ℤ) : ℤ :=
  match wordBits α with
  | none => n
  | some w => n.bmod (2 ^ w)

end Scalar

/-- A real number. Counts and indexes beside it are kept in machine words. -/
def WordReal : Type := ℝ

/-- **The real numbers as a scalar with words** of 64 bits. -/
noncomputable instance instScalarWordReal : Scalar WordReal :=
  { instScalarReal with wordBits := some 64 }

namespace WordReal

theorem isWord_iff {n : ℤ} : Scalar.IsWord WordReal n ↔ -2 ^ 63 ≤ n ∧ n < 2 ^ 63 := by
  constructor
  · intro h
    exact h 64 rfl
  · rintro h w hw
    obtain rfl := Option.some.inj hw
    exact h

theorem wrappedWord_eq (n : ℤ) : Scalar.wrappedWord WordReal n = n.bmod (2 ^ 64) := rfl

/-- **A whole number** becomes the nearest signed word. -/
theorem index_intCast (n : ℤ) : @Scalar.index WordReal _ (n : ℝ) = max (-2 ^ 63) (min n (2 ^ 63 - 1)) := by
  show max (-2 ^ 63) (min (wholePart (n : ℝ)) (2 ^ 63 - 1)) = _
  rw [wholePart_intCast]

theorem count_natCast (n : ℕ) : @Scalar.count WordReal _ (n : ℝ) = min n (2 ^ 64 - 1) := by
  show min (wholePart (n : ℝ)).toNat (2 ^ 64 - 1) = _
  rw [← Int.cast_natCast, wholePart_intCast, Int.toNat_natCast]

theorem indexable_iff {n : ℕ} : Scalar.indexable WordReal n = true ↔ n < 2 ^ 63 := decide_eq_true_iff

end WordReal

end SmoothedParticles
