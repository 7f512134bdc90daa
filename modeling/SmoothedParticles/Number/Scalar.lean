import SmoothedParticles.Number.Double

/-!
# Numbers the algorithms are written over

Every algorithm of the library is written once, over a `Scalar`. It runs on doubles, and its
properties are stated in exact arithmetic, where the same definitions are read over the reals.

* `Scalar`: the operations that the algorithms need, each in the order in which it is written.
* `Scalar.count`, `Scalar.index`: whole numbers kept in machine words, which saturate.
* `Scalar.wrap`, `Scalar.indexable`: products of counts kept in machine words.
* `Scalar.power`: powers by repeated squaring.
-/

namespace SmoothedParticles

/-- A number type with the operations of the algorithms. `wordBits` is the width of the machine
words that hold counts and indexes beside it, and is `none` if these are unbounded. -/
class Scalar (α : Type) extends
    Add α, Sub α, Mul α, Div α, Neg α, LT α, LE α, BEq α, OfScientific α where
  decLt : DecidableLT α
  decLe : DecidableLE α
  ofNat : Nat → α
  /-- The whole part, zero for an undefined value. -/
  toInt : α → Int
  isFinite : α → Bool
  /-- The same number; unlike with `==`, undefined values agree with each other. -/
  identical : α → α → Bool
  /-- The larger of two numbers; an undefined one gives way to the other. -/
  maxNum : α → α → α
  /-- The smaller of two numbers; an undefined one gives way to the other. -/
  minNum : α → α → α
  floor : α → α
  ceil : α → α
  trunc : α → α
  /-- The nearest whole number, a half going away from zero. -/
  round : α → α
  /-- The remainder after taking whole multiples towards zero. -/
  remainder : α → α → α
  sqrt : α → α
  cbrt : α → α
  exp : α → α
  rpow : α → α → α
  pi : α
  wordBits : Option Nat

namespace Scalar

instance : Scalar Float where
  decLt := inferInstance
  decLe := inferInstance
  ofNat := Float.ofNat
  toInt := Double.toInt
  isFinite := Float.isFinite
  identical := Double.identical
  maxNum := Double.maxNum
  minNum := Double.minNum
  floor := Double.floor
  ceil := Double.ceil
  trunc := Double.trunc
  round := Double.round
  remainder := Double.remainder
  sqrt := Float.sqrt
  cbrt := Float.cbrt
  exp := Float.exp
  rpow := Float.pow
  pi := 3.141592653589793
  wordBits := some 64

variable {α : Type} [Scalar α]

instance (priority := low) : DecidableLT α := decLt
instance (priority := low) : DecidableLE α := decLe
instance (priority := low) (n : Nat) : OfNat α n := ⟨ofNat n⟩

/-- An integer as a number. -/
def ofInt : Int → α
  | .ofNat n => ofNat n
  | .negSucc n => -ofNat (n + 1)

/-- The distance from zero. -/
def abs (x : α) : α := if x < 0 then -x else x

/-- A finite number above zero. -/
def IsPositive (x : α) : Prop := 0 < x ∧ isFinite x = true

instance (x : α) : Decidable (IsPositive x) := inferInstanceAs (Decidable (_ ∧ _))

/-- The remainder of `x` that lies in `[0, |y|)`. -/
def modulo (x y : α) : α :=
  let r := remainder x y
  if r < 0 then r + abs y else r

/-- Multiply `r` by the powers `a, a², a⁴, …` that the binary digits of `n` pick. -/
def powerFrom (r a : α) (n : Nat) : α :=
  if h : n = 0 then r
  else powerFrom (if n % 2 = 1 then r * a else r) (a * a) (n / 2)
termination_by n
decreasing_by omega

/-- The `n`-th power, by repeated squaring. -/
def power (x : α) (n : Nat) : α := powerFrom 1 x n

/-- The whole part of a number as a count in a machine word: nothing below zero, and nothing
past the largest word. -/
def count (x : α) : Nat :=
  let n := (toInt x).toNat
  match wordBits α with
  | none => n
  | some w => min n (Nat.pow 2 w - 1)

/-- The whole part of a number as a signed machine word, the nearest one if it does not fit. -/
def index (x : α) : Int :=
  let n := toInt x
  match wordBits α with
  | none => n
  | some w =>
    let bound : Int := Nat.pow 2 (w - 1)
    max (-bound) (min n (bound - 1))

variable (α) in
/-- A count kept in a machine word, whose high digits are lost. -/
def wrap (n : Nat) : Nat :=
  match wordBits α with
  | none => n
  | some w => n % Nat.pow 2 w

variable (α) in
/-- Can a table with `n` entries be indexed by signed machine words? -/
def indexable (n : Nat) : Bool :=
  match wordBits α with
  | none => true
  | some w => n < Nat.pow 2 (w - 1)

end Scalar

end SmoothedParticles
