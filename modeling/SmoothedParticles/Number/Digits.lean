import SmoothedParticles.Number.Double

/-!
# Decimal digits of a double

A positive number `m · 2^q` is written `0.d₁d₂…dₙ · 10^k`, with integer arithmetic only.

* `Digits.shortest`: the fewest digits that read back as the same double, and of those the
  nearest; of two equally near ones the larger.
* `Digits.rounded`: a fixed number of digits, nearest to the exact binary value; of two equally
  near ones the even one.
* `toDouble`: the double nearest to a decimal.
-/

namespace SmoothedParticles

/-- The number `significand · 10^scale`. -/
structure Digits where
  significand : Nat
  scale : Int
  deriving DecidableEq, Repr

namespace Digits

/-- The number of digits. -/
def width (d : Digits) : Nat := (Nat.toDigits 10 d.significand).length

/-- The exponent `k` of the form `0.d₁d₂…dₙ · 10^k`. -/
def point (d : Digits) : Int := d.scale + d.width

/-- Without zeros at the end of the significand. -/
def trim (d : Digits) : Digits :=
  if h : d.significand ≠ 0 ∧ d.significand % 10 = 0 then
    trim ⟨d.significand / 10, d.scale + 1⟩
  else d
termination_by d.significand
decreasing_by omega

/-- Both sides of a comparison of `a · 2^q` with `b · 10^s`, as natural numbers. -/
def scaled (a : Nat) (q : Int) (b : Nat) (s : Int) : Nat × Nat :=
  (a * Nat.pow 2 q.toNat * Nat.pow 10 (-s).toNat, b * Nat.pow 10 s.toNat * Nat.pow 2 (-q).toNat)

/-- The exponent `k` with `10^(k-1) ≤ m · 2^q < 10^k`. The estimate multiplies the binary
exponent by `log 2 / log 10`, in units of `2⁻³²`; it is at most one too small. -/
def magnitude (m : Nat) (q : Int) : Int :=
  let estimate := ((q + m.log2) * 1292913986).fdiv (Nat.pow 2 32) + 1
  let (x, power) := scaled m q 1 estimate
  if power ≤ x then estimate + 1 else estimate

/-- Does `b · 10^s` read back as the double `m · 2^q`? The reals that do form an interval around
it, half a step to both sides, but only a quarter of one below a power of two, where the steps
get finer. The ends belong to it if `m` is even. -/
def readsBack (m : Nat) (q : Int) (b : Nat) (s : Int) : Bool :=
  let below := if m = Nat.pow 2 52 ∧ -1074 < q then 1 else 2
  let (lo, x) := scaled (4 * m - below) (q - 2) b s
  let (hi, y) := scaled (4 * m + 2) (q - 2) b s
  if m % 2 = 0 then lo ≤ x ∧ y ≤ hi else lo < x ∧ y < hi

/-- The whole part of `m · 2^q / 10^s`, and twice what is left compared with one. -/
def quotient (m : Nat) (q : Int) (s : Int) : Nat × Ordering :=
  let (x, unit) := scaled m q 1 s
  (x / unit, compare (2 * (x % unit)) unit)

/-- The decimal with `n` digits that reads back as `m · 2^q`, if one of the two around it does.
Of two that do the nearer one is taken, and the larger one if both are equally near. -/
def ofWidth? (m : Nat) (q : Int) (n : Nat) : Option Digits :=
  let s := magnitude m q - n
  let (down, half) := quotient m q s
  let fits := readsBack m q down s
  let fitsUp := readsBack m q (down + 1) s
  if fits && (!fitsUp || half == .lt) then some ⟨down, s⟩
  else if fitsUp then some ⟨down + 1, s⟩
  else none

/-- **The nearest decimal with `n` digits**, a tie going to the even one. -/
def rounded (n : Nat) (m : Nat) (q : Int) : Digits :=
  let s := magnitude m q - n
  let (down, half) := quotient m q s
  let up := half == .gt || (half == .eq && down % 2 == 1)
  trim ⟨if up then down + 1 else down, s⟩

/-- **The shortest decimal** that reads back as the double `m · 2^q`; seventeen digits always
suffice. -/
def shortest (m : Nat) (q : Int) : Digits :=
  ((List.range' 1 17).findSome? (ofWidth? m q)).elim (rounded 17 m q) trim

/-- The double nearest to a decimal. -/
def toDouble (d : Digits) : Float :=
  Float.ofScientific d.significand (d.scale < 0) d.scale.natAbs

end Digits

/-- A finite double rounded to `n` significant decimal digits. Zeros, infinities and undefined
values stay as they are. -/
def Double.toSignificant (n : Nat) (x : Float) : Float :=
  match Double.split x with
  | some ⟨negative, m, q⟩ =>
    if m = 0 then x
    else
      let y := (Digits.rounded n m q).toDouble
      if negative then -y else y
  | none => x

end SmoothedParticles
