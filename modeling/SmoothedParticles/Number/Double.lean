/-!
# Doubles as integers times powers of two

A finite double is `±m · 2^q` with integers `m` and `q`. Rounding to a whole number and the
remainder of a division are then integer arithmetic, with no rounding error of their own.

* `split`: the sign, significand and exponent of a finite double.
* `join`: the double with a given sign, significand and exponent.
* `floor`, `ceil`, `trunc`, `round`: the four ways to a whole number; a result of zero keeps
  the sign of its argument.
* `remainder`: what is left of `x` after whole multiples of `y`, with the sign of `x`.
* `toSingle`: the nearest number of single precision.
-/

namespace SmoothedParticles.Double

/-- A finite number `m · 2^q`, negated if `negative`. -/
structure Parts where
  negative : Bool
  m : Nat
  q : Int
  deriving DecidableEq, Repr

/-- The parts of a finite double, `none` for an infinity or an undefined value. The exponent is
at least `-1074`, and `m` is at least `2^52` unless `q = -1074`. -/
def split (x : Float) : Option Parts :=
  let bits : Nat := x.toBits.toNat
  let negative := bits / Nat.pow 2 63 == 1
  let e : Nat := bits / Nat.pow 2 52 % Nat.pow 2 11
  let f := bits % Nat.pow 2 52
  if e = 2047 then none
  else if e = 0 then some ⟨negative, f, -1074⟩
  else some ⟨negative, Nat.pow 2 52 + f, (e : Int) - 1075⟩

/-- The double `±m · 2^q`, for a value that a double holds exactly. -/
def join (p : Parts) : Float :=
  if p.m = 0 then Float.ofBits (UInt64.ofNat (if p.negative then Nat.pow 2 63 else 0))
  else
    let e := max (p.q + p.m.log2 - 52) (-1074)
    let m := if e < p.q then p.m <<< (p.q - e).toNat else p.m >>> (e - p.q).toNat
    let magnitude := if m < Nat.pow 2 52 then m
      else (e + 1075).toNat * Nat.pow 2 52 + (m - Nat.pow 2 52)
    Float.ofBits (UInt64.ofNat (magnitude + if p.negative then Nat.pow 2 63 else 0))

/-- Drop the fraction of `x`, and go one unit further from zero if `away` says so; `away` sees
the sign, the fraction and the size of a unit, both counted in steps of `2^q`. Numbers without
a fraction, infinities and undefined values stay as they are. -/
def roundBy (away : Bool → Nat → Nat → Bool) (x : Float) : Float :=
  match split x with
  | none => x
  | some p =>
    if 0 ≤ p.q then x
    else
      let k := (-p.q).toNat
      let fraction := p.m % Nat.pow 2 k
      join ⟨p.negative, (p.m >>> k) + (if away p.negative fraction (Nat.pow 2 k) then 1 else 0), 0⟩

/-- The largest whole number that is not above `x`. -/
def floor : Float → Float := roundBy fun negative f _ => negative && f != 0

/-- The least whole number that is not below `x`. -/
def ceil : Float → Float := roundBy fun negative f _ => !negative && f != 0

/-- The whole part of `x`. -/
def trunc : Float → Float := roundBy fun _ _ _ => false

/-- The nearest whole number, a half going away from zero. -/
def round : Float → Float := roundBy fun _ f unit => unit ≤ 2 * f

/-- The whole part of a finite double as an integer. An infinity counts as `±2^1024`, past every
finite double, and an undefined value as zero. -/
def toInt (x : Float) : Int :=
  match split x with
  | some p =>
    let n := if 0 ≤ p.q then p.m <<< p.q.toNat else p.m >>> (-p.q).toNat
    if p.negative then -(n : Int) else n
  | none =>
    let bound : Int := Nat.pow 2 1024
    if 0 < x then bound else if x < 0 then -bound else 0

/-- The remainder of `x` after taking whole multiples of `y` towards zero. It has the sign of
`x`, is exact, and is undefined for an infinite `x` or a zero `y`. -/
def remainder (x y : Float) : Float :=
  match split x, split y with
  | some a, some b =>
    if b.m = 0 then 0.0 / 0.0
    else
      let q := min a.q b.q
      let m := a.m <<< (a.q - q).toNat
      let n := b.m <<< (b.q - q).toNat
      join ⟨a.negative, m % n, q⟩
  | some _, none => if y.isNaN then y else x
  | none, _ => 0.0 / 0.0

/-- Of two doubles the larger; an undefined value gives way to the other. -/
def maxNum (x y : Float) : Float := if x.isNaN then y else if x < y then y else x

/-- Of two doubles the smaller; an undefined value gives way to the other. -/
def minNum (x y : Float) : Float := if x.isNaN then y else if y < x then y else x

/-- The same number: zeros of both signs agree, and so do undefined values. -/
def identical (x y : Float) : Bool := x == y || (x.isNaN && y.isNaN)

/-- The distance from one to the next larger double, `2⁻⁵²`. -/
def epsilon : Float := join ⟨false, 1, -52⟩

/-- The nearest number of single precision. -/
def toSingle (x : Float) : Float := x.toFloat32.toFloat

end SmoothedParticles.Double
