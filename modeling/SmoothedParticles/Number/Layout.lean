import SmoothedParticles.Number.Digits

/-!
# The text of a number

A `Layout` holds the decisions that the digits leave open: where positional notation ends, what
a whole number and a negative zero look like. There are two of them.

* `Layout.answer`: for numbers handed on to a program. Very large and very small ones get an
  exponent, whole ones end in `.0`, and zero has no sign.
* `Layout.message`: for numbers in a sentence. There is never an exponent, whole numbers have no
  point, and zero keeps its sign.
-/

namespace SmoothedParticles

/-- How a number is laid out as text. -/
structure Layout where
  /-- `0.d₁d₂… · 10^k` is positional if `k` lies above the first bound and not above the second;
  without bounds it always is. -/
  positional : Option (Int × Int)
  /-- Whole numbers end in `.0`. -/
  wholePoint : Bool
  /-- A negative zero keeps its sign. -/
  signedZero : Bool

namespace Layout

/-- Numbers that are read back by a program. -/
def answer : Layout := ⟨some (-5, 16), true, false⟩

/-- Numbers in a sentence. -/
def message : Layout := ⟨none, false, true⟩

/-- `d₁d₂…dₙ` with the point after the first `k` digits; zeros fill the places up to it. -/
def positionalText (wholePoint : Bool) (ds : List Char) (k : Int) : String :=
  let fraction := if wholePoint then ".0" else ""
  if k ≤ 0 then "0." ++ String.ofList (List.replicate (-k).toNat '0' ++ ds)
  else if ds.length ≤ k.toNat then
    String.ofList (ds ++ List.replicate (k.toNat - ds.length) '0') ++ fraction
  else String.ofList (ds.take k.toNat) ++ "." ++ String.ofList (ds.drop k.toNat)

/-- One digit, the others behind a point, and the exponent with its sign. -/
def exponentText (ds : List Char) (k : Int) : String :=
  let tail := ds.drop 1
  let point := if tail.isEmpty then "" else "."
  let sign := if k - 1 < 0 then "-" else "+"
  String.ofList (ds.take 1) ++ point ++ String.ofList tail ++ "e" ++ sign ++ toString (k - 1).natAbs

/-- The text of a positive decimal. -/
def digitsText (l : Layout) (d : Digits) : String :=
  let ds := Nat.toDigits 10 d.significand
  let k := d.point
  match l.positional with
  | none => positionalText l.wholePoint ds k
  | some (lo, hi) => if lo < k ∧ k ≤ hi then positionalText l.wholePoint ds k else exponentText ds k

/-- The text of a double: the shortest digits that read back as the same number. -/
def text (l : Layout) (x : Float) : String :=
  match Double.split x with
  | some ⟨negative, m, q⟩ =>
    if m = 0 then
      (if negative && l.signedZero then "-0" else "0") ++ (if l.wholePoint then ".0" else "")
    else (if negative then "-" else "") ++ l.digitsText (Digits.shortest m q)
  | none => if x.isNaN then "NaN" else if x < 0 then "-inf" else "inf"

end Layout

end SmoothedParticles
