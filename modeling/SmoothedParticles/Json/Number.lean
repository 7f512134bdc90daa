import SmoothedParticles.Number.Digits

/-!
# Number literals

A literal of JSON has a sign, digits, and maybe a fraction and an exponent.

* `NumberLiteral.ofChars?`: the literal that some characters spell.
* `NumberLiteral.toNat?`: the value of a literal for a count.
* `NumberLiteral.toDouble?`: the value of a literal as a double, if it is not too large.
-/

namespace SmoothedParticles.Json

/-- A number as it is written. -/
structure NumberLiteral where
  negative : Bool
  whole : List Nat
  /-- The digits after the point, empty if there is none. -/
  fraction : List Nat
  exponent? : Option Int
  deriving DecidableEq, Repr

namespace NumberLiteral

/-- The value of a decimal digit. -/
def digit (c : Char) : Nat := c.toNat - '0'.toNat

/-- The digits at the start of some characters, and the rest. -/
def digits (cs : List Char) : List Nat × List Char :=
  ((cs.takeWhile Char.isDigit).map digit, cs.dropWhile Char.isDigit)

/-- The number with the given digits. -/
def value (ds : List Nat) : Nat := ds.foldl (fun n d => 10 * n + d) 0

/-- Digits after a point, if there is one. -/
def fraction? : List Char → Option (List Nat × List Char)
  | '.' :: rest =>
    let (ds, rest) := digits rest
    if ds.isEmpty then none else some (ds, rest)
  | rest => some ([], rest)

/-- An exponent and its sign at the very end, if there is one. -/
def exponentAtEnd? (cs : List Char) : Option (Option Int) :=
  let signed (negative : Bool) (cs : List Char) : Option (Option Int) :=
    match digits cs with
    | ([], _) => none
    | (ds, []) => some (some (if negative then -(value ds : Int) else value ds))
    | _ => none
  let afterMark : List Char → Option (Option Int)
    | '+' :: rest => signed false rest
    | '-' :: rest => signed true rest
    | rest => signed false rest
  match cs with
  | [] => some none
  | 'e' :: rest => afterMark rest
  | 'E' :: rest => afterMark rest
  | _ => none

/-- A literal without its sign. There are no zeros in front of other digits. -/
def unsigned? (negative : Bool) (cs : List Char) : Option NumberLiteral := do
  let (whole, rest) := digits cs
  if whole.isEmpty ∨ (whole.head? = some 0 ∧ 1 < whole.length) then none
  let (fraction, rest) ← fraction? rest
  let exponent? ← exponentAtEnd? rest
  return ⟨negative, whole, fraction, exponent?⟩

/-- **The literal that some characters spell.** -/
def ofChars? : List Char → Option NumberLiteral
  | '-' :: rest => unsigned? true rest
  | cs => unsigned? false cs

/-- Is the literal written as an integer? -/
def isInteger (l : NumberLiteral) : Bool := l.fraction.isEmpty && l.exponent?.isNone

/-- **The value for a count**: an integer without a sign that fits a word of 64 bits. -/
def toNat? (l : NumberLiteral) : Option Nat :=
  if l.isInteger ∧ ¬l.negative ∧ value l.whole < UInt64.size then some (value l.whole) else none

/-- The double nearest to the literal. -/
def nearestDouble (l : NumberLiteral) : Float :=
  let x := Digits.toDouble
    ⟨value (l.whole ++ l.fraction), l.exponent?.getD 0 - l.fraction.length⟩
  if l.negative then -x else x

/-- The digits of the whole part in a word of 64 bits, and the number of digits dropped because
they do not fit. -/
def wholeWord (ds : List Nat) : Nat × Nat :=
  ds.foldl (fun (word, dropped) d =>
    if dropped = 0 ∧ 10 * word + d < UInt64.size then (10 * word + d, 0) else (word, dropped + 1)) (0, 0)

/-- Digits of a fraction added to a word while they fit, and the number of digits added. -/
def addFraction (word : Nat) (ds : List Nat) : Nat × Nat :=
  let (word, added, _) := ds.foldl (fun (word, added, full) d =>
    if full || UInt64.size ≤ 10 * word + d then (word, added, true)
    else (10 * word + d, added + 1, false)) (word, 0, false)
  (word, added)

/-- The largest exponent of a power of ten that is a finite double. -/
def maxPower : Nat := 308

/-- The double nearest to a power of ten. -/
def powerOfTen (n : Nat) : Float := Float.ofScientific 1 false n

/-- A double times a power of ten, in steps that are finite; `none` if it gets too large. -/
def scale? (x : Float) (e : Int) : Option Float :=
  if e.natAbs ≤ maxPower then
    if 0 ≤ e then
      let y := x * powerOfTen e.toNat
      if y.isFinite then some y else none
    else some (x / powerOfTen e.natAbs)
  else if x == 0 then some x
  else if 0 ≤ e then none
  else scale? (x / powerOfTen maxPower) (e + maxPower)
termination_by (-e).toNat
decreasing_by simp only [maxPower] at *; omega

/-- **The value as a double.** The digits are collected in a word of 64 bits, which is rounded
to a double and then scaled by a power of ten. -/
def toDouble? (l : NumberLiteral) : Option Float := do
  let (word, dropped) := wholeWord l.whole
  let (word, added) := addFraction word l.fraction
  let e : Int := (dropped : Int) - added + l.exponent?.getD 0
  let x ← scale? (Digits.toDouble ⟨word, 0⟩) e
  return if l.negative then -x else x

end NumberLiteral

end SmoothedParticles.Json
