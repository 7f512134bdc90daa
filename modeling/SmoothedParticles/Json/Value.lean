import SmoothedParticles.Json.Token

/-!
# Values of JSON

A value is built from tokens by a machine with a stack of the arrays and objects that are open.

* `Builder.step`: one token.
* `Value.ofString?`: the value that a text spells, with nothing behind it.
* `Value.fields?`: the entries of a record, which is an object or an array.
-/

namespace SmoothedParticles.Json

/-- A value of JSON. The entries of an object are in order, and can have the same name. -/
inductive Value
  | null
  | bool (b : Bool)
  | number (n : NumberLiteral)
  | text (s : String)
  | array (items : List Value)
  | object (entries : List (String × Value))

namespace Builder

/-- An array or an object that is open, with what it has so far in reverse. An object knows the
name of the entry that comes next. -/
inductive Frame
  | array (items : List Value)
  | object (entries : List (String × Value)) (name : String)

/-- What can come next. -/
inductive Next
  | value
  | valueOrEnd
  | name
  | nameOrEnd
  | colon
  | commaOrEnd
  | done (v : Value)

/-- The open frames, innermost first, and what can come next. -/
structure State where
  stack : List Frame
  next : Next

/-- A value is complete. -/
def give (stack : List Frame) (v : Value) : State :=
  match stack with
  | [] => ⟨[], .done v⟩
  | .array items :: rest => ⟨.array (v :: items) :: rest, .commaOrEnd⟩
  | .object entries name :: rest => ⟨.object ((name, v) :: entries) name :: rest, .commaOrEnd⟩

/-- The start of a value. -/
def startValue (stack : List Frame) : Token → Option State
  | .mark '[' => some ⟨.array [] :: stack, .valueOrEnd⟩
  | .mark '{' => some ⟨.object [] "" :: stack, .nameOrEnd⟩
  | .word "null" => some (give stack .null)
  | .word "true" => some (give stack (.bool true))
  | .word "false" => some (give stack (.bool false))
  | .number n => some (give stack (.number n))
  | .text s => some (give stack (.text s))
  | _ => none

/-- The end of the innermost frame. -/
def endFrame (stack : List Frame) (c : Char) : Option State :=
  match stack, c with
  | .array items :: rest, ']' => some (give rest (.array items.reverse))
  | .object entries _ :: rest, '}' => some (give rest (.object entries.reverse))
  | _, _ => none

/-- The name of an entry. -/
def startEntry (stack : List Frame) (name : String) : Option State :=
  match stack with
  | .object entries _ :: rest => some ⟨.object entries name :: rest, .colon⟩
  | _ => none

/-- **One token.** -/
def step (s : State) (t : Token) : Option State :=
  match s.next, t with
  | .value, t => startValue s.stack t
  | .valueOrEnd, .mark ']' => endFrame s.stack ']'
  | .valueOrEnd, t => startValue s.stack t
  | .name, .text name => startEntry s.stack name
  | .nameOrEnd, .text name => startEntry s.stack name
  | .nameOrEnd, .mark '}' => endFrame s.stack '}'
  | .colon, .mark ':' => some ⟨s.stack, .value⟩
  | .commaOrEnd, .mark ',' =>
    match s.stack with
    | .array _ :: _ => some ⟨s.stack, .value⟩
    | .object .. :: _ => some ⟨s.stack, .name⟩
    | [] => none
  | .commaOrEnd, .mark c => endFrame s.stack c
  | _, _ => none

end Builder

namespace Value

/-- **The value that a text spells.** -/
def ofString? (s : String) : Option Value := do
  let tokens ← Token.ofString? s
  match (← tokens.foldlM Builder.step ⟨[], .value⟩).next with
  | .done v => some v
  | _ => none

/-- **The entries of a record** with the given names, `none` for those left out. An object has
no other entries and none twice; an array has them in order, the last ones being left out. -/
def fields? (names : List String) : Value → Option (List (Option Value))
  | object entries =>
    let given := entries.map Prod.fst
    if given.all names.contains ∧ given.Nodup then
      some (names.map fun name => entries.lookup name)
    else none
  | array items =>
    if items.length ≤ names.length then
      some (names.zipIdx.map fun (_, i) => items[i]?)
    else none
  | _ => none

/-- The number as a double. -/
def toDouble? : Value → Option Float
  | number n => n.toDouble?
  | _ => none

/-- The number as a count. -/
def toNat? : Value → Option Nat
  | number n => n.toNat?
  | _ => none

/-- The truth value. -/
def toBool? : Value → Option Bool
  | bool b => some b
  | _ => none

/-- The name of a choice: a text, or an object with this name and nothing for it. -/
def toChoice? : Value → Option String
  | text s => some s
  | object [(s, null)] => some s
  | _ => none

end Value

end SmoothedParticles.Json
