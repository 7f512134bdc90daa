import SmoothedParticles.Force.Hertz
import SmoothedParticles.Force.Viscosity
import SmoothedParticles.Json.Value
import SmoothedParticles.Smoothing.Interpolation

/-!
# Parameters in JSON

Parameters are read from records with fixed names. Names that are missing, unknown or given
twice are errors, and so are values of the wrong kind; all this comes before the conditions on
the values. Some entries can be left out, and then have a default.
-/

namespace SmoothedParticles

open Json

/-- The entries of a record in a text. -/
def readFields? (names : List String) (s : String) : Option (List (Option Value)) :=
  (Value.ofString? s).bind (Value.fields? names)

/-- An entry that has to be given. -/
def required {β : Type} (read : Value → Option β) (v : Option Value) : Option β := v.bind read

/-- An entry that can be left out. -/
def optional {β : Type} (default : β) (read : Value → Option β) : Option Value → Option β
  | none => some default
  | some v => read v

/-- What is read, or an error if the text is no description of it. -/
def orMalformed {β : Type} : Option β → Except (Error Float) β
  | some b => .ok b
  | none => .error .malformed

/-- A vector as a list of three numbers. -/
def Vec3.ofJson (s : String) : Except (Error Float) (Vec3 Float) :=
  orMalformed do
    match ← Value.ofString? s with
    | .array [x, y, z] => return ⟨← x.toDouble?, ← y.toDouble?, ← z.toDouble?⟩
    | _ => none

/-- **A kernel** from its kind, smoothing length and dimension. -/
def Kernel.ofJson (s : String) : Except (Error Float) (Kernel Float) := do
  let (kind, h, dimension) ← orMalformed do
    match ← readFields? ["kind", "smoothing_length", "dimension"] s with
    | [kind, h, dimension] =>
      let name ← required Value.toChoice? kind
      return (← KernelKind.ofName? name, ← required Value.toDouble? h,
        ← required Value.toNat? dimension)
    | _ => none
  Kernel.make kind h dimension

/-- **Options of a search.** -/
def SearchOptions.ofJson (s : String) : Except (Error Float) (SearchOptions Float) := do
  let options ← orMalformed do
    match ← readFields? ["cutoff", "self_pairs", "skin"] s with
    | [cutoff, selfPairs, skin] =>
      return ⟨← required Value.toDouble? cutoff, ← optional false Value.toBool? selfPairs,
        ← optional 0 Value.toDouble? skin⟩
    | _ => none
  options.validate
  return options

/-- **A normalization**, of sums if it is left out. -/
def Normalization.ofJson (s : String) : Except (Error Float) Normalization :=
  orMalformed do
    match ← readFields? ["normalization"] s with
    | [name] => optional .sum (fun v => v.toChoice?.bind Normalization.ofName?) name
    | _ => none

/-- **Parameters of elastic contacts.** -/
def ContactParameters.ofJson (s : String) : Except (Error Float) (ContactParameters Float) := do
  let parameters ← orMalformed do
    match ← readFields? ["radius_a", "radius_b", "modulus_a", "modulus_b", "poisson_ratio"] s with
    | [radiusA, radiusB, modulusA, modulusB, poissonRatio] =>
      return ⟨← required Value.toDouble? radiusA, ← required Value.toDouble? radiusB,
        ← required Value.toDouble? modulusA, ← required Value.toDouble? modulusB,
        ← optional 0.5 Value.toDouble? poissonRatio⟩
    | _ => none
  parameters.validate
  return parameters

/-- **Parameters of the viscosity.** -/
def ViscosityParameters.ofJson (s : String) :
    Except (Error Float) (ViscosityParameters Float) := do
  let parameters ← orMalformed do
    match ← readFields? ["sound_speed", "density", "q1", "smoothing_length", "epsilon",
      "repulsion_only"] s with
    | [soundSpeed, density, q1, smoothingLength, epsilon, repulsionOnly] =>
      return ⟨← required Value.toDouble? soundSpeed, ← required Value.toDouble? density,
        ← required Value.toDouble? q1, ← required Value.toDouble? smoothingLength,
        ← optional 0.01 Value.toDouble? epsilon, ← optional false Value.toBool? repulsionOnly⟩
    | _ => none
  parameters.validate
  return parameters

end SmoothedParticles
