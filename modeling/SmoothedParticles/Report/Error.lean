import SmoothedParticles.Space.Axis

/-!
# What can go wrong

An operation fails for one of the causes below. A cause carries what its message tells, and the
wording is `Error.message`; numbers in it are written by a function that the caller chooses.

* `InvalidParameter`: a value that makes no sense, or an operation that a state does not allow.
* `ShapeMismatch`: tables or lists that do not fit together.
* `Error.outsideBox`: a point that should have been inside of the box.
* `Error.malformed`: text that is no description of parameters.
* `Error.fault`: a broken promise of the caller, for which there is no answer at all.
-/

namespace SmoothedParticles

/-- The two sides of a search for neighbors. -/
inductive Side
  | query | reference
  deriving DecidableEq, Repr

/-- The adjective for a side. -/
def Side.name : Side → String
  | .query => "query"
  | .reference => "reference"

/-- A value that makes no sense, or an operation that a state does not allow. -/
inductive InvalidParameter (α : Type)
  | boxDimension (n : Nat)
  | boxBounds (axis : Axis) (lo hi : α)
  | imageCutoff (value : α) (axis : Axis)
  | imageCutoffTooLarge (value length : α) (axis : Axis)
  | gridSpacing (value : α)
  | cutoff (value : α)
  | skin (value : α)
  | notFinite (side : Side) (point : Nat)
  | tolerance (value : α)
  | noSamples
  | updateOfPart
  | unexpectedReference
  | missingReference
  | unexpectedReferenceTypes
  | missingReferenceTypes
  | kernelName (name : String)
  | smoothingLength (kernel : String) (value : α)
  | kernelDimension (n : Nat)
  | contact (quantity : String) (value : α)
  | poissonRatio (value : α)
  | viscosity (quantity : String) (value : α)
  | viscosityOfCross
  | smoothingLengths (kernel expected : α)
  | particleDimension (n : Nat)
  | particlesFixed
  deriving Repr

/-- Tables or lists that do not fit together. -/
inductive ShapeMismatch
  | boxBounds (lo hi periodic : Nat)
  | boxColumns (expected actual : Nat)
  | imageColumns (points images : Nat)
  | columns (side : Side) (actual : Nat)
  | dimensions (query reference : Nat)
  | mask (side : Side) (actual expected : Nat)
  | groups (side : Side) (actual expected : Nat)
  | moved (side : Side) (new old : Nat × Nat)
  | types (side : Side) (expected actual : Nat)
  | kernelOfList (list kernel : Nat)
  | values (expected actual : Nat)
  | volumes (expected actual : Nat)
  | velocities (expected actual : Nat × Nat)
  | particleVolumes (expected actual : Nat)
  | kernelOfParticles (kernel particles : Nat)
  | flatParticle (axis : Axis) (dimension : Nat)
  | property (name : String) (actual expected : Nat)
  | row
  deriving Repr

/-- Why an operation failed. -/
inductive Error (α : Type)
  | invalidParameter (cause : InvalidParameter α)
  | shapeMismatch (cause : ShapeMismatch)
  | outsideBox (point : Nat) (axis : Axis) (value : α)
  | malformed
  | fault
  deriving Repr

variable {α : Type}

namespace InvalidParameter

/-- The wording of a cause, with numbers written by `text`. -/
def message (text : α → String) : InvalidParameter α → String
  | boxDimension n => s!"simulation box must be 2 or 3 dimensional, got {n} dimensions"
  | boxBounds axis lo hi =>
    s!"invalid box bounds along dimension {axis.toNat}: [{text lo}, {text hi}]"
  | imageCutoff value axis =>
    s!"image cutoff must be a positive number, got {text value} along dimension {axis.toNat}"
  | imageCutoffTooLarge value length axis =>
    s!"image cutoff ({text value}) is larger than half of the box length ({text length}) along " ++
    s!"dimension {axis.toNat}, multiple images would be required"
  | gridSpacing value => s!"grid spacing must be a positive number, got {text value}"
  | cutoff value => s!"neighbor list cutoff must be a positive number, got {text value}"
  | skin value => s!"neighbor list skin must be a positive number or zero, got {text value}"
  | notFinite side point =>
    s!"{side.name} points contain non-finite coordinates for point {point}"
  | tolerance value => s!"update tolerance must be a positive number, got {text value}"
  | noSamples => "the number of samples for neighbor list update must be at least 1"
  | updateOfPart =>
    "can not update a partitioned neighbor list, update the full list and partition it again"
  | unexpectedReference => "can not give reference points when updating a self neighbor list"
  | missingReference => "missing reference points when updating a cross neighbor list"
  | unexpectedReferenceTypes =>
    "can not give reference types when partitioning a self neighbor list"
  | missingReferenceTypes => "missing reference types when partitioning a cross neighbor list"
  | kernelName name =>
    s!"unknown kernel '{name}', expected one of lucy, poly6, cubic_spline, spiky or gaussian"
  | smoothingLength kernel value =>
    s!"expected positive smoothing length for {kernel} kernel, got {text value}"
  | kernelDimension n => s!"kernels are only defined in 2 or 3 dimensions, got {n}"
  | contact quantity value =>
    s!"expected positive {quantity} for Hertz contact, got {text value}"
  | poissonRatio value =>
    s!"expected Poisson's ratio between -1 and 0.5 for Hertz contact, got {text value}"
  | viscosity quantity value =>
    s!"expected positive {quantity} for Landshoff viscosity, got {text value}"
  | viscosityOfCross => "Landshoff viscosity requires a self neighbor list"
  | smoothingLengths kernel expected =>
    s!"the kernel smoothing length ({text kernel}) does not match the Landshoff viscosity " ++
    s!"smoothing length ({text expected})"
  | particleDimension n => s!"particles must be 2 or 3 dimensional, got {n} dimensions"
  | particlesFixed => "can not add particles to a set with extra properties"

end InvalidParameter

namespace ShapeMismatch

/-- A shape as text. -/
def shapeText (shape : Nat × Nat) : String := s!"[{shape.1}, {shape.2}]"

/-- The wording of a cause. -/
def message : ShapeMismatch → String
  | boxBounds lo hi periodic =>
    s!"box bounds and periodicity must have the same size, got lo={lo}, hi={hi} and " ++
    s!"periodic={periodic}"
  | boxColumns expected actual =>
    s!"points must have {expected} columns to match the box dimension, got {actual}"
  | imageColumns points images => s!"points have {points} columns but images have {images}"
  | columns side actual =>
    s!"{side.name} points must be 2 or 3 dimensional, got {actual} columns"
  | dimensions query reference =>
    s!"query points have {query} dimensions but reference points have {reference}"
  | mask side actual expected =>
    s!"{side.name} mask filter has {actual} entries, but there are {expected} points"
  | groups side actual expected =>
    s!"{side.name} groups filter has {actual} entries, but there are {expected} points"
  | moved side new old =>
    s!"new {side.name} points have shape {shapeText new}, but this neighbor list was built " ++
    s!"with shape {shapeText old}"
  | types side expected actual => s!"expected {expected} {side.name} types, got {actual}"
  | kernelOfList list kernel =>
    s!"the neighbor list is for {list}-dimensional points, but the kernel is {kernel}-dimensional"
  | values expected actual => s!"expected values for {expected} samples, got {actual}"
  | volumes expected actual => s!"expected volumes for {expected} samples, got {actual}"
  | velocities expected actual =>
    s!"expected velocities with shape ({expected.1}, {expected.2}), got {shapeText actual}"
  | particleVolumes expected actual => s!"expected {expected} volumes, got {actual}"
  | kernelOfParticles kernel particles =>
    s!"the kernel is {kernel}-dimensional, but the particles are {particles}-dimensional"
  | flatParticle axis dimension =>
    s!"particle has a non-zero component along dimension {axis.toNat} in a " ++
    s!"{dimension}-dimensional set"
  | property name actual expected =>
    s!"extra property '{name}' has {actual} rows, but there are {expected} particles"
  | row => "ShapeError/IncompatibleShape: incompatible shapes"

end ShapeMismatch

/-- The message of an error, with numbers written by `text`. -/
def Error.message (text : α → String) : Error α → String
  | invalidParameter cause => "invalid parameter: " ++ cause.message text
  | shapeMismatch cause => "shape mismatch: " ++ cause.message
  | outsideBox point axis value =>
    s!"point {point} is outside of the box along dimension {axis.toNat} (coordinate is " ++
    s!"{text value}), wrap the points inside the box first"
  | malformed => "malformed parameters"
  | fault => "fault"

/-- Fail because of an invalid parameter. -/
def invalid {β : Type} (cause : InvalidParameter α) : Except (Error α) β :=
  .error (.invalidParameter cause)

/-- Fail because of shapes that do not match. -/
def mismatch {β : Type} (cause : ShapeMismatch) : Except (Error α) β :=
  .error (.shapeMismatch cause)

end SmoothedParticles
