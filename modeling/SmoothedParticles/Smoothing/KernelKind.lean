import SmoothedParticles.Report.Error
import SmoothedParticles.Text.Blank

/-!
# Kinds of smoothing kernels

A kernel is named by its kind. Names are read with blanks around them, in letters of any case,
and with dashes in place of underscores.
-/

namespace SmoothedParticles

/-- The shape of a smoothing kernel with support `h`, as a function of `q = r / h`. -/
inductive KernelKind
  /-- `(1 + 3 q) (1 - q)³`. -/
  | lucy
  /-- `(h² - r²)³`. -/
  | poly6
  /-- Two cubic pieces that join at `q = 1/2`. -/
  | cubicSpline
  /-- `(h - r)³`. -/
  | spiky
  /-- A Gaussian with standard deviation `h / 3`, lowered to be zero at the support. -/
  | gaussian
  deriving DecidableEq, Repr

namespace KernelKind

/-- The name of a kind. -/
def name : KernelKind → String
  | lucy => "lucy"
  | poly6 => "poly6"
  | cubicSpline => "cubic_spline"
  | spiky => "spiky"
  | gaussian => "gaussian"

/-- All kinds. -/
def all : List KernelKind := [lucy, poly6, cubicSpline, spiky, gaussian]

/-- The kind with a name, spelled exactly. -/
def ofName? (name : String) : Option KernelKind := all.find? fun k => k.name = name

/-- A name in its normal spelling: without blanks around it, in small letters, and with
underscores. Only the letters of ASCII have a case here. -/
def normalize (name : String) : String :=
  String.ofList <| (Text.trim name.toList).map fun c => if c = '-' then '_' else c.toLower

/-- **The kind with a name** in any spelling; the cubic spline has a short name too. -/
def parse {α : Type} (name : String) : Except (Error α) KernelKind :=
  let normal := normalize name
  match if normal = "cubic" then some cubicSpline else ofName? normal with
  | some kind => .ok kind
  | none => invalid (.kernelName name)

theorem ofName?_name (k : KernelKind) : ofName? k.name = some k := by cases k <;> decide

end KernelKind

end SmoothedParticles
