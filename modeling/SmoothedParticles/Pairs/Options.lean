import SmoothedParticles.Number.Scalar
import SmoothedParticles.Report.Error

/-!
# Options of a search for neighbors

Points are neighbors if they are closer than the cutoff. With a skin, the search goes further,
so that its pairs stay complete while the points move a little.
-/

namespace SmoothedParticles

/-- Options of a search for neighbors. -/
structure SearchOptions (α : Type) where
  /-- The distance below which points are neighbors. -/
  cutoff : α
  /-- Is a point its own neighbor? This has no effect between two sets of points. -/
  selfPairs : Bool
  /-- The distance beyond the cutoff up to which pairs are kept in reserve. -/
  skin : α

namespace SearchOptions

variable {α : Type} [Scalar α]

/-- Only a cutoff. -/
def ofCutoff (cutoff : α) : SearchOptions α := ⟨cutoff, false, 0⟩

/-- A positive cutoff and a skin that is not negative. -/
def validate (o : SearchOptions α) : Except (Error α) Unit := do
  if ¬Scalar.IsPositive o.cutoff then invalid (.cutoff o.cutoff)
  if ¬(0 ≤ o.skin ∧ Scalar.isFinite o.skin = true) then invalid (.skin o.skin)

/-- The distance up to which pairs are searched. -/
def searchRadius (o : SearchOptions α) : α := o.cutoff + o.skin

end SearchOptions

end SmoothedParticles
