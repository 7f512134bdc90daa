/-!
# Events worth telling

Some operations tell what they did beside their result. An `Event` carries what its message
tells, and `Event.message` is the wording.
-/

namespace SmoothedParticles

/-- How much attention an event deserves. -/
inductive Level
  | warning | info | debug
  deriving DecidableEq, Repr

/-- Something that happened during an operation. -/
inductive Event (α : Type)
  | duplicatesRemoved (count : Nat)
  | imagesGenerated (faces edges corners points : Nat)
  | reunified (passes : Nat) (before after : α)
  | reunificationRejected (points : Nat) (before after : α)
  | closePairs (count : Nat) (threshold : α)
  | rebuilding (displacement threshold : α)
  | cutoffBelowSupport (cutoff support : α)
  | samplesMissing (missing total : Nat)
  deriving Repr

namespace Event

variable {α : Type}

/-- The level of an event. -/
def level : Event α → Level
  | duplicatesRemoved .. | imagesGenerated .. | reunified .. => .debug
  | rebuilding .. => .info
  | reunificationRejected .. | closePairs .. | cutoffBelowSupport .. | samplesMissing .. => .warning

/-- The wording of an event, with numbers written by `text`. -/
def message (text : α → String) : Event α → String
  | duplicatesRemoved count => s!"removed {count} duplicated periodic images"
  | imagesGenerated faces edges corners points =>
    s!"generated {faces + edges + corners} periodic images ({faces} face, {edges} edge, " ++
    s!"{corners} corner) for {points} points"
  | reunified passes before after =>
    s!"reunification after {passes} passes: spread went from {text before} to {text after}"
  | reunificationRejected points before after =>
    s!"rejected reunification of {points} points, the spread did not decrease " ++
    s!"({text before} -> {text after})"
  | closePairs count threshold =>
    s!"{count} pairs of points are very close to one another (less than {text threshold})"
  | rebuilding displacement threshold =>
    s!"rebuilding neighbor list: points moved by {text displacement} which is more than the " ++
    s!"tolerance ({text threshold})"
  | cutoffBelowSupport cutoff support =>
    s!"the neighbor list cutoff ({text cutoff}) is smaller than the kernel smoothing length " ++
    s!"({text support})"
  | samplesMissing missing total =>
    s!"{missing} query points out of {total} have no sample within the kernel support, " ++
    "their value is NaN"

end Event

end SmoothedParticles
