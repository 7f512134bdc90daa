/-!
# Axes and dimensions

Space has two or three dimensions. Points of the plane are kept as points of space whose last
coordinate is zero, so an axis is one of three, and a dimension says which of them are in use.
-/

namespace SmoothedParticles

/-- A coordinate axis. -/
inductive Axis
  | x | y | z
  deriving DecidableEq, Repr

namespace Axis

/-- The position of the axis among the coordinates. -/
def toNat : Axis → Nat
  | x => 0
  | y => 1
  | z => 2

/-- The axis at a position. -/
def ofNat? : Nat → Option Axis
  | 0 => some x
  | 1 => some y
  | 2 => some z
  | _ => none

theorem ofNat?_toNat (a : Axis) : ofNat? a.toNat = some a := by cases a <;> rfl

end Axis

/-- The number of dimensions of space. -/
inductive Dimension
  | two | three
  deriving DecidableEq, Repr

namespace Dimension

/-- Two or three. -/
def toNat : Dimension → Nat
  | two => 2
  | three => 3

/-- The dimension with a given number, if there is one. -/
def ofNat? : Nat → Option Dimension
  | 2 => some two
  | 3 => some three
  | _ => none

/-- The axes in use, in order. -/
def axes : Dimension → List Axis
  | two => [.x, .y]
  | three => [.x, .y, .z]

theorem length_axes (d : Dimension) : d.axes.length = d.toNat := by cases d <;> rfl

theorem ofNat?_toNat (d : Dimension) : ofNat? d.toNat = some d := by cases d <;> rfl

theorem ofNat?_eq_some {n : Nat} {d : Dimension} (h : ofNat? n = some d) : d.toNat = n := by
  unfold ofNat? at h
  split at h <;> simp_all [toNat] <;> subst h <;> rfl

end Dimension

end SmoothedParticles
