import SmoothedParticles.Report.Error
import SmoothedParticles.Space.Table

/-!
# Simulation boxes

A `Box` is an axis-aligned domain in two or three dimensions, with periodic boundary conditions
along some of its axes. The axis that a flat box does not use has length zero and is not
periodic.

* `Box.ofBounds`, `Box.square?`, `Box.cubic?`: the ways to make a box.
* `Box.checkInside`: the points of a table, if all are inside of the closed box.
-/

namespace SmoothedParticles

/-- An axis-aligned domain. Periodicity is part of the description, and is never inferred from
points. -/
structure Box (α : Type) [Scalar α] where
  dimension : Dimension
  lo : Vec3 α
  hi : Vec3 α
  periodic : Vec3 Bool
  /-- The bounds along the axes in use are in order. -/
  lo_lt_hi : ∀ a ∈ dimension.axes, lo.get a < hi.get a
  /-- The axis that is not in use is degenerate. -/
  flat : ∀ a, a ∉ dimension.axes → lo.get a = 0 ∧ hi.get a = 0 ∧ periodic.get a = false

namespace Box

variable {α : Type} [Scalar α]

/-- Are the bounds along an axis finite and in order? -/
def ValidBounds (lo hi : Vec3 α) (a : Axis) : Prop :=
  Scalar.isFinite (lo.get a) = true ∧ Scalar.isFinite (hi.get a) = true ∧ lo.get a < hi.get a

instance (lo hi : Vec3 α) (a : Axis) : Decidable (ValidBounds lo hi a) :=
  inferInstanceAs (Decidable (_ ∧ _ ∧ _))

/-- A value on the axes in use, `default` on the others. -/
def restrict {β : Type} (d : Dimension) (default : β) (v : Vec3 β) : Vec3 β :=
  .ofFn fun a => if a ∈ d.axes then v.get a else default

/-- The box with the given bounds, which have to be finite and in order along each axis in use. -/
def ofVectors (d : Dimension) (lo hi : Vec3 α) (periodic : Vec3 Bool) : Except (Error α) (Box α) :=
  match h : d.axes.find? fun a => !decide (ValidBounds lo hi a) with
  | some a => invalid (.boxBounds a (lo.get a) (hi.get a))
  | none => .ok
      { dimension := d
        lo := restrict d 0 lo
        hi := restrict d 0 hi
        periodic := restrict d false periodic
        lo_lt_hi := fun a ha => by
          have := List.find?_eq_none.1 h a ha
          simp only [Bool.not_eq_true, Bool.not_eq_false', decide_eq_true_eq] at this
          simpa [restrict, ha] using this.2.2
        flat := fun a ha => by simp [restrict, ha] }

/-- **A box from its bounds**, one entry per dimension in each list. -/
def ofBounds (lo hi : List α) (periodic : List Bool) : Except (Error α) (Box α) :=
  match Dimension.ofNat? lo.length with
  | none => invalid (.boxDimension lo.length)
  | some d =>
    if hi.length ≠ lo.length ∨ periodic.length ≠ lo.length then
      mismatch (.boxBounds lo.length hi.length periodic.length)
    else ofVectors d (.ofList 0 lo) (.ofList 0 hi) (.ofList false periodic)

/-- The square from the origin with sides of a positive length. -/
def square? (length : α) (periodic : Bool) : Except (Error α) (Box α) :=
  if h : 0 < length then .ok
    { dimension := .two
      lo := .replicate 0
      hi := ⟨length, length, 0⟩
      periodic := ⟨periodic, periodic, false⟩
      lo_lt_hi := fun a ha => by cases a <;> simp_all [Dimension.axes, Vec3.get, Vec3.replicate]
      flat := fun a ha => by cases a <;> simp_all [Dimension.axes, Vec3.get, Vec3.replicate] }
  else .error .fault

/-- The cube from the origin with sides of a positive length. -/
def cubic? (length : α) (periodic : Bool) : Except (Error α) (Box α) :=
  if h : 0 < length then .ok
    { dimension := .three
      lo := .replicate 0
      hi := .replicate length
      periodic := .replicate periodic
      lo_lt_hi := fun a _ => by cases a <;> simpa [Vec3.get, Vec3.replicate] using h
      flat := fun a ha => by cases a <;> simp_all [Dimension.axes] }
  else .error .fault

/-- The length along an axis, zero along the one that is not in use. -/
def length (box : Box α) (a : Axis) : α := box.hi.get a - box.lo.get a

/-- The lengths along all axes. -/
def lengths (box : Box α) : Vec3 α := .ofFn box.length

/-- The product of the lengths along the axes in use. -/
def volume (box : Box α) : α := box.dimension.axes.foldl (fun v a => v * box.length a) 1

/-- The periodic axes, in order. -/
def periodicAxes (box : Box α) : List Axis := box.dimension.axes.filter box.periodic.get

/-- Is the box periodic along each axis in use? -/
def allPeriodic (box : Box α) : Bool := box.dimension.axes.all box.periodic.get

/-- The length along the axis at a position; there are three of them in the plane too. -/
def lengthAt (box : Box α) (n : Nat) : Except (Error α) α :=
  match Axis.ofNat? n with
  | some a => .ok (box.length a)
  | none => .error .fault

/-- Is the axis at a position periodic? There are three of them in the plane too. -/
def isPeriodicAt (box : Box α) (n : Nat) : Except (Error α) Bool :=
  match Axis.ofNat? n with
  | some a => .ok (box.periodic.get a)
  | none => .error .fault

/-- Is a coordinate within the closed bounds along an axis? -/
def spans (box : Box α) (a : Axis) (x : α) : Bool := box.lo.get a ≤ x && x ≤ box.hi.get a

/-- Are the coordinates, as many as are given, within the bounds? A fourth one has no bounds to
be compared with, which matters if the first three are inside. -/
def contains (box : Box α) (point : List α) : Except (Error α) Bool :=
  if ([Axis.x, .y, .z].zip point).all fun (a, x) => box.spans a x then
    if point.length ≤ 3 then .ok true else .error .fault
  else .ok false

/-- The first axis along which a point is outside. -/
def outsideAxis? (box : Box α) (p : Vec3 α) : Option Axis :=
  box.dimension.axes.find? fun a => !box.spans a (p.get a)

/-- The first point of a list that is outside, with the axis along which it is. -/
def firstOutside? (box : Box α) (ps : List (Vec3 α)) : Option (Error α) :=
  ps.zipIdx.findSome? fun (p, i) => (box.outsideAxis? p).map fun a => .outsideBox i a (p.get a)

/-- The rows of a table as points, if it has one column per axis of the box. -/
def pointsOf (box : Box α) (t : Table α) : Except (Error α) (Array (Vec3 α)) :=
  if t.columns = box.dimension.toNat then .ok t.points
  else mismatch (.boxColumns box.dimension.toNat t.columns)

/-- **The points of a table**, if it has one column per axis and all points are inside of the
closed box, along periodic axes too. -/
def checkInside (box : Box α) (t : Table α) : Except (Error α) (Array (Vec3 α)) := do
  let ps ← box.pointsOf t
  match box.firstOutside? ps.toList with
  | some e => .error e
  | none => .ok ps

end Box

end SmoothedParticles
