import SmoothedParticles.Space.Box

/-!
# Regular grids

A `Grid` has its points at the centers of equal cells that fill a box. It fits periodic
boundary conditions: across a face the points are as far apart as inside.

* `Grid.digits`: the place of a point from its number, the last axis changing fastest.
* `Box.grid`: the grid with cells of about a given size.
-/

namespace SmoothedParticles

/-- The centers of equal cells that fill a box. -/
structure Grid (α : Type) where
  dimension : Dimension
  /-- The number of cells along each axis in use. -/
  shape : List Nat
  points : Array (Vec3 α)

namespace Grid

/-- The number of places in a shape. -/
def places : List Nat → Nat
  | [] => 1
  | n :: rest => n * places rest

/-- The digits of a number in the mixed base of a shape, the last one changing fastest. -/
def digits : List Nat → Nat → List Nat
  | [], _ => []
  | _ :: rest, i => (i / places rest) :: digits rest (i % places rest)

end Grid

namespace Box

variable {α : Type} [Scalar α]

/-- The number of cells of about a given size that fit along an axis, at least one. -/
def cellCount (box : Box α) (spacing : α) (a : Axis) : Nat :=
  max (Scalar.count (Scalar.round (box.length a / spacing))) 1

/-- The center of the cell at a place, along one axis with `count` cells. -/
def cellCenter (box : Box α) (a : Axis) (count k : Nat) : α :=
  let step := box.length a / Scalar.ofNat count
  box.lo.get a + (Scalar.ofNat k + 0.5) * step

/-- The point with a given number in a grid of a given shape. -/
def gridPoint (box : Box α) (shape : List Nat) (i : Nat) : Vec3 α :=
  .ofList 0 <| (box.dimension.axes.zip (shape.zip (Grid.digits shape i))).map
    fun (a, count, k) => box.cellCenter a count k

/-- The bytes that a coordinate takes. -/
def coordinateSize : Nat := 8

/-- **The grid with cells of about a given size.** The number of points is kept in a machine
word; there is no grid if its coordinates can not be addressed. -/
def grid (box : Box α) (spacing : α) : Except (Error α) (Grid α) :=
  if ¬Scalar.IsPositive spacing then invalid (.gridSpacing spacing)
  else
    let shape := box.dimension.axes.map (box.cellCount spacing)
    let size := Scalar.wrap α (Grid.places shape)
    if ¬Scalar.indexable α (size * box.dimension.toNat * coordinateSize) then .error .fault
    else .ok ⟨box.dimension, shape, (Array.range size).map (box.gridPoint shape)⟩

end Box

end SmoothedParticles
