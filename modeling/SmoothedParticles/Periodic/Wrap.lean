import SmoothedParticles.Space.Box

/-!
# Wrapping and minimum images

Along a periodic axis, coordinates that differ by whole box lengths are the same place.

* `Box.wrap`: the representative of a point in the half-open primary cell.
* `Box.nearestImage`: the representative of a separation closest to zero.
* `Box.distance`: the length of the nearest image of a separation.
-/

namespace SmoothedParticles

variable {α : Type} [Scalar α]

/-- The coordinate in `[lo, hi)` that differs from `x` by a multiple of `hi - lo`. Rounding can
push a value from just below `lo` to `hi`, which is taken back to `lo`. -/
def wrapCoordinate (lo hi x : α) : α :=
  if lo ≤ x ∧ x < hi then x
  else
    let wrapped := lo + Scalar.modulo (x - lo) (hi - lo)
    if hi ≤ wrapped then lo else wrapped

/-- The nearest image of a separation along an axis of the given length. -/
def nearestImage (length x : α) : α := x - Scalar.round (x / length) * length

namespace Box

/-- **A point wrapped** into the primary cell along the periodic axes. -/
def wrap (box : Box α) (p : Vec3 α) : Vec3 α :=
  .ofFn fun a =>
    if box.periodic.get a then wrapCoordinate (box.lo.get a) (box.hi.get a) (p.get a)
    else p.get a

/-- All rows of a table wrapped. -/
def wrapTable (box : Box α) (t : Table α) : Except (Error α) (Table α) := do
  let ps ← box.pointsOf t
  return .ofPoints box.dimension (ps.map box.wrap)

/-- **The nearest image of a separation**, with components in `[-L/2, L/2]` along the periodic
axes. -/
def nearestImage (box : Box α) (v : Vec3 α) : Vec3 α :=
  .ofFn fun a =>
    if box.periodic.get a then SmoothedParticles.nearestImage (box.length a) (v.get a)
    else v.get a

/-- The square of the periodic distance between two points. -/
def distance2 (box : Box α) (u v : Vec3 α) : α := (box.nearestImage (v - u)).norm2

/-- The periodic distance between two points. -/
def distance (box : Box α) (u v : Vec3 α) : α := Scalar.sqrt (box.distance2 u v)

end Box

end SmoothedParticles
