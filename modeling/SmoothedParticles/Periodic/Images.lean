import SmoothedParticles.Periodic.Wrap
import SmoothedParticles.Report.Logged

/-!
# Periodic images

Points close to a periodic face of a box are copied to the other side, so that a search in the
plain geometry finds neighbors across the faces.

* `imageShifts`: the shifts in question, face by face, then the corners, then the edges.
* `Box.reaches`: is a point so close to the faces that a shift moves it across?
* `Box.images`: the images of all points, each position once.
-/

namespace SmoothedParticles

/-- Moved along one axis, along two axes of a box in space, or along all axes. -/
inductive ImageKind
  | face | edge | corner
  deriving DecidableEq, Repr

/-- A copy of a point. -/
structure Image (α : Type) where
  position : Vec3 α
  /-- The index of the point that was copied. -/
  source : Nat
  /-- The number of box lengths by which the copy was moved. -/
  shift : Vec3 Int
  kind : ImageKind

/-- The images of some points, all at different positions. -/
structure Images (α : Type) where
  dimension : Dimension
  items : Array (Image α)
  /-- The number of copies left out, because there was one at their position already. -/
  duplicates : Nat

variable {α : Type} [Scalar α]

/-- The shifts by one box length, up or down, along all axes of a list. The first axis changes
fastest, and up comes before down. -/
def shiftsAlong : List Axis → List (Vec3 Int)
  | [] => [.replicate 0]
  | a :: rest => (shiftsAlong rest).flatMap fun s => [s.set a 1, s.set a (-1)]

/-- The pairs of axes, in order. -/
def axisPairs : List Axis → List (List Axis)
  | [] => []
  | a :: rest => rest.map ([a, ·]) ++ axisPairs rest

namespace Box

/-- The sets of axes along which images are made, with the kind of image: single periodic axes,
all axes if they are periodic, and in space the pairs of periodic axes. -/
def imageAxes (box : Box α) : List (ImageKind × List Axis) :=
  box.periodicAxes.map (.face, [·]) ++
  (if box.allPeriodic then [(.corner, box.periodicAxes)] else []) ++
  (if box.dimension = .three then (axisPairs box.periodicAxes).map (.edge, ·) else [])

/-- The shifts of all images, in the order in which they are made. -/
def imageShifts (box : Box α) : List (ImageKind × Vec3 Int) :=
  box.imageAxes.flatMap fun (kind, axes) => (shiftsAlong axes).map (kind, ·)

/-- Is the point within the cutoff of each face that the shift moves it away from? Points at the
lower face are moved up, and points at the upper face down. -/
def reaches (box : Box α) (cutoff : Vec3 α) (shift : Vec3 Int) (p : Vec3 α) : Bool :=
  [Axis.x, .y, .z].all fun a =>
    if shift.get a = 1 then p.get a - box.lo.get a ≤ cutoff.get a
    else if shift.get a = -1 then box.hi.get a - p.get a ≤ cutoff.get a
    else true

/-- A point moved by whole box lengths. -/
def displace (box : Box α) (shift : Vec3 Int) (p : Vec3 α) : Vec3 α :=
  .ofFn fun a => p.get a + Scalar.ofInt (shift.get a) * box.length a

/-- All copies, those at the same position included. -/
def copies (box : Box α) (cutoff : Vec3 α) (ps : List (Vec3 α)) : List (Image α) :=
  box.imageShifts.flatMap fun (kind, shift) =>
    ps.zipIdx.filterMap fun (p, i) =>
      if box.reaches cutoff shift p then some ⟨box.displace shift p, i, shift, kind⟩ else none

end Box

/-- The first image at each position. -/
def firstAtPosition (images : List (Image α)) : Array (Image α) :=
  images.foldl (fun kept image =>
    if kept.any fun other => image.position.identical other.position then kept
    else kept.push image) #[]

/-- A cutoff has to be positive and finite, and at most half of a periodic length, since only
one layer of images is made. -/
def Box.checkCutoff (box : Box α) (cutoff : Vec3 α) (a : Axis) : Except (Error α) Unit := do
  let value := cutoff.get a
  if ¬Scalar.IsPositive value then invalid (.imageCutoff value a)
  if box.periodic.get a ∧ 0.5 * box.length a < value then
    invalid (.imageCutoffTooLarge value (box.length a) a)

namespace Images

/-- The number of images of a kind. -/
def count (images : Images α) (kind : ImageKind) : Nat :=
  images.items.countP fun image => image.kind = kind

/-- The given points followed by the images. -/
def extend (images : Images α) (ps : Array (Vec3 α)) : Array (Vec3 α) :=
  ps ++ images.items.map Image.position

/-- The rows of a table followed by the images. -/
def extendTable (images : Images α) (t : Table α) : Except (Error α) (Table α) :=
  if t.columns = images.dimension.toNat then
    .ok (.ofPoints images.dimension (images.extend t.points))
  else mismatch (.imageColumns t.columns images.dimension.toNat)

/-- The image at an index among `n` points followed by the images, `none` for one of the
points. -/
def image? (images : Images α) (n i : Nat) : Option (Image α) :=
  if i < n then none else images.items[i - n]?

/-- The point behind an index among `n` points followed by the images. -/
def sourceOf (images : Images α) (n i : Nat) : Except (Error α) Nat :=
  if i < n then .ok i
  else match images.items[i - n]? with
    | some image => .ok image.source
    | none => .error .fault

/-- What to tell about the images of `n` points. -/
def report (images : Images α) (n : Nat) : Logged α Unit := do
  .tellIf (images.duplicates != 0) (.duplicatesRemoved images.duplicates)
  .tell (.imagesGenerated (images.count .face) (images.count .edge) (images.count .corner) n)

end Images

namespace Box

/-- The images of points, without any check. -/
def imagesOf (box : Box α) (cutoff : Vec3 α) (ps : List (Vec3 α)) : Images α :=
  let copies := box.copies cutoff ps
  let items := firstAtPosition copies
  ⟨box.dimension, items, copies.length - items.size⟩

/-- **The periodic images of points**, such that a search within the cutoff sees across the
periodic faces. The points have to be inside of the box. -/
def images (box : Box α) (t : Table α) (cutoff : Vec3 α) : Logged α (Images α) := do
  let ps ← box.checkInside t
  box.dimension.axes.forM fun a => (box.checkCutoff cutoff a : Logged α Unit)
  let images := box.imagesOf cutoff ps.toList
  images.report ps.size
  return images

end Box

end SmoothedParticles
