import Std.Data.HashMap
import SmoothedParticles.Report.Error
import SmoothedParticles.Space.Vec3

/-!
# Cell lists

Reference points are sorted into cells at least as large as the cutoff, which cover the box
around them. The neighbors of a point then lie in its own cell and the ones next to it.

* `Cells.wanted`: the number of cells along each axis, as large as the cutoff allows.
* `Cells.reduced`: fewer cells, in about the same proportions, if these are too many.
* `Cells.build`: the points sorted into cells.
* `Cells.candidates`: the points in and around the cell of a position.
-/

namespace SmoothedParticles

/-- Points sorted into cells. -/
structure Cells (α : Type) where
  /-- The number of cells along each axis. -/
  counts : Vec3 Nat
  /-- How many cells to look at on either side. -/
  reach : Vec3 Int
  /-- The lower corner of the first cell. -/
  origin : Vec3 α
  /-- The edges of a cell. -/
  size : Vec3 α
  /-- The indexes of the points in each cell that is not empty. -/
  buckets : Std.HashMap (Vec3 Nat) (List Nat)

namespace Cells

variable {α : Type} [Scalar α]

/-- The number of cells that `reduced` aims at. -/
def maxCells : Nat := 100000

/-- The bytes that a cell takes beside its points. -/
def cellBytes : Nat := 24

/-- The lower corner of the box around points; the origin if there are none. -/
def lower (ps : Array (Vec3 α)) : Vec3 α :=
  ps.foldl (.zipWith Scalar.minNum) (ps.getD 0 .zero)

/-- The upper corner of the box around points; the origin if there are none. -/
def upper (ps : Array (Vec3 α)) : Vec3 α :=
  ps.foldl (.zipWith Scalar.maxNum) (ps.getD 0 .zero)

/-- The edges of the box around points, none of them shorter than the cutoff. -/
def extent (ps : Array (Vec3 α)) (cutoff : α) : Vec3 α :=
  (upper ps - lower ps).map (Scalar.maxNum · cutoff)

/-- The whole number of cutoffs in an edge, at least one. -/
def wanted (extent : Vec3 α) (cutoff : α) : Vec3 α :=
  extent.map fun e =>
    let n := Scalar.trunc (e / cutoff)
    if n < 1 then 1 else n

/-- A whole number that is at least one. -/
def atLeastOne (n : α) : α := Scalar.maxNum (Scalar.trunc n) 1

/-- Fewer cells if there are more than `maxCells`: about that many, while the ratios of the
numbers along the axes stay roughly the same. -/
def reduced (d : Dimension) (n : Vec3 α) : Vec3 α :=
  let bound : α := Scalar.ofNat maxCells
  if bound < n.x * n.y * n.z then
    let xy := n.x / n.y
    match d with
    | .two =>
      let y := atLeastOne (Scalar.sqrt (bound / xy))
      ⟨atLeastOne (xy * y), y, n.z⟩
    | .three =>
      let yz := n.y / n.z
      let z := atLeastOne (Scalar.cbrt (bound / (xy * yz * yz)))
      let y := atLeastOne (yz * z)
      ⟨atLeastOne (xy * y), y, z⟩
  else n

/-- The cells around points, all of them empty. -/
def layout (d : Dimension) (ps : Array (Vec3 α)) (cutoff : α) : Cells α :=
  let extent := extent ps cutoff
  let n := reduced d (wanted extent cutoff)
  let size := Vec3.zipWith (· / ·) extent n
  { counts := n.map Scalar.count
    reach := size.map fun s => max (Scalar.index (Scalar.ceil (cutoff / s))) 1
    origin := lower ps
    size
    buckets := {} }

/-- The place of a position among the cells, which can be outside of all of them. -/
def place (cells : Cells α) (p : Vec3 α) : Vec3 Int :=
  (Vec3.zipWith (· / ·) (p - cells.origin) cells.size).map fun f => Scalar.index (Scalar.floor f)

/-- The cell of a point, the nearest one if its place is outside of all cells. -/
def cellOf (cells : Cells α) (p : Vec3 α) : Vec3 Nat :=
  .zipWith (fun (i : Int) (n : Nat) => (max 0 (min i (n - 1))).toNat) (cells.place p) cells.counts

/-- Add a point, given by its index, to its cell. -/
def insert (cells : Cells α) (p : Vec3 α) (j : Nat) : Cells α :=
  { cells with
    buckets := cells.buckets.alter (cells.cellOf p) fun bucket => some (j :: bucket.getD []) }

/-- **Points sorted into cells.** This needs a positive cutoff, numbers of cells that are
finite, and a table of cells that can be addressed. -/
def build (d : Dimension) (ps : Array (Vec3 α)) (cutoff : α) : Except (Error α) (Cells α) :=
  let cells := layout d ps cutoff
  let total := cells.counts.x * cells.counts.y * cells.counts.z
  if Scalar.IsPositive cutoff ∧ (wanted (extent ps cutoff) cutoff).isFinite = true ∧
      Scalar.indexable α (total * cellBytes) = true then
    .ok (ps.toList.zipIdx.foldl (fun cells (p, j) => cells.insert p j) cells)
  else .error .fault

/-- The cells along one axis that are within reach of a place. -/
def around (i reach : Int) (count : Nat) : List Nat :=
  let start := max (i - reach) 0
  let stop := min (i + reach) ((count : Int) - 1)
  List.range' start.toNat (stop - start + 1).toNat

/-- The indexes of the points in a cell. -/
def bucket (cells : Cells α) (c : Vec3 Nat) : List Nat := cells.buckets.getD c []

/-- **The points that can be neighbors** of a position, and some that are too far. -/
def candidates (cells : Cells α) (p : Vec3 α) : List Nat :=
  let i := cells.place p
  (around i.x cells.reach.x cells.counts.x).flatMap fun x =>
    (around i.y cells.reach.y cells.counts.y).flatMap fun y =>
      (around i.z cells.reach.z cells.counts.z).flatMap fun z => cells.bucket ⟨x, y, z⟩

end Cells

end SmoothedParticles
