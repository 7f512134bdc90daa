import SmoothedParticles.Space.Vec3

/-!
# Tables of numbers

A `Table` has rows of one width, which an empty table has too; points, velocities and sampled
fields come as tables. A `Tensors` table has a matrix in each row.

* `Table.points`: the rows of a table as vectors, missing coordinates being zero.
* `Table.ofPoints`: vectors as a table with one column per axis in use.
-/

namespace SmoothedParticles

/-- Rows of numbers that all have the same width. -/
structure Table (α : Type) where
  columns : Nat
  rows : Array (Vector α columns)

/-- Matrices of numbers that all have the same shape. -/
structure Tensors (α : Type) where
  height : Nat
  width : Nat
  items : Array (Vector (Vector α width) height)

namespace Table

variable {α : Type}

/-- The number of rows. -/
def size (t : Table α) : Nat := t.rows.size

/-- The number of rows and of columns. -/
def shape (t : Table α) : Nat × Nat := (t.size, t.columns)

/-- The rows as lists. -/
def toLists (t : Table α) : List (List α) := t.rows.toList.map Vector.toList

/-- The rows as vectors; coordinates past the last column are zero. -/
def points [Scalar α] (t : Table α) : Array (Vec3 α) := t.rows.map fun r => Vec3.ofList 0 r.toList

/-- The table with the given points as rows, one column per axis in use. -/
def ofPoints (d : Dimension) (ps : Array (Vec3 α)) : Table α :=
  ⟨d.axes.length, ps.map fun p => ⟨(p.values d).toArray, by simp [Vec3.values]⟩⟩

@[simp] theorem size_points [Scalar α] (t : Table α) : t.points.size = t.size := by
  simp [points, size]

@[simp] theorem size_ofPoints (d : Dimension) (ps : Array (Vec3 α)) :
    (ofPoints d ps).size = ps.size := by
  simp [ofPoints, size]

end Table

/-- The matrices with rows and columns exchanged. -/
def Tensors.transpose {α : Type} (t : Tensors α) : Tensors α :=
  ⟨t.width, t.height, t.items.map fun m => .ofFn fun j => .ofFn fun i => m[i][j]⟩

/-- Each matrix as one row, read row by row. -/
def Tensors.flatten {α : Type} (t : Tensors α) : Table α :=
  ⟨t.height * t.width, t.items.map Vector.flatten⟩

/-- The matrices with one row and one column per axis in use. -/
def Tensors.ofMatrices {α : Type} (d : Dimension) (ms : Array (Vec3 (Vec3 α))) : Tensors α :=
  ⟨d.axes.length, d.axes.length,
    ms.map fun m =>
      ⟨((m.values d).map fun r => ⟨(r.values d).toArray, by simp [Vec3.values]⟩).toArray,
        by simp [Vec3.values]⟩⟩

end SmoothedParticles
