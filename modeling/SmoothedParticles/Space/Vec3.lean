import SmoothedParticles.Number.Scalar
import SmoothedParticles.Space.Axis

/-!
# One value per axis

`Vec3 β` holds one `β` per axis: coordinates, cell numbers, periodicity flags. Over a scalar it
is a vector of space.

* `dot`, `norm2`, `norm`: products and lengths, summed from the first axis to the last.
* `tensor`: the products of all pairs of components, as three rows.
* `near`, `nearRelative`: equality up to an absolute or a relative difference.
-/

namespace SmoothedParticles

/-- One value for each of the three axes. -/
structure Vec3 (β : Type) where
  x : β
  y : β
  z : β
  deriving DecidableEq, Hashable, Repr

namespace Vec3

variable {β γ δ : Type}

/-- The value on an axis. -/
def get (v : Vec3 β) : Axis → β
  | .x => v.x
  | .y => v.y
  | .z => v.z

/-- The same vector with another value on one axis. -/
def set (v : Vec3 β) (a : Axis) (b : β) : Vec3 β :=
  match a with
  | .x => { v with x := b }
  | .y => { v with y := b }
  | .z => { v with z := b }

/-- The vector with the values of a function. -/
def ofFn (f : Axis → β) : Vec3 β := ⟨f .x, f .y, f .z⟩

/-- The same value on every axis. -/
def replicate (b : β) : Vec3 β := ⟨b, b, b⟩

def map (f : β → γ) (v : Vec3 β) : Vec3 γ := ⟨f v.x, f v.y, f v.z⟩

def zipWith (f : β → γ → δ) (v : Vec3 β) (w : Vec3 γ) : Vec3 δ := ⟨f v.x w.x, f v.y w.y, f v.z w.z⟩

def toList (v : Vec3 β) : List β := [v.x, v.y, v.z]

/-- The first values of a list, one per axis; axes without one get `default`. -/
def ofList (default : β) (l : List β) : Vec3 β :=
  ⟨l.getD 0 default, l.getD 1 default, l.getD 2 default⟩

/-- The values on the axes in use. -/
def values (d : Dimension) (v : Vec3 β) : List β := d.axes.map v.get

@[simp] theorem get_ofFn (f : Axis → β) (a : Axis) : (ofFn f).get a = f a := by cases a <;> rfl

@[simp] theorem get_map (f : β → γ) (v : Vec3 β) (a : Axis) : (v.map f).get a = f (v.get a) := by
  cases a <;> rfl

@[simp] theorem get_zipWith (f : β → γ → δ) (v : Vec3 β) (w : Vec3 γ) (a : Axis) :
    (zipWith f v w).get a = f (v.get a) (w.get a) := by
  cases a <;> rfl

@[simp] theorem get_replicate (b : β) (a : Axis) : (replicate b).get a = b := by cases a <;> rfl

theorem get_set (v : Vec3 β) (a c : Axis) (b : β) :
    (v.set a b).get c = if c = a then b else v.get c := by
  cases a <;> cases c <;> rfl

theorem ext_get {v w : Vec3 β} (h : ∀ a, v.get a = w.get a) : v = w := by
  cases v; cases w
  have hx := h .x
  have hy := h .y
  have hz := h .z
  simp only [get] at hx hy hz
  simp [hx, hy, hz]

section Arithmetic

variable {α : Type} [Scalar α]

instance : Add (Vec3 α) := ⟨zipWith (· + ·)⟩
instance : Sub (Vec3 α) := ⟨zipWith (· - ·)⟩
instance : Neg (Vec3 α) := ⟨map (- ·)⟩

/-- Each component times `s`. -/
instance : HMul (Vec3 α) α (Vec3 α) := ⟨fun v s => v.map (· * s)⟩

/-- The same as `v * s`, the component on the left of each product. -/
instance : HMul α (Vec3 α) (Vec3 α) := ⟨fun s v => v * s⟩

instance : HDiv (Vec3 α) α (Vec3 α) := ⟨fun v s => v.map (· / s)⟩

/-- Equality of the components as numbers. -/
instance : BEq (Vec3 α) := ⟨fun v w => v.x == w.x && v.y == w.y && v.z == w.z⟩

/-- The zero vector. -/
def zero : Vec3 α := ⟨0, 0, 0⟩

/-- The scalar product. -/
def dot (v w : Vec3 α) : α := v.x * w.x + v.y * w.y + v.z * w.z

/-- The square of the length. -/
def norm2 (v : Vec3 α) : α := dot v v

/-- The length. -/
def norm (v : Vec3 α) : α := Scalar.sqrt v.norm2

/-- The vector of length one in the same direction. -/
def normalized (v : Vec3 α) : Vec3 α := v / v.norm

/-- The product of each component of `v` with each one of `w`, one row per component of `v`. -/
def tensor (v w : Vec3 α) : Vec3 (Vec3 α) := v.map fun a => w.map (a * ·)

/-- Do two vectors denote the same point? -/
def identical (v w : Vec3 α) : Bool :=
  Scalar.identical v.x w.x && Scalar.identical v.y w.y && Scalar.identical v.z w.z

/-- Is the point finite along each axis? -/
def isFinite (v : Vec3 α) : Bool := v.toList.all Scalar.isFinite

end Arithmetic

end Vec3

namespace Scalar

variable {α : Type} [Scalar α]

/-- At most `ε` apart. -/
def near (ε a b : α) : Bool := abs (a - b) ≤ ε

/-- Equal, or at most `ε` apart, or apart by at most a fraction `ρ` of the larger one. Infinities
are near to nothing but themselves. -/
def nearRelative (ε ρ a b : α) : Bool :=
  a == b || (isFinite a && isFinite b &&
    (near ε a b ||
      let largest := if abs a < abs b then abs b else abs a
      near (largest * ρ) a b))

end Scalar

/-- Are the vectors close on each axis, by a test of closeness for numbers? -/
def Vec3.near {α : Type} (close : α → α → Bool) (v w : Vec3 α) : Bool :=
  close v.x w.x && close v.y w.y && close v.z w.z

end SmoothedParticles
