import SmoothedParticles.Smoothing.KernelKind
import SmoothedParticles.Space.Vec3

/-!
# Smoothing kernels

A `Kernel` is a radial weight with compact support, normalized so that its integral over space
is one. The support is the smoothing length `h`.

* `Kernel.make`: a kernel with a positive smoothing length.
* `Kernel.alpha`: the normalization.
* `Kernel.value`, `Kernel.derivative`: the weight at a distance, and its slope.
* `Kernel.gradient`: the gradient of the weight with respect to a separation.
-/

namespace SmoothedParticles

/-- A smoothing kernel. -/
structure Kernel (α : Type) [Scalar α] where
  kind : KernelKind
  /-- The smoothing length, which is also the support. -/
  h : α
  dimension : Dimension
  h_pos : 0 < h

namespace Kernel

variable {α : Type} [Scalar α]

/-- The value of `exp (-9)`. -/
def expMinusNine : α := 1.2340980408667956e-4

/-- The value of the error function at three. -/
def erfThree : α := 0.9999779095030014

/-- **A kernel** with a positive smoothing length, in two or three dimensions. -/
def make (kind : KernelKind) (h : α) (dimension : Nat) : Except (Error α) (Kernel α) :=
  if hp : Scalar.IsPositive h then
    match Dimension.ofNat? dimension with
    | some d => .ok ⟨kind, h, d, hp.1⟩
    | none => invalid (.kernelDimension dimension)
  else invalid (.smoothingLength kind.name h)

open Scalar in
/-- The factor that makes the integral over space one. -/
def alpha (k : Kernel α) : α :=
  let h := k.h
  match k.kind, k.dimension with
  | .lucy, .two => 5 / (pi * h * h)
  | .lucy, .three => 105 / (16 * pi * power h 3)
  | .poly6, .two => 4 / (pi * power h 8)
  | .poly6, .three => 315 / (64 * pi * power h 9)
  | .cubicSpline, .two => 40 / (7 * pi * h * h)
  | .cubicSpline, .three => 8 / (pi * power h 3)
  | .spiky, .two => 10 / (pi * power h 5)
  | .spiky, .three => 15 / (pi * power h 6)
  | .gaussian, .two => 1 / (pi * h * h * ((1 - expMinusNine) / 9 - expMinusNine))
  | .gaussian, .three =>
    let integral := rpow pi 1.5 * erfThree / 27 - 2 * pi * expMinusNine / 9
      - 4 * pi * expMinusNine / 3
    1 / (power h 3 * integral)

open Scalar in
/-- **The weight at a distance.** -/
def value (k : Kernel α) (r : α) : α :=
  if k.h ≤ r then 0
  else
    let h := k.h
    let q := r / h
    match k.kind with
    | .lucy => k.alpha * (1 + 3 * q) * power (1 - q) 3
    | .poly6 => k.alpha * power (h * h - r * r) 3
    | .cubicSpline =>
      if q ≤ 0.5 then k.alpha * (6 * (q * q * q - q * q) + 1)
      else k.alpha * 2 * power (1 - q) 3
    | .spiky => k.alpha * power (h - r) 3
    | .gaussian => k.alpha * (exp (-9 * q * q) - expMinusNine)

open Scalar in
/-- **The slope of the weight** at a distance. -/
def derivative (k : Kernel α) (r : α) : α :=
  if k.h ≤ r then 0
  else
    let h := k.h
    let q := r / h
    match k.kind with
    | .lucy => -12 * k.alpha * q * power (1 - q) 2 / h
    | .poly6 => -6 * k.alpha * r * power (h * h - r * r) 2
    | .cubicSpline =>
      if q ≤ 0.5 then k.alpha * 6 * (3 * q * q - 2 * q) / h
      else -6 * k.alpha * power (1 - q) 2 / h
    | .spiky => -3 * k.alpha * power (h - r) 2
    | .gaussian => -18 * k.alpha * r / (h * h) * exp (-9 * q * q)

/-- The gradient of the weight with respect to a separation, zero for the separation zero. -/
def gradient (k : Kernel α) (v : Vec3 α) : Vec3 α :=
  let r := v.norm
  if r == 0 then .zero else (k.derivative r / r) * v

end Kernel

/-- A function evaluated in double precision, with its argument and its value in single
precision. -/
def inSingle (f : Float → Float) (r : Float) : Float := Double.toSingle (f (Double.toSingle r))

end SmoothedParticles
