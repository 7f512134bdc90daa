import SmoothedParticles.Proofs.Exact.Vectors

/-!
# Exact arithmetic with undefined values

Over the real numbers each quotient has a value, also one by zero. To say that an algorithm never divides by
zero, its definitions are read over the `PartialReal`s, where such a quotient is undefined, as the square root
of a negative number is. Undefined operands make a result undefined, and no comparison holds of them. So a
result is finite exactly if all operations that it came from have a value.

* `instScalarPartialReal`: the partial real numbers as a scalar.
* `real_add`, `real_div`, `power_real`: where operations have the value that they have over the real numbers.
* `isFinite_add`, `isFinite_mul`, `isFinite_div`: **when a result is finite**.
* `isFinite_norm2`, `isFinite_norm`: a vector is finite if its length is.
-/

namespace SmoothedParticles

/-- **A real number, or the result of an operation without a value.** -/
inductive PartialReal
  | real (x : ℝ)
  | undefined

namespace PartialReal

/-- A number that is a value under a condition only. -/
noncomputable def given (c : Prop) [Decidable c] (x : ℝ) : PartialReal := if c then real x else undefined

/-- A partial function, undefined where its argument is. -/
def lift (f : ℝ → PartialReal) : PartialReal → PartialReal
  | real x => f x
  | undefined => undefined

/-- A partial function of two numbers, undefined where one of them is. -/
def lift₂ (f : ℝ → ℝ → PartialReal) : PartialReal → PartialReal → PartialReal
  | real x, real y => f x y
  | _, _ => undefined

/-- A comparison, which does not hold of undefined values. -/
def Compare (r : ℝ → ℝ → Prop) : PartialReal → PartialReal → Prop
  | real x, real y => r x y
  | _, _ => False

/-- A choice between two numbers, where an undefined one gives way to the other. -/
def choose (f : ℝ → ℝ → ℝ) : PartialReal → PartialReal → PartialReal
  | real x, real y => real (f x y)
  | undefined, y => y
  | x, undefined => x

open Classical in
/-- **The partial real numbers as a scalar**, with the operations of the real numbers where these have a
value. -/
noncomputable instance instScalarPartialReal : Scalar PartialReal where
  add := lift₂ fun x y => real (x + y)
  sub := lift₂ fun x y => real (x - y)
  mul := lift₂ fun x y => real (x * y)
  div := lift₂ fun x y => given (y ≠ 0) (x / y)
  neg := lift fun x => real (-x)
  lt := Compare (· < ·)
  le := Compare (· ≤ ·)
  beq x y := decide (Compare (· = ·) x y)
  ofScientific m s e := real (OfScientific.ofScientific m s e)
  decLt _ _ := propDecidable _
  decLe _ _ := propDecidable _
  ofNat n := real n
  toInt
    | real x => wholePart x
    | undefined => 0
  isFinite
    | real _ => true
    | undefined => false
  identical x y := decide (x = y)
  maxNum := choose max
  minNum := choose min
  floor := lift fun x => real (Scalar.floor x)
  ceil := lift fun x => real (Scalar.ceil x)
  trunc := lift fun x => real (Scalar.trunc x)
  round := lift fun x => real (Scalar.round x)
  remainder := lift₂ fun x y => given (y ≠ 0) (Scalar.remainder x y)
  sqrt := lift fun x => given (0 ≤ x) √x
  cbrt := lift fun x => real (Scalar.cbrt x)
  exp := lift fun x => real (Real.exp x)
  rpow := lift₂ fun x y => given (0 < x ∨ (x = 0 ∧ 0 ≤ y) ∨ (x < 0 ∧ ∃ n : ℤ, y = n)) (x ^ y)
  pi := real Real.pi
  wordBits := none

section Values

variable {x y : ℝ}

@[simp] theorem real_add : real x + real y = real (x + y) := rfl

@[simp] theorem real_sub : real x - real y = real (x - y) := rfl

@[simp] theorem real_mul : real x * real y = real (x * y) := rfl

@[simp] theorem real_neg : -real x = real (-x) := rfl

/-- **A quotient has a value** if the divisor is not zero. -/
theorem real_div (hy : y ≠ 0) : real x / real y = real (x / y) := if_pos hy

@[simp] theorem real_lt : real x < real y ↔ x < y := Iff.rfl

@[simp] theorem real_le : real x ≤ real y ↔ x ≤ y := Iff.rfl

@[simp] theorem real_beq : (real x == real y) = decide (x = y) := by
  show decide (x = y) = _
  congr

@[simp] theorem ofNat_eq (n : ℕ) : @OfNat.ofNat PartialReal n (Scalar.instOfNat n) = real n := rfl

@[simp] theorem ofScientific_eq (m : ℕ) (s : Bool) (e : ℕ) :
    (OfScientific.ofScientific m s e : PartialReal) = real (OfScientific.ofScientific m s e) := rfl

@[simp] theorem pi_eq : (Scalar.pi : PartialReal) = real Real.pi := rfl

@[simp] theorem exp_real : Scalar.exp (real x) = real (Real.exp x) := rfl

theorem sqrt_real (hx : 0 ≤ x) : Scalar.sqrt (real x) = real √x := if_pos hx

theorem rpow_real (hx : 0 < x) : Scalar.rpow (real x) (real y) = real (x ^ y) := if_pos (.inl hx)

theorem powerFrom_real (r a : ℝ) (n : ℕ) :
    Scalar.powerFrom (real r) (real a) n = real (Scalar.powerFrom r a n) := by
  -- on the binary digits of `n`, the lowest one first
  induction r, a, n using Scalar.powerFrom.induct with
  | case1 r a =>
    conv_rhs => rw [Scalar.powerFrom, dif_pos rfl]
    rw [Scalar.powerFrom, dif_pos rfl]
  | case2 r a n hn ih =>
    rw [dite_eq_ite] at ih
    conv_rhs => rw [Scalar.powerFrom, dif_neg hn]
    rw [Scalar.powerFrom, dif_neg hn, ← ih, apply_ite real]
    rfl

@[simp] theorem power_real (n : ℕ) : Scalar.power (real x) n = real (x ^ n) := by
  rw [← Scalar.power_eq, Scalar.power, ofNat_eq, powerFrom_real]
  rfl

end Values

section Finiteness

variable {x y : PartialReal}

theorem isFinite_iff : Scalar.isFinite x = true ↔ ∃ r, x = real r := by
  cases x with
  | real r => exact iff_of_true rfl ⟨r, rfl⟩
  | undefined => exact iff_of_false Bool.false_ne_true fun ⟨_, h⟩ => nomatch h

theorem eq_undefined (h : ¬Scalar.isFinite x = true) : x = undefined := by
  cases x with
  | real r => exact absurd rfl h
  | undefined => rfl

@[simp] theorem isFinite_real (r : ℝ) : Scalar.isFinite (real r) = true := rfl

@[simp] theorem isFinite_undefined : Scalar.isFinite undefined = false := rfl

/-- The results of total operations are finite if the operands are. -/
theorem isFinite_lift₂ (f : ℝ → ℝ → ℝ) : Scalar.isFinite (lift₂ (fun a b => real (f a b)) x y) = true ↔
    Scalar.isFinite x = true ∧ Scalar.isFinite y = true := by
  cases x <;> cases y <;> simp [lift₂]

@[simp] theorem isFinite_add :
    Scalar.isFinite (x + y) = true ↔ Scalar.isFinite x = true ∧ Scalar.isFinite y = true :=
  isFinite_lift₂ _

@[simp] theorem isFinite_sub :
    Scalar.isFinite (x - y) = true ↔ Scalar.isFinite x = true ∧ Scalar.isFinite y = true :=
  isFinite_lift₂ _

@[simp] theorem isFinite_mul :
    Scalar.isFinite (x * y) = true ↔ Scalar.isFinite x = true ∧ Scalar.isFinite y = true :=
  isFinite_lift₂ _

@[simp] theorem isFinite_neg : Scalar.isFinite (-x) = true ↔ Scalar.isFinite x = true := by
  cases x <;> exact Iff.rfl

@[simp] theorem zero_eq : (0 : PartialReal) = real 0 := congrArg real Nat.cast_zero

@[simp] theorem real_inj {a b : ℝ} : real a = real b ↔ a = b := ⟨fun h => by injection h, congrArg real⟩

/-- **A quotient is finite** if the operands are and the divisor is not zero. -/
@[simp] theorem isFinite_div : Scalar.isFinite (x / y) = true ↔
    Scalar.isFinite x = true ∧ Scalar.isFinite y = true ∧ y ≠ 0 := by
  cases x with
  | undefined => exact iff_of_false Bool.false_ne_true fun h => Bool.false_ne_true h.1
  | real a =>
    cases y with
    | undefined => exact iff_of_false Bool.false_ne_true fun h => Bool.false_ne_true h.2.1
    | real b =>
      rw [zero_eq, Ne, real_inj]
      by_cases hb : b = 0
      · have hdiv : real a / real b = undefined := if_neg (not_not.2 hb)
        rw [hdiv]
        exact iff_of_false Bool.false_ne_true fun h => h.2.2 hb
      · rw [real_div hb]
        exact iff_of_true rfl ⟨rfl, rfl, hb⟩

/-- Numbers that can be compared are finite. -/
theorem isFinite_of_lt (h : x < y) : Scalar.isFinite x = true ∧ Scalar.isFinite y = true := by
  cases x <;> cases y <;> first | exact ⟨rfl, rfl⟩ | exact h.elim

theorem pos_iff : 0 < x ↔ ∃ r, 0 < r ∧ x = real r := by
  rw [zero_eq]
  cases x with
  | real r => simp
  | undefined => exact iff_of_false id fun ⟨_, _, h⟩ => nomatch h

theorem isFinite_of_pos (h : 0 < x) : Scalar.isFinite x = true := (isFinite_of_lt h).2

theorem ne_of_pos (h : 0 < x) : x ≠ 0 := by
  rintro rfl
  rw [zero_eq] at h
  exact lt_irrefl _ (real_lt.1 h)

theorem two_pos : (0 : PartialReal) < 2 := by simp

theorem beq_zero : ((0 : PartialReal) == 0) = true := by
  rw [zero_eq, real_beq, decide_eq_true rfl]

end Finiteness

section Vectors

variable {v w : Vec3 PartialReal}

theorem isFinite_vec_iff : v.isFinite = true ↔ ∀ a, Scalar.isFinite (v.get a) = true := by
  simp only [Vec3.isFinite, Vec3.toList, List.all_cons, List.all_nil, Bool.and_true, Bool.and_eq_true]
  exact ⟨fun ⟨hx, hy, hz⟩ a => by cases a <;> assumption, fun h => ⟨h .x, h .y, h .z⟩⟩

theorem isFinite_vec_add (hv : v.isFinite = true) (hw : w.isFinite = true) : (v + w).isFinite = true :=
  isFinite_vec_iff.2 fun a => by
    rw [Vec3.get_add, isFinite_add]
    exact ⟨isFinite_vec_iff.1 hv a, isFinite_vec_iff.1 hw a⟩

theorem isFinite_vec_sub (hv : v.isFinite = true) (hw : w.isFinite = true) : (v - w).isFinite = true :=
  isFinite_vec_iff.2 fun a => by
    rw [Vec3.get_sub, isFinite_sub]
    exact ⟨isFinite_vec_iff.1 hv a, isFinite_vec_iff.1 hw a⟩

theorem isFinite_vec_neg (hv : v.isFinite = true) : (-v).isFinite = true :=
  isFinite_vec_iff.2 fun a => by
    rw [Vec3.get_neg, isFinite_neg]
    exact isFinite_vec_iff.1 hv a

/-- A finite vector is a vector of real numbers. -/
theorem exists_real_vec (h : v.isFinite = true) : ∃ u : Vec3 ℝ, v = u.map real := by
  choose f hf using fun a => isFinite_iff.1 (isFinite_vec_iff.1 h a)
  refine ⟨.ofFn f, Vec3.ext_get fun a => ?_⟩
  rw [Vec3.get_map, Vec3.get_ofFn, hf]

theorem isFinite_dot (hv : v.isFinite = true) (hw : w.isFinite = true) :
    Scalar.isFinite (v.dot w) = true := by
  rw [isFinite_vec_iff] at hv hw
  simp only [Vec3.dot, isFinite_add, isFinite_mul]
  exact ⟨⟨⟨hv .x, hw .x⟩, hv .y, hw .y⟩, hv .z, hw .z⟩

theorem isFinite_norm2 : Scalar.isFinite v.norm2 = true ↔ v.isFinite = true := by
  refine ⟨fun h => ?_, fun h => isFinite_dot h h⟩
  simp only [Vec3.norm2, Vec3.dot, isFinite_add, isFinite_mul, and_self] at h
  exact isFinite_vec_iff.2 fun a => by cases a <;> simp only [Vec3.get, h]

theorem norm_real (u : Vec3 ℝ) : (u.map real).norm = real u.norm := by
  have hsquare : 0 ≤ u.norm2 := by
    rw [Vec3.norm2_eq]
    positivity
  exact sqrt_real hsquare

/-- **A vector has a length** if it is finite: its square is not negative. -/
theorem isFinite_norm : Scalar.isFinite v.norm = true ↔ v.isFinite = true := by
  refine ⟨fun h => isFinite_norm2.1 ?_, fun h => ?_⟩
  · rw [Vec3.norm] at h
    cases hv : v.norm2 with
    | real r => rfl
    | undefined =>
      rw [hv] at h
      exact h
  · obtain ⟨u, rfl⟩ := exists_real_vec h
    rw [norm_real, isFinite_real]

end Vectors

end PartialReal

end SmoothedParticles
