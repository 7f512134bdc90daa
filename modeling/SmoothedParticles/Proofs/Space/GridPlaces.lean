import Mathlib
import SmoothedParticles.Space.Grid

/-!
# The places of a grid

The places of a grid are numbered, and a place is read off its number digit by digit. Each place has one
number, and the places follow each other in lexicographic order: the last digit changes fastest.

* `places_pos`, `places_concat`: how many places there are.
* `digits_concat`: the digits can be read off from the last one on as well, by remainders and quotients.
* `digits_below`, `digits_number`: digits are below the shape, and each place below the shape has a number.
* `digits_lt_digits`: **a larger number is a later place**.
* `pairwise_allPlaces`, `mem_allPlaces`: all places in order, each of them once.
-/

namespace SmoothedParticles.Grid

variable {shape ks : List ℕ} {i j : ℕ}

theorem places_pos (h : ∀ n ∈ shape, 0 < n) : 0 < places shape := by
  induction shape with
  | nil => exact one_pos
  | cons n rest ih =>
    rw [List.forall_mem_cons] at h
    exact Nat.mul_pos h.1 (ih h.2)

theorem places_concat (shape : List ℕ) (n : ℕ) : places (shape ++ [n]) = places shape * n := by
  induction shape with
  | nil => simp [places]
  | cons m rest ih =>
    show m * places (rest ++ [n]) = m * places rest * n
    rw [ih, mul_assoc]

/-- **From the last digit on**: it is the remainder, and the others are the digits of the quotient. -/
theorem digits_concat {n : ℕ} (hi : i < places (shape ++ [n])) :
    digits (shape ++ [n]) i = digits shape (i / n) ++ [i % n] := by
  induction shape generalizing i with
  | nil =>
    have hin : i < n := by simpa [places] using hi
    show [i / 1] = [i % n]
    rw [Nat.div_one, Nat.mod_eq_of_lt hin]
  | cons m rest ih =>
    have hpos : 0 < places (rest ++ [n]) := Nat.pos_of_mul_pos_left (Nat.zero_lt_of_lt hi)
    have hrest := ih (Nat.mod_lt i hpos)
    show i / places (rest ++ [n]) :: digits (rest ++ [n]) (i % places (rest ++ [n])) =
      i / n / places rest :: (digits rest (i / n % places rest) ++ [i % n])
    rw [hrest, places_concat, mul_comm, ← Nat.div_div_eq_div_mul, Nat.mod_mul_right_div_self,
      Nat.mod_mul_right_mod]

/-- **Each digit is below its count.** -/
theorem digits_below (hi : i < places shape) : List.Forall₂ (· < ·) (digits shape i) shape := by
  induction shape generalizing i with
  | nil => exact .nil
  | cons n rest ih =>
    have hpos : 0 < places rest := Nat.pos_of_mul_pos_left (Nat.zero_lt_of_lt hi)
    exact .cons (Nat.div_lt_of_lt_mul (by rwa [mul_comm])) (ih (Nat.mod_lt i hpos))

/-- The number of a place. -/
def number : List ℕ → List ℕ → ℕ
  | _ :: rest, k :: ks => k * places rest + number rest ks
  | _, _ => 0

theorem number_lt (h : List.Forall₂ (· < ·) ks shape) : number shape ks < places shape := by
  induction h with
  | nil => exact one_pos
  | @cons k n ks rest hk _ ih =>
    calc k * places rest + number rest ks < k * places rest + places rest := Nat.add_lt_add_left ih _
      _ = (k + 1) * places rest := (Nat.succ_mul k _).symm
      _ ≤ n * places rest := Nat.mul_le_mul_right _ hk

/-- **Each place below the shape has a number.** -/
theorem digits_number (h : List.Forall₂ (· < ·) ks shape) : digits shape (number shape ks) = ks := by
  induction h with
  | nil => rfl
  | @cons k n ks rest hk hks ih =>
    have hlt := number_lt hks
    have hpos : 0 < places rest := Nat.zero_lt_of_lt hlt
    show (k * places rest + number rest ks) / places rest ::
      digits rest ((k * places rest + number rest ks) % places rest) = k :: ks
    rw [mul_comm, Nat.mul_add_div hpos, Nat.div_eq_of_lt hlt, Nat.mul_add_mod, Nat.mod_eq_of_lt hlt, ih,
      add_zero]

/-- **A larger number is a later place**, in lexicographic order. -/
theorem digits_lt_digits (hij : i < j) (hj : j < places shape) : digits shape i < digits shape j := by
  induction shape generalizing i j with
  | nil =>
    have hone : j < 1 := hj
    omega
  | cons n rest ih =>
    have hpos : 0 < places rest := Nat.pos_of_mul_pos_left (Nat.zero_lt_of_lt hj)
    show i / places rest :: digits rest (i % places rest) < j / places rest :: digits rest (j % places rest)
    rw [List.cons_lt_cons_iff]
    -- the first digit decides, unless it is the same
    rcases (Nat.div_le_div_right hij.le : i / places rest ≤ j / places rest).lt_or_eq with hlt | heq
    · exact .inl hlt
    · refine .inr ⟨heq, ih ?_ (Nat.mod_lt j hpos)⟩
      have h1 := Nat.div_add_mod i (places rest)
      have h2 := Nat.div_add_mod j (places rest)
      rw [heq] at h1
      omega

/-- The places of a shape, in the order of their numbers. -/
def allPlaces (shape : List ℕ) : List (List ℕ) := (List.range (places shape)).map (digits shape)

/-- **The places are in lexicographic order.** -/
theorem pairwise_allPlaces (shape : List ℕ) : (allPlaces shape).Pairwise (· < ·) := by
  rw [allPlaces, List.pairwise_map]
  refine List.pairwise_lt_range.imp_of_mem fun _ hj hij => ?_
  exact digits_lt_digits hij (List.mem_range.1 hj)

/-- **All places are there**, and nothing else. -/
theorem mem_allPlaces : ks ∈ allPlaces shape ↔ List.Forall₂ (· < ·) ks shape := by
  simp only [allPlaces, List.mem_map, List.mem_range]
  constructor
  · rintro ⟨i, hi, rfl⟩
    exact digits_below hi
  · intro h
    exact ⟨number shape ks, number_lt h, digits_number h⟩

end SmoothedParticles.Grid
