import SmoothedParticles.Report.Error

/-!
# Which pairs to keep

A `PairFilter` decides by the indexes of two points whether they may be neighbors. The points of
a side have one entry each in its lists, which `PairFilter.validate` checks.
-/

namespace SmoothedParticles

/-- A relation between the marks of two points. -/
inductive MaskRelation
  | equal | different | both | notBoth
  deriving DecidableEq, Repr

/-- Does the relation hold between two marks? -/
def MaskRelation.holds : MaskRelation → Bool → Bool → Bool
  | equal, a, b => a == b
  | different, a, b => a != b
  | both, a, b => a && b
  | notBoth, a, b => !(a && b)

/-- Which pairs of a query point and a reference point to keep. -/
inductive PairFilter
  /-- Every pair. -/
  | keepAll
  /-- The pairs whose marks are related. -/
  | mask (query reference : Array Bool) (relation : MaskRelation)
  /-- The pairs of points from different groups, so that an object does not see itself. -/
  | distinctGroups (query reference : Array Nat)
  deriving DecidableEq, Repr

namespace PairFilter

variable {α : Type}

/-- One entry per query point and per reference point. -/
def validate (f : PairFilter) (nQuery nReference : Nat) : Except (Error α) Unit := do
  match f with
  | keepAll => return
  | mask query reference _ =>
    if query.size ≠ nQuery then mismatch (.mask .query query.size nQuery)
    if reference.size ≠ nReference then mismatch (.mask .reference reference.size nReference)
  | distinctGroups query reference =>
    if query.size ≠ nQuery then mismatch (.groups .query query.size nQuery)
    if reference.size ≠ nReference then mismatch (.groups .reference reference.size nReference)

/-- Is the pair of a query point and a reference point kept? -/
def keep (f : PairFilter) (i j : Nat) : Bool :=
  match f with
  | keepAll => true
  | mask query reference relation => relation.holds (query.getD i false) (reference.getD j false)
  | distinctGroups query reference => query.getD i 0 != reference.getD j 0

end PairFilter

end SmoothedParticles
