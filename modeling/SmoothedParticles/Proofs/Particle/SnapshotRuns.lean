import SmoothedParticles.Proofs.Exact.Reals
import SmoothedParticles.Proofs.Report.Results
import SmoothedParticles.Particle.Snapshot

/-!
# What a snapshot remembers cannot be seen

A snapshot remembers a neighbor list, and uses it again for the cutoff that it was built with. Whatever was
asked before, also without success, each answer is that of a snapshot that remembers nothing.

* `Discerning`: positive numbers that compare equal are the same, for doubles as for real numbers.
* `Snapshot.Call`, `Snapshot.call`, `Snapshot.run`: what can be asked, and any sequence of it.
* `Snapshot.Remembers`: the list that is remembered is the one that building it again would give.
* `Snapshot.remembers_call`, `Snapshot.result_call`: **one call** keeps that, and answers as if nothing
  were remembered.
* `Snapshot.answers_run`: **all answers of a run** are those of the snapshot as it was made.
-/

namespace SmoothedParticles

/-- **Positive numbers that compare equal are the same number.** -/
class Discerning (α : Type) [Scalar α] : Prop where
  eq_of_beq {x y : α} : Scalar.IsPositive x → (x == y) = true → x = y

/-- Of the doubles, only the two zeros compare equal without being the same. -/
instance : Discerning Float where
  eq_of_beq := by
    intro x y hx h
    have hzero : ¬Scalar.IsPositive (0 : Float) := by decide
    have hnegZero : ¬Scalar.IsPositive (-0 : Float) := by decide
    obtain ⟨-, -, h | ⟨rfl, -⟩ | ⟨rfl, -⟩⟩ := Float.beq_iff_ne_nan_and_eq.1 h
    · exact h
    · exact absurd hx hzero
    · exact absurd hx hnegZero

instance : Discerning ℝ where
  eq_of_beq _ h := eq_of_beq h

variable {α : Type} [Scalar α]

theorem SearchOptions.cutoff_pos_of_validate {o : SearchOptions α} (h : o.validate = .ok ()) :
    Scalar.IsPositive o.cutoff := by
  simp only [validate, invalid_bind, ite_invalid_iff, not_not] at h
  exact h.1

theorem NeighborList.options_of_ofFound {o : SearchOptions α} {f : PairFilter} {d : Dimension}
    {points : PointSets α} {box? : Option (Box α)} {found : Array (List (Pair α))}
    {l : NeighborList α} (h : (ofFound o f d points box? found).result = .ok l) : l.options = o := by
  obtain rfl := Except.ok.inj h
  unfold ofRows
  split_ifs <;> rfl

/-- A list that is built in a box has the options that were asked for, which are valid. -/
theorem NeighborList.options_of_periodic {box : Box α} {o : SearchOptions α} {query : Table α}
    {reference? : Option (Table α)} {f : PairFilter} {l : NeighborList α}
    (h : (periodic box o query reference? f).result = .ok l) :
    l.options = o ∧ o.validate = .ok () := by
  unfold periodic at h
  simp only [Logged.result_bind_iff, Logged.result_monadLift] at h
  obtain ⟨_, ho, _, -, _, -, _, -, _, -, _, -, _, -, _, -, h⟩ := h
  exact ⟨options_of_ofFound h, ho⟩

namespace Snapshot

/-- What a snapshot can be asked. -/
inductive Call (α : Type) [Scalar α]
  | neighbors (cutoff : α)
  | density (kernel : Kernel α)
  | velocityField (queries : Table α) (kernel : Kernel α)
  | viscousForces (kernel : Kernel α) (parameters : ViscosityParameters α)
  | stressField (queries : Table α) (kernel : Kernel α) (parameters : ViscosityParameters α)

/-- What it answers. -/
inductive Answer (α : Type) [Scalar α]
  | list (l : NeighborList α)
  | densities (values : Array (Option α))
  | field (values : Field α)
  | forces (values : ViscousForces α)
  | tensors (values : TensorField α)

/-- **One call**: the answer or the error, and the snapshot after it. -/
def call (s : Snapshot α) : Call α → Snapshot α × Except (Error α) (Answer α)
  | .neighbors cutoff => ((s.list cutoff).1, (s.list cutoff).2.result.map .list)
  | .density k => ((s.density k).1, (s.density k).2.result.map .densities)
  | .velocityField queries k => (s, (s.velocityField queries k).result.map .field)
  | .viscousForces k p => ((s.viscousForces k p).1, (s.viscousForces k p).2.result.map .forces)
  | .stressField queries k p =>
    ((s.stressField queries k p).1, (s.stressField queries k p).2.result.map .tensors)

/-- **One call after another**, whatever they answer. -/
def run (s : Snapshot α) : List (Call α) → Snapshot α × List (Except (Error α) (Answer α))
  | [] => (s, [])
  | c :: calls =>
    let (next, answer) := s.call c
    let (last, answers) := next.run calls
    (last, answer :: answers)

/-- The snapshot without its list. -/
def forget (s : Snapshot α) : Snapshot α := { s with list? := none }

/-- **The list that is remembered**, if there is one, is what building it again would give. -/
def Remembers (s : Snapshot α) : Prop :=
  ∀ l ∈ s.list?, (s.buildList l.options.cutoff).result = .ok l

variable {s : Snapshot α} {cutoff : α}

theorem remembers_forget (s : Snapshot α) : s.forget.Remembers :=
  forall_mem_none

/-- The cutoff of a list is the one that was asked for, and is positive. -/
theorem cutoff_of_buildList {l : NeighborList α} (h : (s.buildList cutoff).result = .ok l) :
    l.options.cutoff = cutoff ∧ Scalar.IsPositive l.options.cutoff := by
  obtain ⟨ho, hvalid⟩ := NeighborList.options_of_periodic h
  have hcutoff : l.options.cutoff = cutoff := by rw [ho]
  refine ⟨hcutoff, ?_⟩
  rw [hcutoff]
  exact SearchOptions.cutoff_pos_of_validate hvalid

theorem forget_list (s : Snapshot α) (cutoff : α) : (s.list cutoff).1.forget = s.forget := by
  unfold list
  split
  · rfl
  · dsimp only
    split <;> rfl

theorem remembers_list (h : s.Remembers) (cutoff : α) : (s.list cutoff).1.Remembers := by
  unfold list
  split
  · exact h
  · dsimp only
    split
    · rename_i l hl
      intro l' hl'
      obtain rfl := Option.some.inj hl'
      -- the list that was built just now
      show (s.buildList l.options.cutoff).result = .ok l
      rw [(cutoff_of_buildList hl).1]
      exact hl
    · exact h

/-- **The list for a cutoff** is the one built from scratch, remembered or not. -/
theorem result_list [Discerning α] (h : s.Remembers) (cutoff : α) :
    (s.list cutoff).2.result = (s.buildList cutoff).result := by
  unfold list
  split
  · rename_i l hl
    obtain ⟨hmem, hbeq⟩ := Option.filter_eq_some_iff.1 hl
    have hbuilt := h l hmem
    have hpos := (cutoff_of_buildList hbuilt).2
    rw [Discerning.eq_of_beq hpos hbeq] at hbuilt
    exact hbuilt.symm
  · dsimp only
    split <;> rfl

theorem result_withList [Discerning α] {β : Type} (h : s.Remembers) (k : Kernel α)
    (f : NeighborList α → Logged α β) :
    (s.withList k f).2.result = (s.buildList k.h).result.bind fun l => (f l).result := by
  show ((s.list k.h).2 >>= f).result = _
  rw [Logged.result_bind, result_list h]

/-- A call changes nothing but the list. -/
theorem forget_call (s : Snapshot α) (c : Call α) : (s.call c).1.forget = s.forget := by
  cases c with
  | neighbors cutoff => exact forget_list s cutoff
  | density k => exact forget_list s k.h
  | velocityField queries k => rfl
  | viscousForces k p => exact forget_list s k.h
  | stressField queries k p => exact forget_list s k.h

/-- **A call keeps the list right**, also if it fails. -/
theorem remembers_call (h : s.Remembers) (c : Call α) : (s.call c).1.Remembers := by
  cases c with
  | neighbors cutoff => exact remembers_list h cutoff
  | density k => exact remembers_list h k.h
  | velocityField queries k => exact h
  | viscousForces k p => exact remembers_list h k.h
  | stressField queries k p => exact remembers_list h k.h

/-- **A call answers as if nothing were remembered.** -/
theorem result_call [Discerning α] (h : s.Remembers) (c : Call α) :
    (s.call c).2 = (s.forget.call c).2 := by
  have hforget := remembers_forget s
  have hforces : ∀ k p, (s.viscousForces k p).2.result = (s.forget.viscousForces k p).2.result := by
    intro k p
    unfold viscousForces
    rw [result_withList h, result_withList hforget]
    rfl
  cases c with
  | neighbors cutoff =>
    simp only [call]
    rw [result_list h, result_list hforget]
    rfl
  | density k =>
    simp only [call, density]
    rw [result_withList h, result_withList hforget]
    rfl
  | velocityField queries k => rfl
  | viscousForces k p =>
    simp only [call]
    rw [hforces]
  | stressField queries k p =>
    simp only [call, stressField, Logged.result_bind, hforces]
    rfl

/-- **All answers of a run** are those of the snapshot that remembers nothing. -/
theorem run_eq [Discerning α] (h : s.Remembers) (calls : List (Call α)) :
    (s.run calls).2 = calls.map (fun c => (s.forget.call c).2) ∧
      (s.run calls).1.forget = s.forget := by
  -- on the calls, for any list that is remembered at the start
  induction calls generalizing s with
  | nil => exact ⟨rfl, rfl⟩
  | cons c calls ih =>
    obtain ⟨hanswers, hlast⟩ := ih (remembers_call h c)
    rw [forget_call] at hanswers hlast
    refine ⟨?_, hlast⟩
    show (s.call c).2 :: ((s.call c).1.run calls).2 = _
    rw [hanswers, result_call h, List.map_cons]

/-- **What a snapshot remembers cannot be seen.** In any sequence of calls, successful or not, each one
gets the answer or the error that it gets from the snapshot as it was made, and neither the box nor the
particles change. -/
theorem answers_run [Discerning α] {box : Box α} {particles : ParticleSet α}
    (hmake : make box particles = .ok s) (calls : List (Call α)) :
    (s.run calls).2 = calls.map (fun c => (s.call c).2) ∧
      (s.run calls).1.box = box ∧ (s.run calls).1.particles = particles := by
  unfold make at hmake
  obtain ⟨_, -, hmake⟩ := bind_eq_ok_iff.1 hmake
  obtain rfl := Except.ok.inj hmake
  obtain ⟨hanswers, hlast⟩ := run_eq (remembers_forget ⟨box, particles, none⟩) calls
  exact ⟨hanswers, congrArg Snapshot.box hlast, congrArg Snapshot.particles hlast⟩

/-- Two particles in a square of doubles, and calls that fail before the list is built, while it is built
and after it was built, between others that use it. -/
theorem answers_run_failures :
    let particles : ParticleSet Float :=
      ⟨.two, #[⟨⟨1, 4, 0⟩, ⟨1, 0, 0⟩, 2, 1, 0⟩, ⟨⟨7, 4, 0⟩, ⟨0, 0, 0⟩, 2, 1, 0⟩], []⟩
    let flat : Kernel Float := ⟨.lucy, 3, .two, by decide⟩
    let spatial : Kernel Float := ⟨.lucy, 2, .three, by decide⟩
    let outside : Table Float := ⟨2, #[#v[9, 4]]⟩
    let calls : List (Call Float) :=
      [.neighbors 3, .density spatial, .neighbors 5, .neighbors (-1), .density flat,
        .velocityField outside flat, .stressField outside flat ⟨1, 1, 1, 3, 0.01, false⟩, .density flat]
    ∃ box s, Box.square? 8 true = .ok box ∧ make box particles = .ok s ∧
      (s.run calls).2 = calls.map (fun c => (s.call c).2) ∧ (s.run calls).1.particles = particles := by
  intro particles flat spatial outside calls
  have hsome : (Box.square? 8 true >>= fun box => make box particles).toOption.isSome = true := by
    decide +kernel
  obtain ⟨s, hmade⟩ := exists_eq_ok hsome
  obtain ⟨box, hbox, hmake⟩ := bind_eq_ok_iff.1 hmade
  obtain ⟨hanswers, -, hparticles⟩ := answers_run hmake calls
  exact ⟨box, s, hbox, hmake, hanswers, hparticles⟩

end Snapshot

end SmoothedParticles
