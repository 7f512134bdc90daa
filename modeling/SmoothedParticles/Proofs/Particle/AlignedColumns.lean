import SmoothedParticles.Proofs.Exact.Reals
import SmoothedParticles.Proofs.Report.Results
import SmoothedParticles.Particle.Columns

/-!
# Columns stay aligned

Particles are kept in columns, which a change goes through one after the other. Columns that start empty are
at all times those of a set of particles: each change of theirs is one of the set, or has no effect.

* `ParticleSet.columns`: the columns of a set of particles.
* `run_push`, `run_addProperty`, `ofList_eq`, `get?_columns`: **what operations do with columns** is what they
  do with the set.
* `Particle.Agrees`: a particle that is read is a given one, which is the same where there is one zero
  (`Particle.Agrees.eq`).
* `Call`, `Given`: calls, and what columns were given by those that succeed.
* `holds_call`, `exists_holds_run`: **one call** on a set that holds what it was given, and any number of calls
  on its columns, successful or not.
* `toSet_columns`: the set is what its columns hold.
* `columns_stay_aligned`: **what columns are like after any calls**, and what is read off them.
-/

namespace SmoothedParticles

variable {α : Type}

theorem Dimension.mem_axes_iff {d : Dimension} {a : Axis} : a ∈ d.axes ↔ a.toNat < d.toNat := by
  cases d <;> cases a <;> decide

/-- The columns of a set of particles. -/
def ParticleSet.columns (t : ParticleSet α) : ParticleColumns α :=
  ⟨t.positions, t.velocities, t.densities, t.volumes, t.kinds, t.properties⟩

theorem Table.pushRow_ofPoints (d : Dimension) (ps : Array (Vec3 α)) (v : Vec3 α) :
    (ofPoints d ps).pushRow (v.values d) = .ok (ofPoints d (ps.push v)) := by
  have h : (v.values d).length = (ofPoints d ps).columns := List.length_map _
  rw [pushRow, dif_pos h]
  simp only [ofPoints, Array.map_push]

theorem Table.exists_row_ofPoints {d : Dimension} {ps : Array (Vec3 α)} {i : Nat} {v : Vec3 α}
    (h : ps[i]? = some v) : ∃ row, (ofPoints d ps).rows[i]? = some row ∧ row.toList = v.values d := by
  refine ⟨⟨(v.values d).toArray, by simp [ofPoints, Vec3.values]⟩, ?_, rfl⟩
  exact Array.getElem?_map.trans (congrArg (Option.map _) h)

namespace ParticleColumns

section Steps

variable {β γ : Type} {s : ParticleColumns α}

theorem run_get_bind (f : ParticleColumns α → Change α β) : (get >>= f : Change α β).run s = (f s).run s :=
  rfl

theorem run_modify (g : ParticleColumns α → ParticleColumns α) :
    (modify g : Change α PUnit).run s = (.ok (), g s) :=
  rfl

theorem run_modify_bind (g : ParticleColumns α → ParticleColumns α) (f : PUnit → Change α β) :
    ((modify g : Change α PUnit) >>= f).run s = (f ()).run (g s) :=
  rfl

theorem run_ok_bind (b : β) (f : β → Change α γ) :
    ((liftM (Except.ok b : Except (Error α) β) : Change α β) >>= f).run s = (f b).run s :=
  rfl

/-- A change that fails keeps what it has done until then. -/
theorem run_bind (x : Change α β) (f : β → Change α γ) : (x >>= f).run s =
    match x.run s with
    | (.ok b, s') => (f b).run s'
    | (.error e, s') => (.error e, s') := by
  show (ExceptT.bindCont f (x.run s).1).run (x.run s).2 = _
  rcases x.run s with ⟨b | e, s'⟩
  · rfl
  · rfl

end Steps

theorem dimension_columns (t : ParticleSet α) : t.columns.dimension = t.dimension.toNat :=
  t.dimension.length_axes

theorem size_columns (t : ParticleSet α) : t.columns.size = t.size :=
  Array.size_map

/-- Columns in place of `s`, if they can be made, and `s` otherwise. -/
def renewed (s : ParticleColumns α) :
    Except (Error α) (ParticleColumns α) → Except (Error α) Unit × ParticleColumns α
  | .ok s' => (.ok (), s')
  | .error e => (.error e, s)

/-- A change that comes to an end or has no effect: what columns become if a set changes. -/
def outcome (t : ParticleSet α) (t? : Except (Error α) (ParticleSet α)) :
    Except (Error α) Unit × ParticleColumns α :=
  t.columns.renewed (t?.map ParticleSet.columns)

/-- **Further properties** are added as to the set. -/
theorem run_addProperty (t : ParticleSet α) (name : String) (values : Table α) :
    (addProperty name values).run t.columns = outcome t (t.addProperty name values) := by
  rw [addProperty, ParticleSet.addProperty, run_get_bind, size_columns]
  dsimp only
  by_cases hsize : values.size = t.size
  · rw [if_neg (not_not.2 hsize), if_pos hsize]
    rfl
  · rw [if_pos hsize, if_neg hsize]
    rfl

/-- **Columns without entries** are made in the same dimensions. -/
theorem empty_eq (n : Nat) :
    (empty n : Except (Error α) _) = (ParticleSet.empty n).map ParticleSet.columns := by
  rw [empty, ParticleSet.empty]
  cases hd : Dimension.ofNat? n with
  | some d =>
    obtain rfl := Dimension.ofNat?_eq_some hd
    rw [if_neg (by cases d <;> decide), ← d.length_axes]
    simp [Except.map, ParticleSet.columns, ParticleSet.positions, ParticleSet.velocities,
      ParticleSet.densities, ParticleSet.volumes, ParticleSet.kinds, Table.ofPoints]
  | none =>
    have hn : n ≠ 2 ∧ n ≠ 3 := ⟨(by rintro rfl; cases hd), (by rintro rfl; cases hd)⟩
    rw [if_pos hn]
    rfl

theorem coordinates_eq (d : Dimension) (v : Vec3 α) : coordinates v d.toNat = .ok (v.values d) := by
  cases d <;> rfl

variable [Scalar α]

theorem strayAxis?_eq (d : Dimension) (p : Particle α) :
    strayAxis? d.toNat p = ParticleSet.offAxis? d p := by
  unfold strayAxis? ParticleSet.offAxis?
  congr 1
  funext a
  cases d <;> cases a <;> rfl

theorem values_flattened (d : Dimension) (v : Vec3 α) :
    (ParticleSet.flattened d v).values d = v.values d := by
  refine List.map_congr_left fun a ha => ?_
  rw [ParticleSet.flattened, Vec3.get_ofFn, if_pos ha]

theorem ofPoints_push_flattened (d : Dimension) (ps : Array (Vec3 α)) (v : Vec3 α) :
    Table.ofPoints d (ps.push (ParticleSet.flattened d v)) = .ofPoints d (ps.push v) := by
  simp only [Table.ofPoints, Array.map_push, values_flattened]

/-- **A particle is added to all columns or to none**, as it is to the set. -/
theorem run_push (t : ParticleSet α) (p : Particle α) :
    (push p).run t.columns = outcome t (t.push p) := by
  have hfree : t.columns.properties = t.properties := rfl
  have hpositions : t.columns.positions.pushRow (p.position.values t.dimension) =
      .ok (.ofPoints t.dimension ((t.particles.map Particle.position).push p.position)) :=
    Table.pushRow_ofPoints _ _ _
  have hvelocities : t.columns.velocities.pushRow (p.velocity.values t.dimension) =
      .ok (.ofPoints t.dimension ((t.particles.map Particle.velocity).push p.velocity)) :=
    Table.pushRow_ofPoints _ _ _
  rw [push, ParticleSet.push, run_get_bind, dimension_columns, strayAxis?_eq, coordinates_eq,
    coordinates_eq, hfree]
  dsimp only
  split_ifs with hfixed
  · cases ParticleSet.offAxis? t.dimension p with
    | some a => rfl
    | none =>
      -- nothing fails once a column was changed
      dsimp only
      rw [run_ok_bind, run_ok_bind, hpositions, run_ok_bind, run_modify_bind, hvelocities, run_ok_bind,
        run_modify_bind, run_modify_bind, run_modify_bind, run_modify]
      simp only [outcome, renewed, Except.map, ParticleSet.columns, ParticleSet.positions,
        ParticleSet.velocities, ParticleSet.densities, ParticleSet.volumes, ParticleSet.kinds,
        Array.map_push, ofPoints_push_flattened]
  · rfl

theorem run_forM_push (t : ParticleSet α) (ps : List (Particle α)) :
    (let r := (ps.forM push).run t.columns; r.1 >>= fun _ => pure r.2) =
      (ps.foldlM ParticleSet.push t).map ParticleSet.columns := by
  induction ps generalizing t with
  | nil => rfl
  | cons p ps ih =>
    have hcons : (p :: ps).forM push = push (α := α) p >>= fun _ => ps.forM push := rfl
    dsimp only
    rw [hcons, run_bind, run_push, List.foldlM_cons]
    cases t.push p with
    | error e => rfl
    | ok t' => exact ih t'

/-- **Columns are filled** as the set is. -/
theorem ofList_eq (n : Nat) (ps : List (Particle α)) :
    ofList n ps = (ParticleSet.ofList n ps).map ParticleSet.columns := by
  rw [ofList, ParticleSet.ofList, empty_eq]
  cases ParticleSet.empty n with
  | error e => rfl
  | ok t => exact run_forM_push t ps

end ParticleColumns

variable [Scalar α]

/-- The particle as it is kept, with zeros along the axes that are not in use. -/
def Particle.flattened (d : Dimension) (p : Particle α) : Particle α :=
  { p with
    position := ParticleSet.flattened d p.position
    velocity := ParticleSet.flattened d p.velocity }

theorem Particle.flattened_flattened (d : Dimension) (p : Particle α) :
    (p.flattened d).flattened d = p.flattened d := by
  cases d <;> rfl

/-- A vector that is read is a given one: it has the given coordinates along the first `n` axes, and zeros
along the others, where the given ones are zeros too, of either sign. -/
def Vec3.Agrees (n : Nat) (given read : Vec3 α) : Prop :=
  ∀ a : Axis, if a.toNat < n then read.get a = given.get a
    else (given.get a == 0) = true ∧ read.get a = 0

/-- A particle that is read is a given one, up to zeros along the axes past the first `n`. -/
structure Particle.Agrees (n : Nat) (given read : Particle α) : Prop where
  position : given.position.Agrees n read.position
  velocity : given.velocity.Agrees n read.velocity
  density : read.density = given.density
  volume : read.volume = given.volume
  kind : read.kind = given.kind

theorem Vec3.Agrees.eq {n : Nat} {v w : Vec3 α} (h : v.Agrees n w)
    (hzero : ∀ x : α, (x == 0) = true → x = 0) : w = v := by
  refine Vec3.ext_get fun a => ?_
  have ha := h a
  split_ifs at ha
  · exact ha
  · exact ha.2.trans (hzero _ ha.1).symm

/-- **Where there is one zero**, the particle that is read is the given one. -/
theorem Particle.Agrees.eq {n : Nat} {p q : Particle α} (h : p.Agrees n q)
    (hzero : ∀ x : α, (x == 0) = true → x = 0) : q = p := by
  obtain ⟨x, v, ρ, V, k⟩ := q
  obtain rfl : x = _ := h.position.eq hzero
  obtain rfl : v = _ := h.velocity.eq hzero
  obtain rfl : ρ = _ := h.density
  obtain rfl : V = _ := h.volume
  obtain rfl : k = _ := h.kind
  rfl

theorem Vec3.agrees_flattened {d : Dimension} {v : Vec3 α} (h : ∀ a ∉ d.axes, (v.get a == 0) = true) :
    v.Agrees d.toNat (ParticleSet.flattened d v) := by
  intro a
  rw [ParticleSet.flattened, Vec3.get_ofFn]
  by_cases ha : a ∈ d.axes
  · rw [if_pos (Dimension.mem_axes_iff.1 ha), if_pos ha]
  · rw [if_neg fun hlt => ha (Dimension.mem_axes_iff.2 hlt), if_neg ha]
    exact ⟨h a ha, rfl⟩

/-- **A particle that can be added** is kept without loss. -/
theorem Particle.agrees_flattened {d : Dimension} {p : Particle α}
    (h : ParticleSet.offAxis? d p = none) : p.Agrees d.toNat (p.flattened d) := by
  have hflat : ∀ a ∉ d.axes, (p.position.get a == 0) = true ∧ (p.velocity.get a == 0) = true := by
    intro a ha
    have hnone := List.find?_eq_none.1 h a (by cases a <;> simp)
    simpa [ha, bne] using hnone
  exact ⟨Vec3.agrees_flattened fun a ha => (hflat a ha).1, Vec3.agrees_flattened fun a ha => (hflat a ha).2,
    rfl, rfl, rfl⟩

namespace ParticleColumns

theorem ofList_values (d : Dimension) (v : Vec3 α) :
    Vec3.ofList 0 (v.values d) = ParticleSet.flattened d v := by
  cases d <;> rfl

/-- **What is read off the columns** is the particle of the set. -/
theorem get?_columns (t : ParticleSet α) (i : Nat) :
    t.columns.get? i = .ok (t.particles[i]?.map (Particle.flattened t.dimension)) := by
  rw [get?, size_columns]
  split_ifs with hi
  · rw [Array.getElem?_eq_none hi]
    rfl
  · obtain ⟨p, hp⟩ : ∃ p, t.particles[i]? = some p := ⟨_, Array.getElem?_eq_getElem (not_le.1 hi)⟩
    have hentry : ∀ {β : Type} (f : Particle α → β), (t.particles.map f)[i]? = some (f p) := by
      intro β f
      rw [Array.getElem?_map, hp, Option.map_some]
    obtain ⟨x, hx, hposition⟩ : ∃ x, t.columns.positions.rows[i]? = some x ∧
      x.toList = p.position.values t.dimension := Table.exists_row_ofPoints (hentry Particle.position)
    obtain ⟨v, hv, hvelocity⟩ : ∃ v, t.columns.velocities.rows[i]? = some v ∧
      v.toList = p.velocity.values t.dimension := Table.exists_row_ofPoints (hentry Particle.velocity)
    have hdensity : t.columns.densities[i]? = some p.density := hentry Particle.density
    have hvolume : t.columns.volumes[i]? = some p.volume := hentry Particle.volume
    have hkind : t.columns.kinds[i]? = some p.kind := hentry Particle.kind
    rw [hx, hv, hdensity, hvolume, hkind, hp]
    dsimp only
    rw [hposition, hvelocity, ofList_values, ofList_values]
    rfl

end ParticleColumns

/-- A call that makes particles or changes them. -/
inductive Call (α : Type) where
  | create (dimension : Nat)
  | createFrom (dimension : Nat) (particles : List (Particle α))
  | push (p : Particle α)
  | addProperty (name : String) (values : Table α)

/-- What columns are made from: a dimension and particles, from the first one to the last. -/
structure Given (α : Type) where
  dimension : Nat
  particles : List (Particle α)

/-- What is given after one more call that succeeds. -/
def Given.after (g : Given α) : Call α → Given α
  | .create n => ⟨n, []⟩
  | .createFrom n ps => ⟨n, ps⟩
  | .push p => { g with particles := g.particles ++ [p] }
  | .addProperty _ _ => g

namespace ParticleSet

variable {t t' : ParticleSet α} {g : Given α}

/-- What a call does to a set. -/
def call (t : ParticleSet α) : Call α → Except (Error α) (ParticleSet α)
  | .create n => empty n
  | .createFrom n ps => ofList n ps
  | .push p => t.push p
  | .addProperty name values => t.addProperty name values

/-- The set holds the particles it was given, and as many rows of all further properties. -/
structure Holds (t : ParticleSet α) (g : Given α) : Prop where
  dimension : t.dimension.toNat = g.dimension
  particles : t.particles.toList = g.particles.map (Particle.flattened t.dimension)
  flat : ∀ p ∈ g.particles, offAxis? t.dimension p = none
  rows : ∀ p ∈ t.properties, p.2.size = t.size

theorem holds_empty {n : Nat} (h : (empty n : Except (Error α) _) = .ok t) : t.Holds ⟨n, []⟩ := by
  unfold empty at h
  split at h
  next d hd =>
    cases h
    exact ⟨Dimension.ofNat?_eq_some hd, rfl, List.forall_mem_nil _, List.forall_mem_nil _⟩
  · exact absurd h invalid_ne_ok

/-- **When a particle is added**, and what the set is then. -/
theorem push_ok_iff {p : Particle α} : t.push p = .ok t' ↔ t.properties = [] ∧
    offAxis? t.dimension p = none ∧
    ⟨t.dimension, t.particles.push (p.flattened t.dimension), t.properties⟩ = t' := by
  rw [push, ite_invalid_iff, not_not, List.isEmpty_iff]
  refine and_congr_right fun _ => ?_
  cases offAxis? t.dimension p with
  | some a => exact iff_of_false mismatch_ne_ok fun h => nomatch h.1
  | none => exact (Except.ok.injEq _ _).to_iff.trans (and_iff_right rfl).symm

theorem holds_push {p : Particle α} (ht : t.Holds g) (h : t.push p = .ok t') :
    t'.Holds (g.after (.push p)) := by
  obtain ⟨hfree, hflat, rfl⟩ := push_ok_iff.1 h
  refine ⟨ht.dimension, ?_, List.forall_mem_append.2 ⟨ht.flat, List.forall_mem_singleton.2 hflat⟩, ?_⟩
  · rw [Array.toList_push, ht.particles, Given.after, List.map_append, List.map_singleton]
  · rw [hfree]
    exact List.forall_mem_nil _

theorem holds_foldlM {ps : List (Particle α)} (ht : t.Holds g) (h : ps.foldlM push t = .ok t') :
    t'.Holds { g with particles := g.particles ++ ps } := by
  induction ps generalizing t g with
  | nil =>
    cases h
    rwa [List.append_nil]
  | cons p ps ih =>
    rw [List.foldlM_cons, bind_eq_ok_iff] at h
    obtain ⟨t₁, hpush, h⟩ := h
    rw [List.append_cons]
    exact ih (holds_push ht hpush) h

omit [Scalar α] in
theorem mem_insertProperty {name : String} {values : Table α} {properties : List (String × Table α)}
    {p : String × Table α} (h : p ∈ insertProperty name values properties) :
    p = (name, values) ∨ p ∈ properties := by
  induction properties with
  | nil => exact .inl (List.mem_singleton.1 h)
  | cons q properties ih =>
    rw [insertProperty] at h
    split_ifs at h
    · exact List.mem_cons.1 h
    · exact (List.mem_cons.1 h).imp_right (List.mem_cons_of_mem _)
    · rcases List.mem_cons.1 h with rfl | h
      · exact .inr List.mem_cons_self
      · exact (ih h).imp_right (List.mem_cons_of_mem _)

theorem holds_addProperty {name : String} {values : Table α} (ht : t.Holds g)
    (h : t.addProperty name values = .ok t') : t'.Holds g := by
  unfold addProperty at h
  split at h
  next hsize =>
    cases h
    refine ⟨ht.dimension, ht.particles, ht.flat, fun p hp => ?_⟩
    rcases mem_insertProperty hp with rfl | hp
    · exact hsize
    · exact ht.rows p hp
  · exact absurd h mismatch_ne_ok

/-- **What one call keeps**, if it succeeds: the set holds what it was given. -/
theorem holds_call {c : Call α} (ht : t.Holds g) (h : t.call c = .ok t') : t'.Holds (g.after c) := by
  cases c with
  | create n => exact holds_empty h
  | createFrom n ps =>
    obtain ⟨t₀, h₀, h⟩ := bind_eq_ok_iff.1 h
    exact holds_foldlM (holds_empty h₀) h
  | push p => exact holds_push ht h
  | addProperty name values => exact holds_addProperty ht h

end ParticleSet

namespace ParticleColumns

variable {t : ParticleSet α} {g : Given α}

/-- What a call does to columns, and whether it succeeds. -/
def call (s : ParticleColumns α) : Call α → Except (Error α) Unit × ParticleColumns α
  | .create n => s.renewed (empty n)
  | .createFrom n ps => s.renewed (ofList n ps)
  | .push p => (push p).run s
  | .addProperty name values => (addProperty name values).run s

/-- The columns after some calls, each of which may fail. -/
def run (s : ParticleColumns α) (calls : List (Call α)) : ParticleColumns α :=
  calls.foldl (fun s c => (s.call c).2) s

/-- What columns are given by some calls, as far as these succeed, if they were given `g` before. -/
def given (s : ParticleColumns α) (g : Given α) : List (Call α) → Given α
  | [] => g
  | c :: calls =>
    match s.call c with
    | (.ok _, s') => s'.given (g.after c) calls
    | (.error _, s') => s'.given g calls

/-- **One call** on columns is the same call on the set, or has no effect. -/
theorem call_columns (t : ParticleSet α) (c : Call α) : t.columns.call c = outcome t (t.call c) := by
  cases c with
  | create n => exact congrArg t.columns.renewed (empty_eq n)
  | createFrom n ps => exact congrArg t.columns.renewed (ofList_eq n ps)
  | push p => exact run_push t p
  | addProperty name values => exact run_addProperty t name values

theorem run_cons (t : ParticleSet α) (c : Call α) (calls : List (Call α)) :
    t.columns.run (c :: calls) =
      match t.call c with
      | .ok t' => t'.columns.run calls
      | .error _ => t.columns.run calls := by
  rw [run, List.foldl_cons, call_columns]
  cases t.call c <;> rfl

theorem given_cons (t : ParticleSet α) (g : Given α) (c : Call α) (calls : List (Call α)) :
    t.columns.given g (c :: calls) =
      match t.call c with
      | .ok t' => t'.columns.given (g.after c) calls
      | .error _ => t.columns.given g calls := by
  rw [given, call_columns]
  cases t.call c <;> rfl

/-- **Any calls**, successful or not, lead to the columns of a set that holds what was given. -/
theorem exists_holds_run (ht : t.Holds g) (calls : List (Call α)) :
    ∃ t' : ParticleSet α, t.columns.run calls = t'.columns ∧ t'.Holds (t.columns.given g calls) := by
  induction calls generalizing t g with
  | nil => exact ⟨t, rfl, ht⟩
  | cons c calls ih =>
    rw [run_cons, given_cons]
    cases hc : t.call c with
    | ok t₁ => exact ih (ParticleSet.holds_call ht hc)
    | error e => exact ih ht

/-- All columns have one entry per particle. -/
structure Aligned (s : ParticleColumns α) : Prop where
  dimension : s.dimension = 2 ∨ s.dimension = 3
  positions : s.positions.shape = (s.size, s.dimension)
  velocities : s.velocities.shape = (s.size, s.dimension)
  densities : s.densities.size = s.size
  volumes : s.volumes.size = s.size
  kinds : s.kinds.size = s.size
  properties : ∀ p ∈ s.properties, p.2.size = s.size

theorem aligned_columns (ht : t.Holds g) : t.columns.Aligned where
  dimension := by
    rw [dimension_columns]
    cases t.dimension
    · exact .inl rfl
    · exact .inr rfl
  positions := by
    rw [size_columns]
    exact congrArg (·, t.columns.dimension) ((Table.size_ofPoints _ _).trans Array.size_map)
  velocities := by
    rw [size_columns]
    exact congrArg (·, t.columns.dimension) ((Table.size_ofPoints _ _).trans Array.size_map)
  densities := Array.size_map.trans Array.size_map.symm
  volumes := Array.size_map.trans Array.size_map.symm
  kinds := rfl
  properties := by
    rw [size_columns]
    exact ht.rows

theorem size_of_holds (ht : t.Holds g) : t.columns.size = g.particles.length := by
  rw [size_columns, ParticleSet.size, ← Array.length_toList, ht.particles, List.length_map]

/-- **What is read off columns** are the given particles. -/
theorem get?_of_holds (ht : t.Holds g) (i : Nat) :
    t.columns.get? i = .ok (g.particles[i]?.map (Particle.flattened t.dimension)) := by
  rw [get?_columns, ← Array.getElem?_toList, ht.particles, List.getElem?_map, Option.map_map]
  congr 2
  exact funext (Particle.flattened_flattened t.dimension)

/-- **The set of the particles in columns** is the one they come from. -/
theorem toSet_columns (ht : t.Holds g) : t.columns.toSet = .ok t := by
  have hget : t.columns.get? = fun i => pure t.particles[i]? := by
    funext i
    rw [get?_of_holds ht, ← Array.getElem?_toList, ht.particles, List.getElem?_map]
    rfl
  have hentries : (List.range t.size).map (fun i => t.particles[i]?) = t.particles.toList.map some := by
    refine List.ext_getElem (by simp [ParticleSet.size]) fun i hi _ => ?_
    rw [List.length_map, List.length_range] at hi
    simp only [List.getElem_map, List.getElem_range, Array.getElem_toList]
    exact Array.getElem?_eq_getElem hi
  have hd : Dimension.ofNat? t.columns.dimension = some t.dimension := by
    rw [dimension_columns, Dimension.ofNat?_toNat]
  have hall : (t.particles.toList.map some).filterMap id = t.particles.toList := by
    rw [List.filterMap_map, Function.id_comp, List.filterMap_some]
  rw [toSet, hget, List.mapM_pure, size_columns, hentries, pure_bind, hall, hd]
  rfl

/-- **Columns stay aligned.** Whichever calls succeed or fail, each column has one row or entry per particle,
and positions and velocities have one column per dimension. A call that fails changes nothing. At each index
below the number of particles, the one that was given there is read, and nothing from there on; it is the very
same particle if `0` is the only number equal to zero. -/
theorem columns_stay_aligned {n : Nat} {s₀ : ParticleColumns α} (h₀ : empty n = .ok s₀)
    (calls : List (Call α)) :
    let s := s₀.run calls
    let g := s₀.given ⟨n, []⟩ calls
    s.Aligned ∧ s.dimension = g.dimension ∧ s.size = g.particles.length ∧
      (∀ c e, (s.call c).1 = .error e → (s.call c).2 = s) ∧
      (∀ (i : Nat) (h : i < g.particles.length), ∃ q, s.get? i = .ok (some q) ∧
        g.particles[i].Agrees g.dimension q) ∧
      (∀ i, g.particles.length ≤ i → s.get? i = .ok none) ∧
      ((∀ x : α, (x == 0) = true → x = 0) → ∀ i, s.get? i = .ok g.particles[i]?) := by
  intro s g
  obtain ⟨t₀, ht₀, rfl⟩ : ∃ t₀ : ParticleSet α, ParticleSet.empty n = .ok t₀ ∧ t₀.columns = s₀ := by
    rw [empty_eq] at h₀
    cases ht₀ : (ParticleSet.empty n : Except (Error α) _) with
    | error e => rw [ht₀] at h₀; cases h₀
    | ok t₀ => exact ⟨t₀, rfl, by rw [ht₀] at h₀; cases h₀; rfl⟩
  obtain ⟨t, hrun, ht⟩ : ∃ t : ParticleSet α, s = t.columns ∧ t.Holds g :=
    exists_holds_run (ParticleSet.holds_empty ht₀) calls
  have hread := get?_of_holds ht
  have hagrees : ∀ p ∈ g.particles, p.Agrees g.dimension (p.flattened t.dimension) := by
    intro p hp
    rw [← ht.dimension]
    exact Particle.agrees_flattened (ht.flat p hp)
  rw [hrun]
  refine ⟨aligned_columns ht, (dimension_columns t).trans ht.dimension, size_of_holds ht,
    fun c e hfail => ?_, fun i hi => ?_, fun i hi => ?_, fun hzero i => ?_⟩
  · rw [call_columns] at hfail ⊢
    cases hc : t.call c with
    | ok t' => rw [hc] at hfail; cases hfail
    | error e' => rfl
  · refine ⟨_, ?_, hagrees _ (List.getElem_mem hi)⟩
    rw [hread, List.getElem?_eq_getElem hi, Option.map_some]
  · rw [hread, List.getElem?_eq_none hi, Option.map_none]
  · rw [hread]
    congr 1
    cases hi : g.particles[i]? with
    | none => rfl
    | some p => exact congrArg some ((hagrees p (List.mem_of_getElem? hi)).eq hzero)

/-- In the plane, a particle is given and one is added, and another one, which has a height, is not. With a
further property, there is no more to add. -/
theorem columns_stay_aligned_plane :
    let p : Particle ℝ := ⟨⟨1, 2, 0⟩, ⟨3, 0, 0⟩, 1, 2, 1⟩
    let q : Particle ℝ := ⟨⟨4, 5, 0⟩, ⟨0, 1, 0⟩, 1, 2, 2⟩
    let raised : Particle ℝ := ⟨⟨1, 2, 3⟩, ⟨0, 0, 0⟩, 1, 2, 1⟩
    let masses : Table ℝ := ⟨1, #[#v[5], #v[6]]⟩
    let calls : List (Call ℝ) :=
      [.createFrom 2 [p], .push raised, .push q, .addProperty "mass" masses, .push p]
    ∃ s₀ : ParticleColumns ℝ, empty 2 = .ok s₀ ∧ s₀.given ⟨2, []⟩ calls = ⟨2, [p, q]⟩ ∧
      (s₀.run calls).Aligned ∧ (s₀.run calls).size = 2 ∧ (s₀.run calls).get? 0 = .ok (some p) ∧
      (s₀.run calls).get? 1 = .ok (some q) ∧ (s₀.run calls).get? 2 = .ok none := by
  intro p q raised masses calls
  have hp : ParticleSet.offAxis? .two p = none := by
    simp [ParticleSet.offAxis?, p, Vec3.get, Dimension.axes]
  have hq : ParticleSet.offAxis? .two q = none := by
    simp [ParticleSet.offAxis?, q, Vec3.get, Dimension.axes]
  have hraised : ParticleSet.offAxis? .two raised = some .z := by
    simp [ParticleSet.offAxis?, raised, Vec3.get, Dimension.axes]
  let t₀ : ParticleSet ℝ := ⟨.two, #[], []⟩
  let t₁ : ParticleSet ℝ := ⟨.two, #[p.flattened .two], []⟩
  let t₂ : ParticleSet ℝ := ⟨.two, #[p.flattened .two, q.flattened .two], []⟩
  let t₃ : ParticleSet ℝ := { t₂ with properties := [("mass", masses)] }
  have h₀ : empty 2 = .ok t₀.columns := empty_eq 2
  have hcreate : t₀.call (.createFrom 2 [p]) = .ok t₁ := by
    refine bind_eq_ok_iff.2 ⟨t₀, rfl, ?_⟩
    rw [List.foldlM_cons, ParticleSet.push_ok_iff.2 ⟨rfl, hp, rfl⟩]
    rfl
  have hreject : t₁.call (.push raised) = mismatch (.flatParticle .z 2) := by
    rw [ParticleSet.call, ParticleSet.push, hraised]
    rfl
  have hadd : t₁.call (.push q) = .ok t₂ := ParticleSet.push_ok_iff.2 ⟨rfl, hq, rfl⟩
  have hextend : t₂.call (.addProperty "mass" masses) = .ok t₃ := rfl
  have hfixed : t₃.call (.push p) = invalid .particlesFixed := rfl
  have hgiven : t₀.columns.given ⟨2, []⟩ calls = ⟨2, [p, q]⟩ := by
    simp only [calls, given_cons, hcreate, hreject, hadd, hextend, hfixed, mismatch, invalid]
    rfl
  obtain ⟨haligned, -, hsize, -, -, -, hexact⟩ := columns_stay_aligned h₀ calls
  have hread := hexact fun x hx => by simpa using hx
  rw [hgiven] at hsize hread
  exact ⟨t₀.columns, h₀, hgiven, haligned, hsize, hread 0, hread 1, hread 2⟩

end ParticleColumns

end SmoothedParticles
