import SmoothedParticles.Proofs.Periodic.Places
import SmoothedParticles.Particle.Snapshot

/-!
# Wrapped particles

Tables are wrapped row by row, and so are the particles of a snapshot. Since each place of a periodic box
has one point in the half-open cell, nothing is left of how far away the points were.

* `Snapshot.wrapTable_positions`: the positions of wrapped particles are the wrapped positions.
* `Snapshot.wrapped_ok_iff`: when a snapshot of wrapped particles is made, and which.
* `wrapped_representatives`: **wrapping picks one point for each place**, so that particles can be wrapped
  into a box exactly if they are within its bounds along the axes that are not periodic.
-/

namespace SmoothedParticles

theorem Dimension.toNat_inj {d e : Dimension} : d.toNat = e.toNat ↔ d = e := by
  cases d <;> cases e <;> simp [toNat]

namespace Snapshot

section Positions

variable {α : Type} [Scalar α] {box : Box α} {particles : ParticleSet α} {s : Snapshot α}

omit [Scalar α] in
theorem columns_positions (particles : ParticleSet α) :
    particles.positions.columns = particles.dimension.toNat :=
  particles.dimension.length_axes

theorem positions_wrapParticles (box : Box α) (particles : ParticleSet α) :
    (wrapParticles box particles).positions =
      .ofPoints particles.dimension ((particles.particles.map Particle.position).map box.wrap) := by
  simp only [ParticleSet.positions, wrapParticles, Array.map_map, Function.comp_def]

/-- **The positions of wrapped particles** are the wrapped positions. -/
theorem wrapTable_positions (hd : particles.dimension = box.dimension) :
    box.wrapTable particles.positions = .ok (wrapParticles box particles).positions := by
  rw [positions_wrapParticles, ParticleSet.positions, hd]
  exact box.wrapTable_ofPoints _

/-- **When a snapshot of wrapped particles is made**, and which. -/
theorem wrapped_ok_iff : wrapped box particles = .ok s ↔ particles.dimension = box.dimension ∧
    box.Covers (wrapParticles box particles).positions ∧
    ⟨box, wrapParticles box particles, none⟩ = s := by
  unfold wrapped make
  simp only [bind_eq_ok_iff, Box.pointsOf_ok_iff, Box.checkInside_eq_ok_iff, pure_eq_ok_iff,
    columns_positions, Dimension.toNat_inj]
  constructor
  · rintro ⟨_, ⟨hd, -⟩, _, ⟨hcovers, -⟩, hs⟩
    exact ⟨hd, hcovers, hs⟩
  · rintro ⟨hd, hcovers, hs⟩
    exact ⟨_, ⟨hd, rfl⟩, _, ⟨hcovers, rfl⟩, hs⟩

end Positions

/-- Wrapped particles are within the bounds along periodic axes, and where they were along the others. -/
theorem covers_wrapParticles {box : Box ℝ} {particles : ParticleSet ℝ}
    (hd : particles.dimension = box.dimension) :
    box.Covers (wrapParticles box particles).positions ↔ ∀ p ∈ particles.particles,
      ∀ a ∈ box.dimension.axes, ¬box.periodic.get a = true →
        box.lo.get a ≤ p.position.get a ∧ p.position.get a ≤ box.hi.get a := by
  rw [positions_wrapParticles, hd, Box.covers_ofPoints]
  simp only [Array.forall_mem_map]
  refine forall₂_congr fun p _ => forall₂_congr fun a _ => ?_
  by_cases hper : box.periodic.get a = true
  · obtain ⟨hlo, hhi⟩ := Box.wrap_mem_cell hper p.position
    exact iff_of_true ⟨hlo, hhi.le⟩ fun hnot => absurd hper hnot
  · rw [Box.get_wrap_of_not_periodic hper, imp_iff_right hper]

end Snapshot

/-- **Wrapping picks one point for each place.** The points of a wrapped table are in the half-open cell
along periodic axes and at the places of the given ones. Wrapping them again changes nothing, and another
table is wrapped to the same one exactly if its points are at the same places. So a snapshot can be made
of wrapped particles exactly if they have as many dimensions as the box and are within its bounds along
the axes that are not periodic. -/
theorem wrapped_representatives (box : Box ℝ) :
    (∀ t : Table ℝ, t.columns = box.dimension.toNat → ∃ w, box.wrapTable t = .ok w ∧
      w.columns = t.columns ∧ box.SamePlaces t.points w.points ∧
      (∀ q ∈ w.points, ∀ a, box.periodic.get a = true →
        q.get a ∈ Set.Ico (box.lo.get a) (box.hi.get a)) ∧
      box.wrapTable w = .ok w ∧
      ∀ t' : Table ℝ, t'.columns = box.dimension.toNat →
        (box.wrapTable t' = .ok w ↔ box.SamePlaces t.points t'.points)) ∧
    ∀ particles : ParticleSet ℝ,
      ((∃ s, Snapshot.wrapped box particles = .ok s) ↔ particles.dimension = box.dimension ∧
        ∀ p ∈ particles.particles, ∀ a ∈ box.dimension.axes, ¬box.periodic.get a = true →
          box.lo.get a ≤ p.position.get a ∧ p.position.get a ≤ box.hi.get a) ∧
      ∀ s, Snapshot.wrapped box particles = .ok s →
        box.wrapTable particles.positions = .ok s.particles.positions := by
  refine ⟨fun t ht => ?_, fun particles => ⟨?_, fun s hs => ?_⟩⟩
  · obtain ⟨w, hw⟩ : ∃ w, box.wrapTable t = .ok w := ⟨_, Box.wrapTable_ok_iff.2 ⟨ht, rfl⟩⟩
    obtain ⟨hcolumns, hpoints⟩ := Box.points_of_wrapTable hw
    have hplaces : box.SamePlaces t.points w.points := by
      rw [← Box.map_wrap_eq_iff, hpoints, Array.map_map]
      exact Array.map_congr_left fun p _ => (box.wrap_wrap p).symm
    refine ⟨w, hw, hcolumns.trans ht.symm, hplaces, fun q hq a hper => ?_,
      (Box.wrapTable_eq_iff hw hcolumns).2 hplaces, fun t' ht' => Box.wrapTable_eq_iff hw ht'⟩
    rw [hpoints] at hq
    obtain ⟨p, -, rfl⟩ := Array.mem_map.1 hq
    exact Box.wrap_mem_cell hper p
  · constructor
    · rintro ⟨s, hs⟩
      obtain ⟨hd, hcovers, -⟩ := Snapshot.wrapped_ok_iff.1 hs
      exact ⟨hd, (Snapshot.covers_wrapParticles hd).1 hcovers⟩
    · rintro ⟨hd, hin⟩
      exact ⟨_, Snapshot.wrapped_ok_iff.2 ⟨hd, (Snapshot.covers_wrapParticles hd).2 hin, rfl⟩⟩
  · obtain ⟨hd, -, rfl⟩ := Snapshot.wrapped_ok_iff.1 hs
    exact Snapshot.wrapTable_positions hd

/-- In a square of length eight, a point on the upper face and one on the lower face are wrapped to the
same point, and so are points that are many lengths away. -/
theorem wrapped_representatives_faces :
    let box := Box.square 8 (by norm_num) true
    let t : Table ℝ := ⟨2, #[#v[8, 4], #v[-81, 3]]⟩
    let t' : Table ℝ := ⟨2, #[#v[0, 4], #v[7, 3]]⟩
    t.columns = box.dimension.toNat ∧ t'.columns = box.dimension.toNat ∧
      box.SamePlaces t.points t'.points ∧
      ∃ w, box.wrapTable t = .ok w ∧ box.wrapTable t' = .ok w ∧ box.wrapTable w = .ok w := by
  intro box t t'
  have hpoints : t.points = #[⟨8, 4, 0⟩, ⟨-81, 3, 0⟩] := by simp [t, Table.points, Vec3.ofList]
  have hpoints' : t'.points = #[⟨0, 4, 0⟩, ⟨7, 3, 0⟩] := by simp [t', Table.points, Vec3.ofList]
  have hfaces : box.SamePlace ⟨8, 4, 0⟩ ⟨0, 4, 0⟩ := by
    refine Box.samePlace_iff_displace.2 ⟨⟨-1, 0, 0⟩, Box.supports_square rfl, ?_⟩
    rw [Box.displace_square]
    norm_num
  have hfar : box.SamePlace ⟨-81, 3, 0⟩ ⟨7, 3, 0⟩ := by
    refine Box.samePlace_iff_displace.2 ⟨⟨11, 0, 0⟩, Box.supports_square rfl, ?_⟩
    rw [Box.displace_square]
    norm_num
  have hplaces : box.SamePlaces t.points t'.points := by
    rw [hpoints, hpoints']
    refine ⟨rfl, fun i p q hp hq => ?_⟩
    have hi : i < 2 := (Array.getElem?_eq_some_iff.1 hp).1
    interval_cases i
    · rw [← Option.some.inj hp, ← Option.some.inj hq]
      exact hfaces
    · rw [← Option.some.inj hp, ← Option.some.inj hq]
      exact hfar
  obtain ⟨w, hw, -, -, -, hwrapped, hsame⟩ := (wrapped_representatives box).1 t rfl
  exact ⟨rfl, rfl, hplaces, w, hw, (hsame t' rfl).2 hplaces, hwrapped⟩

end SmoothedParticles
