import SmoothedParticles.Proofs.Report.Results
import SmoothedParticles.Pairs.Update

/-!
# Results without logs

The operations on lists log what they do. Their results, or why they fail, are those of the same steps
without a log, in any arithmetic.

* `Box.result_images`: the images of points.
* `result_direct`, `result_periodic`: a list built from points.
* `result_update`: a list at new positions.
-/

namespace SmoothedParticles

variable {α : Type} [Scalar α]

theorem Box.result_images (box : Box α) (t : Table α) (cutoff : Vec3 α) :
    (box.images t cutoff).result = (do
      let ps ← box.checkInside t
      box.dimension.axes.forM (box.checkCutoff cutoff)
      return box.imagesOf cutoff ps.toList) := by
  unfold Box.images
  simp only [Logged.result_bind, Logged.result_monadLift, Logged.result_forM]
  rfl

namespace NeighborList

variable (o : SearchOptions α) (query : Table α) (reference? : Option (Table α)) (f : PairFilter)

/-- **A list without periodic boundaries**, step by step. -/
theorem result_direct : (direct o query reference? f).result = (do
    o.validate
    let (d, points) ← pointSets query reference?
    (f.validate points.query.size points.reference.size : Except (Error α) Unit)
    let hits ← (directSearch o f points).run d points.query
    return ofRows o f d points none (hits.mapIdx fun i row => row.map (pairOfHit i))) := by
  unfold direct
  simp only [Logged.result_bind, Logged.result_monadLift]
  rfl

/-- **A list in a box**, step by step. -/
theorem result_periodic (box : Box α) : (periodic box o query reference? f).result = (do
    o.validate
    let qs ← box.checkInside query
    PointSet.checkFinite .query qs
    let rs? ← reference?.mapM box.checkInside
    let points : PointSets α := ⟨qs, rs?⟩
    (f.validate points.query.size points.reference.size : Except (Error α) Unit)
    let images ← (box.images (reference?.getD query) (.replicate o.searchRadius)).result
    PointSet.checkFinite .reference (images.extend points.reference)
    let hits ← (periodicSearch o f points images).run box.dimension points.query
    return ofRows o f box.dimension points (some box) (hits.mapIdx fun i row =>
      (row.map (pairOfImage images points.reference.size i)).mergeSort precedes)) := by
  unfold periodic
  simp only [Logged.result_bind, Logged.result_monadLift, Logged.result_option_mapM]
  rfl

/-- **An update**, step by step. -/
theorem result_update (l : NeighborList α) (tolerance : α) (samples : ℕ) :
    (l.update query reference? tolerance samples).result = (do
      l.checkUpdate reference? tolerance samples
      let new ← l.updatedPoints query reference?
      if l.totalDisplacement new samples ≤ l.threshold tolerance then
        return (l.revalidate new, .revalidated)
      else
        let list ← (build l.box? l.options query reference? l.filter).result
        return (list, .rebuilt)) := by
  unfold update
  simp only [Logged.result_bind, Logged.result_monadLift]
  refine congrArg _ (funext fun _ => congrArg _ (funext fun new => ?_))
  split_ifs
  · rfl
  · simp only [Logged.result_bind]
    rfl

end NeighborList

end SmoothedParticles
