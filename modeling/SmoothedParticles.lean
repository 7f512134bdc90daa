import SmoothedParticles.Force.Hertz
import SmoothedParticles.Force.Viscosity
import SmoothedParticles.Input.Parameters
import SmoothedParticles.Number.Layout
import SmoothedParticles.Pairs.Partition
import SmoothedParticles.Pairs.Update
import SmoothedParticles.Particle.Columns
import SmoothedParticles.Particle.Snapshot
import SmoothedParticles.Periodic.Images
import SmoothedParticles.Periodic.Reunion
import SmoothedParticles.Proofs.Exact.Reals
import SmoothedParticles.Proofs.Exact.Vectors
import SmoothedParticles.Proofs.Force.ContactForces
import SmoothedParticles.Proofs.Force.Dissipation
import SmoothedParticles.Proofs.Force.ExchangedContacts
import SmoothedParticles.Proofs.Force.FiniteStress
import SmoothedParticles.Proofs.Force.Momentum
import SmoothedParticles.Proofs.Force.TypeForces
import SmoothedParticles.Proofs.Pairs.CellCover
import SmoothedParticles.Proofs.Pairs.CellLimit
import SmoothedParticles.Proofs.Pairs.CellRanges
import SmoothedParticles.Proofs.Pairs.ClosestApproach
import SmoothedParticles.Proofs.Pairs.Construction
import SmoothedParticles.Proofs.Pairs.Displacements
import SmoothedParticles.Proofs.Pairs.FilteredLists
import SmoothedParticles.Proofs.Pairs.FilteredSearch
import SmoothedParticles.Proofs.Pairs.FreshPairs
import SmoothedParticles.Proofs.Pairs.Merging
import SmoothedParticles.Proofs.Pairs.MutualPairs
import SmoothedParticles.Proofs.Pairs.NearPairs
import SmoothedParticles.Proofs.Pairs.OnePass
import SmoothedParticles.Proofs.Pairs.Outcomes
import SmoothedParticles.Proofs.Pairs.PeriodicDistances
import SmoothedParticles.Proofs.Pairs.PeriodicRows
import SmoothedParticles.Proofs.Pairs.Reachable
import SmoothedParticles.Proofs.Pairs.RowInvariant
import SmoothedParticles.Proofs.Pairs.RowOrder
import SmoothedParticles.Proofs.Pairs.SampledPoints
import SmoothedParticles.Proofs.Pairs.SearchPaths
import SmoothedParticles.Proofs.Pairs.SelfSearches
import SmoothedParticles.Proofs.Pairs.SkinInvariance
import SmoothedParticles.Proofs.Pairs.SkinRows
import SmoothedParticles.Proofs.Pairs.Tiling
import SmoothedParticles.Proofs.Pairs.TypeParts
import SmoothedParticles.Proofs.Pairs.UpdateFailures
import SmoothedParticles.Proofs.Pairs.UpdateRuns
import SmoothedParticles.Proofs.Particle.AlignedColumns
import SmoothedParticles.Proofs.Particle.SnapshotRuns
import SmoothedParticles.Proofs.Particle.WrappedParticles
import SmoothedParticles.Proofs.Periodic.CopyOrder
import SmoothedParticles.Proofs.Periodic.FirstCopies
import SmoothedParticles.Proofs.Periodic.ImageSet
import SmoothedParticles.Proofs.Periodic.ImageShifts
import SmoothedParticles.Proofs.Periodic.NearestImages
import SmoothedParticles.Proofs.Periodic.Places
import SmoothedParticles.Proofs.Periodic.Reunions
import SmoothedParticles.Proofs.Periodic.ReunitedPoints
import SmoothedParticles.Proofs.Periodic.Spread
import SmoothedParticles.Proofs.Report.Results
import SmoothedParticles.Proofs.Smoothing.Components
import SmoothedParticles.Proofs.Smoothing.FallingWeights
import SmoothedParticles.Proofs.Smoothing.FarSamples
import SmoothedParticles.Proofs.Smoothing.UnitIntegrals
import SmoothedParticles.Proofs.Smoothing.WeightedMeans
import SmoothedParticles.Proofs.Space.GridSizes
import SmoothedParticles.Proofs.Space.Lattice
