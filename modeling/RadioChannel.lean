import RadioChannel.Action
import RadioChannel.Antenna.Array
import RadioChannel.Antenna.Beam
import RadioChannel.Antenna.Panel
import RadioChannel.Beamforming.Bundle
import RadioChannel.Beamforming.Codebook
import RadioChannel.Beamforming.Conflict
import RadioChannel.Beamforming.Engine
import RadioChannel.Beamforming.Fourier
import RadioChannel.Beamforming.Steering
import RadioChannel.Beamforming.Strategy
import RadioChannel.Blockage.Blocker
import RadioChannel.Blockage.Model
import RadioChannel.Cluster.Directions
import RadioChannel.Cluster.LargeScale
import RadioChannel.Cluster.Profile
import RadioChannel.Cluster.Rays
import RadioChannel.Cluster.Tensor
import RadioChannel.Fault
import RadioChannel.Generator
import RadioChannel.Geometry.Bearing
import RadioChannel.Geometry.ErrorFunction
import RadioChannel.Geometry.Link
import RadioChannel.Geometry.Vec3
import RadioChannel.Geometry.Wrap
import RadioChannel.Linear.Cholesky
import RadioChannel.Linear.LeastSquares
import RadioChannel.Linear.Matrix
import RadioChannel.Node
import RadioChannel.Pairing
import RadioChannel.Phasor
import RadioChannel.Propagation.Condition
import RadioChannel.Propagation.Pathloss
import RadioChannel.Random.Keystream
import RadioChannel.Random.Shuffle
import RadioChannel.Random.Source
import RadioChannel.Realization.Basic
import RadioChannel.Realization.Draw
import RadioChannel.Scalar
import RadioChannel.Scalar.Binary64
import RadioChannel.Scenario.Basic
import RadioChannel.Scenario.Correlation
import RadioChannel.Scenario.Table
import RadioChannel.Scene
import RadioChannel.Settings
import RadioChannel.Slab
import RadioChannel.Spectrum.Evaluator
import RadioChannel.Spectrum.Grid
import RadioChannel.Spectrum.Projection
import RadioChannel.Time
import RadioChannel.Scalar.Numeral
import RadioChannel.Proofs.Actions
import RadioChannel.Proofs.Drawing
import RadioChannel.Proofs.Keys
import RadioChannel.Proofs.Reuse
import RadioChannel.Proofs.Evaluations
import RadioChannel.Proofs.Transparency
import RadioChannel.Proofs.Profiles
import RadioChannel.Proofs.Shapes
import RadioChannel.Proofs.Breaches
import RadioChannel.Proofs.ExactPhasors
import RadioChannel.Proofs.Factorization
import RadioChannel.Proofs.Pivots
import RadioChannel.Proofs.Precoding
import RadioChannel.Proofs.Solutions
import RadioChannel.Proofs.Coefficients
import RadioChannel.Proofs.Combining
import RadioChannel.Proofs.Comparisons
import RadioChannel.Proofs.Conflicts
import RadioChannel.Proofs.Desks
import RadioChannel.Proofs.Bundles
import RadioChannel.Proofs.Idling
import RadioChannel.Proofs.Slabs
import RadioChannel.Proofs.Scenes
import RadioChannel.Proofs.Selections
import RadioChannel.Proofs.Failures
import RadioChannel.Proofs.FourierSums
import RadioChannel.Proofs.BeamChannels
import RadioChannel.Proofs.Searches
import RadioChannel.Proofs.Stations
import RadioChannel.Proofs.Mixing
import RadioChannel.Proofs.Reciprocity
import RadioChannel.Proofs.FlatGains
import RadioChannel.Proofs.StrongestBeams
import RadioChannel.Proofs.Agreement
import RadioChannel.Proofs.Progress
import RadioChannel.Proofs.Overrides
import RadioChannel.Proofs.Misfits
import RadioChannel.Proofs.MatchedChannels
import RadioChannel.Proofs.MatchedDesks
import RadioChannel.Proofs.Frames
import RadioChannel.Proofs.MatchedScenes
import RadioChannel.Proofs.Registry
import RadioChannel.Proofs.SteeredBeams
import RadioChannel.Proofs.Zeros
import RadioChannel.Proofs.CombinerShapes
import RadioChannel.Proofs.InstalledCombiners
import RadioChannel.Proofs.CombinedSpectra
import RadioChannel.Proofs.SubClusters
import RadioChannel.Proofs.KeptAnswers
import RadioChannel.Proofs.Screens
import RadioChannel.Proofs.KeptSearches
import RadioChannel.Proofs.BeamIds
import RadioChannel.Proofs.Losses
import RadioChannel.Proofs.RaySums
import RadioChannel.Proofs.KeptTaps
import RadioChannel.Proofs.Shadows
import RadioChannel.Proofs.Correlations
import RadioChannel.Proofs.BeamBases
import RadioChannel.Proofs.DirectBeams
import RadioChannel.Proofs.CombinedGains
import RadioChannel.Proofs.PairConditions
import RadioChannel.Proofs.ArrayHistories
import RadioChannel.Proofs.AnchoredClusters
import RadioChannel.Proofs.Wrapping
import RadioChannel.Proofs.AngularWindows
import RadioChannel.Proofs.WrappedDirections
import RadioChannel.Proofs.Drifts
import RadioChannel.Proofs.Shuffles
import RadioChannel.Proofs.Couplings
import RadioChannel.Proofs.Answers
import RadioChannel.Proofs.ServedBundles
import RadioChannel.Proofs.BundleLaws
import RadioChannel.Proofs.RuralBundles
