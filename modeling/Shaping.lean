import Shaping.FileTree
import Shaping.Main
import Shaping.Proofs.OpenTable.Entries
import Shaping.Proofs.OpenTable.Refinement
import Shaping.Proofs.OpenTable.Buried
import Shaping.Proofs.OpenTable.Views
import Shaping.Proofs.OpenTable.ExactWrites
import Shaping.Proofs.Limiter.Course
import Shaping.Proofs.Limiter.TokenBucket
import Shaping.Proofs.Limiter.Refusal
import Shaping.Proofs.Limiter.Refill
import Shaping.Proofs.Limiter.Pacer
import Shaping.Proofs.Allocator.Bounds
import Shaping.Proofs.Allocator.Recovery
import Shaping.Proofs.Allocator.Shares
import Shaping.Proofs.Allocator.Division
import Shaping.Proofs.Allocator.Composition
import Shaping.Proofs.RateRing.Epochs
import Shaping.Proofs.RateRing.Estimate
import Shaping.Proofs.RateRing.Steady
import Shaping.Proofs.Control.Effects
import Shaping.Proofs.Control.Frames
import Shaping.Proofs.Control.Acceptance
import Shaping.Proofs.Control.Plans
import Shaping.Proofs.Control.PlansInForce
import Shaping.Proofs.Control.Steady
import Shaping.Proofs.Control.Registry
import Shaping.Proofs.Control.Refinement
import Shaping.Proofs.Control.Reading
import Shaping.Proofs.Control.Refused
import Shaping.Proofs.Shaper.EntityLimit
import Shaping.Proofs.Shaper.TierCaps
import Shaping.Proofs.Shaper.Adjustments
import Shaping.Proofs.Shaper.TierLimit
import Shaping.Proofs.Shaper.Account
import Shaping.Proofs.Shaper.Isolation
import Shaping.Proofs.Shaper.Drops
import Shaping.Proofs.Shaper.FailOpen
import Shaping.Proofs.Shaper.Departures
import Shaping.Proofs.Shaper.Exact
import Shaping.Proofs.Control.Configured
import Shaping.Proofs.Control.Listings
import Shaping.Proofs.Control.Checking
import Shaping.Proofs.Control.Exact
import Shaping.Proofs.Control.Repetition
import Shaping.Proofs.Control.Teardown
import Shaping.Proofs.Control.Resolution
import Shaping.Proofs.Shaper.Floors
import Shaping.Proofs.Shaper.Complete
import Shaping.Proofs.Simulation.Balance
import Shaping.Proofs.Simulation.Throughput
import Shaping.Proofs.Simulation.ExactTurns
import Shaping.Proofs.Simulation.Exact
import Shaping.Proofs.Config.Lines
import Shaping.Proofs.Config.Saved
import Shaping.Proofs.Control.Room
import Shaping.Proofs.Command.Edits
import Shaping.Proofs.Command.Loadable
import Shaping.Proofs.Binary64.Nearest
import Shaping.Proofs.Binary64.Arithmetic
import Shaping.Proofs.Rate.Reading
import Shaping.Proofs.Rate.Printed
import Shaping.Proofs.Stress.Frames
