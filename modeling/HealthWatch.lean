import HealthWatch.Backoff
import HealthWatch.Broadcast
import HealthWatch.CommandLine
import HealthWatch.Crew
import HealthWatch.Data
import HealthWatch.Data.Json
import HealthWatch.Data.Legible
import HealthWatch.Decimal.Shortest
import HealthWatch.Decode
import HealthWatch.Duration
import HealthWatch.Duration.Text
import HealthWatch.Endpoint
import HealthWatch.Endpoint.Authority
import HealthWatch.EndpointsFile
import HealthWatch.Feed
import HealthWatch.FileFeed
import HealthWatch.FileFeed.Scene
import HealthWatch.Files
import HealthWatch.HealthBook
import HealthWatch.Main
import HealthWatch.Metrics
import HealthWatch.Metrics.Exposition
import HealthWatch.Metrics.Family
import HealthWatch.Prober
import HealthWatch.Quota
import HealthWatch.Roster
import HealthWatch.Scheme
import HealthWatch.Settings
import HealthWatch.Settings.Loading
import HealthWatch.Settings.Problem
import HealthWatch.Settings.Reading
import HealthWatch.Settings.Writing
import HealthWatch.Shutdown
import HealthWatch.Simulation.Scenario
import HealthWatch.Simulation.Tasks
import HealthWatch.Simulation.World
import HealthWatch.Strategy
import HealthWatch.Strategy.AllCandidates
import HealthWatch.Strategy.BoundedPool
import HealthWatch.Strategy.Policy
import HealthWatch.Supervisor
import HealthWatch.Supervisor.Builder
import HealthWatch.Supervisor.Closing
import HealthWatch.Text.Blank
import HealthWatch.Text.Printable
import HealthWatch.Text.Quoted
import HealthWatch.Watch
import HealthWatch.Yaml.Cursor
import HealthWatch.Yaml.Legible
import HealthWatch.Yaml.Node
import HealthWatch.Yaml.Plain
import HealthWatch.Yaml.Scalar
import HealthWatch.Yaml.Token
import HealthWatch.Proofs.Run
import HealthWatch.Proofs.Supervisor.Passes
import HealthWatch.Proofs.Supervisor.Life
import HealthWatch.Proofs.Supervisor.Moments
import HealthWatch.Proofs.Supervisor.Publication
import HealthWatch.Proofs.Supervisor.Replay
import HealthWatch.Proofs.Strategy.Filling
import HealthWatch.Proofs.Strategy.Laws
import HealthWatch.Proofs.Strategy.Places
import HealthWatch.Proofs.Supervisor.Force
import HealthWatch.Proofs.Supervisor.Reconciliation
import HealthWatch.Proofs.Supervisor.Overlap
import HealthWatch.Proofs.Supervisor.LateReports
import HealthWatch.Proofs.Supervisor.Attendance
import HealthWatch.Proofs.Supervisor.Releases
import HealthWatch.Proofs.Supervisor.Household
import HealthWatch.Proofs.Supervisor.Ends
import HealthWatch.Proofs.Supervisor.CleanClose
import HealthWatch.Proofs.Supervisor.Candidates
import HealthWatch.Proofs.Supervisor.Hearing
import HealthWatch.Proofs.Supervisor.Chain
import HealthWatch.Proofs.FileFeed.Supply
import HealthWatch.Proofs.Endpoint.Grammar
import HealthWatch.Proofs.Endpoint.Identity
import HealthWatch.Proofs.Endpoint.Rereading
import HealthWatch.Proofs.Supervisor.Calls
import HealthWatch.Proofs.Supervisor.Provisos
import HealthWatch.Proofs.Supervisor.Vouching
import HealthWatch.Proofs.Supervisor.Readiness
import HealthWatch.Proofs.Supervisor.FirstPublication
import HealthWatch.Proofs.Supervisor.Reordering
import HealthWatch.Proofs.Settings.Refusals
import HealthWatch.Proofs.Settings.Intervals
import HealthWatch.Proofs.Duration.Rereading
import HealthWatch.Proofs.Settings.Rereading
import HealthWatch.Proofs.Settings.Rules
import HealthWatch.Proofs.Strategy.Newcomers
import HealthWatch.Proofs.Strategy.Succession
import HealthWatch.Proofs.Supervisor.Settling
import HealthWatch.Proofs.Feed.History
import HealthWatch.Proofs.HealthBook.Log
import HealthWatch.Proofs.Strategy.Exchange
import HealthWatch.Proofs.FileFeed.LastGood
import HealthWatch.Proofs.Backoff.Doubling
import HealthWatch.Proofs.Backoff.Signs
import HealthWatch.Proofs.Backoff.Layers
import HealthWatch.Proofs.Metrics.Latest
import HealthWatch.Proofs.Supervisor.Rosters
import HealthWatch.Proofs.Prober.Turns
import HealthWatch.Proofs.Prober.Loop
import HealthWatch.Proofs.Shutdown.Delivery
import HealthWatch.Proofs.Crew.Turns
import HealthWatch.Proofs.Crew.Accounting
