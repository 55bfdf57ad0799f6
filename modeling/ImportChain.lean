import ImportChain.Files.Memo
import ImportChain.Main
import ImportChain.Proofs.Outcome
import ImportChain.Proofs.Path.Normal
import ImportChain.Proofs.Request.RoundTrip
import ImportChain.Proofs.Rule.Meaning
import ImportChain.Proofs.Rule.Activity
import ImportChain.Proofs.Loader.Resolution
import ImportChain.Proofs.Loader.Regular
import ImportChain.Proofs.Chain.Buckets
import ImportChain.Proofs.Chain.Assembly
import ImportChain.Proofs.Chain.Failure
import ImportChain.Proofs.Chain.Compound
import ImportChain.Proofs.Cache.Handles
import ImportChain.Proofs.Cache.Identity
import ImportChain.Proofs.Factory.Registry
import ImportChain.Proofs.Factory.Memory
import ImportChain.Proofs.Schedule.Process
import ImportChain.Proofs.Schedule.Resolution
import ImportChain.Proofs.Rule.Identity
import ImportChain.Proofs.Chain.Suppression
import ImportChain.Proofs.Factory.Untapped
import ImportChain.Proofs.Factory.Identifier
import ImportChain.Proofs.Cache.Key
import ImportChain.Proofs.Factory.Instances
import ImportChain.Proofs.Rule.Settings
import ImportChain.Proofs.Json.RoundTrip
import ImportChain.Proofs.Files.Memo
import ImportChain.Proofs.Hook.Snapshot
import ImportChain.Proofs.Config.RoundTrip
import ImportChain.Proofs.Chain.Shape
import ImportChain.Proofs.Hook.Keys
import ImportChain.Proofs.Request.Reading
import ImportChain.Proofs.Request.MatchResource
import ImportChain.Proofs.Cache.Sweeps
import ImportChain.Proofs.Loader.Search
import ImportChain.Proofs.Path.Joining
import ImportChain.Proofs.Rule.Defects
import ImportChain.Proofs.Rule.Prepending
import ImportChain.Proofs.Factory.Ignored
import ImportChain.Proofs.Files.Manifest
import ImportChain.Proofs.Files.Candidates
import ImportChain.Proofs.Files.Location
import ImportChain.Proofs.Files.Packages
import ImportChain.Proofs.Files.Aliases
import ImportChain.Proofs.Files.Recall
import ImportChain.Proofs.Files.LeftOut
import ImportChain.Proofs.Files.Exports
import ImportChain.Proofs.Files.Query
import ImportChain.Proofs.Cache.Attempts
import ImportChain.Proofs.Factory.Observers
