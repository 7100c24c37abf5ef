import Monomorph.Binary.Record
import Monomorph.Binary.Value
import Monomorph.Board
import Monomorph.CallIndex
import Monomorph.Cli.Arguments
import Monomorph.Cli.Command
import Monomorph.Cli.Program
import Monomorph.Cli.Session
import Monomorph.Cli.Shell
import Monomorph.Cli.Value
import Monomorph.Decimal.Double
import Monomorph.Digest
import Monomorph.Disk
import Monomorph.Draft
import Monomorph.Emit
import Monomorph.FileTree
import Monomorph.Host
import Monomorph.Instruction
import Monomorph.Machine
import Monomorph.Main
import Monomorph.Manifest
import Monomorph.Module.Basic
import Monomorph.Module.Check
import Monomorph.Module.Codec
import Monomorph.Module.Definition
import Monomorph.Module.File
import Monomorph.Module.Wire
import Monomorph.Outline
import Monomorph.Path
import Monomorph.Pool
import Monomorph.Pool.Indexed
import Monomorph.PoolCache
import Monomorph.Proofs.Accepted
import Monomorph.Proofs.Cached
import Monomorph.Proofs.Calls
import Monomorph.Proofs.Completeness
import Monomorph.Proofs.Decoded
import Monomorph.Proofs.DepthLimit
import Monomorph.Proofs.Emission
import Monomorph.Proofs.Engine
import Monomorph.Proofs.Harvest
import Monomorph.Proofs.Key
import Monomorph.Proofs.Lockstep
import Monomorph.Proofs.ModuleOrder
import Monomorph.Proofs.Operations
import Monomorph.Proofs.Origin
import Monomorph.Proofs.Places
import Monomorph.Proofs.Pooled
import Monomorph.Proofs.Relabel
import Monomorph.Proofs.Rendering
import Monomorph.Proofs.RoundTrip
import Monomorph.Proofs.Soundness
import Monomorph.Proofs.Substitution
import Monomorph.Proofs.Transparency
import Monomorph.Proofs.Walk
import Monomorph.Proofs.Width
import Monomorph.Proofs.Written
import Monomorph.Registry
import Monomorph.Report
import Monomorph.Resolve.Bindings
import Monomorph.Resolve.Calls
import Monomorph.Resolve.Engine
import Monomorph.Resolve.Walk
import Monomorph.Run.Basic
import Monomorph.Run.Monitor
import Monomorph.Run.Stages
import Monomorph.Run.Crew
import Monomorph.Sample
import Monomorph.Selection
import Monomorph.Settings
import Monomorph.Stage
import Monomorph.Text.Basic
import Monomorph.Text.Canonical
import Monomorph.Text.CaseFold
import Monomorph.Text.CellWidth
import Monomorph.Text.Decomposition
import Monomorph.Text.Grapheme
import Monomorph.Text.CodeTable
import Monomorph.Text.Quoted
import Monomorph.Text.Words
import Monomorph.Toml.Basic
import Monomorph.Toml.Document
import Monomorph.Toml.Literal
import Monomorph.Toml.Reader
import Monomorph.Toml.Record
import Monomorph.Trace.Event
import Monomorph.Trace.Instant
import Monomorph.Trace.Tracer
import Monomorph.TypeRef.Basic
import Monomorph.TypeRef.Instantiate
import Monomorph.TypeRef.Wire
import Monomorph.Version
import Monomorph.Proofs.Nesting
import Monomorph.Proofs.Refusal
import Monomorph.Proofs.Links
import Monomorph.Proofs.Guarded
import Monomorph.Proofs.Safety
import Monomorph.Proofs.Untouched
import Monomorph.Proofs.DryRun
import Monomorph.Proofs.Stack
import Monomorph.Proofs.Memory
import Monomorph.Proofs.Triples
import Monomorph.Proofs.Turns
import Monomorph.Proofs.Workers
import Monomorph.Proofs.Findings
import Monomorph.Proofs.Spans
import Monomorph.Proofs.Traced
import Monomorph.Proofs.Labels
import Monomorph.Proofs.Progress
import Monomorph.Proofs.Seeds
import Monomorph.Proofs.Balance
import Monomorph.Proofs.Replacement
import Monomorph.Proofs.Inheritance
import Monomorph.Proofs.Composition
import Monomorph.Proofs.Faithful
import Monomorph.Proofs.Signature
import Monomorph.Proofs.Lookup
import Monomorph.Proofs.Scan
import Monomorph.Proofs.FlatHarvest
import Monomorph.Proofs.EntryMethod
import Monomorph.Proofs.Truncation
import Monomorph.Proofs.Agreement
import Monomorph.Proofs.CallSite
import Monomorph.Proofs.Pools
import Monomorph.Proofs.Tail
import Monomorph.Proofs.CleanPath
import Monomorph.Proofs.Selected
