import DumpSplit.Cause
import DumpSplit.CommandLine.Arguments
import DumpSplit.CommandLine.Program
import DumpSplit.Config
import DumpSplit.Deal
import DumpSplit.Disk.Arrange
import DumpSplit.Disk.Basic
import DumpSplit.Disk.Files
import DumpSplit.Disk.Resolve
import DumpSplit.Dump
import DumpSplit.DumpSet
import DumpSplit.Event
import DumpSplit.Failure
import DumpSplit.Format
import DumpSplit.Job
import DumpSplit.Json.Basic
import DumpSplit.Json.Pieces
import DumpSplit.Json.Pretty
import DumpSplit.Json.Reader
import DumpSplit.KeySets
import DumpSplit.Main
import DumpSplit.Path
import DumpSplit.Proofs.Articles
import DumpSplit.Proofs.Conservation
import DumpSplit.Proofs.Consistency
import DumpSplit.Proofs.Disks
import DumpSplit.Proofs.Framing
import DumpSplit.Proofs.Jobs
import DumpSplit.Proofs.Keys
import DumpSplit.Proofs.Lines
import DumpSplit.Proofs.Lists
import DumpSplit.Proofs.Names
import DumpSplit.Proofs.Places
import DumpSplit.Proofs.Routing
import DumpSplit.Proofs.Rules
import DumpSplit.Proofs.Separation
import DumpSplit.Proofs.Shares
import DumpSplit.Proofs.Stages
import DumpSplit.Record
import DumpSplit.Rule
import DumpSplit.Shard
import DumpSplit.Split
import DumpSplit.Summary
import DumpSplit.Table
import DumpSplit.Text.Blank
import DumpSplit.Text.Lines
import DumpSplit.Text.Lossy
import DumpSplit.Text.Quoted
import DumpSplit.Text.Shapeless
import DumpSplit.Yaml.Block
import DumpSplit.Yaml.Flow
import DumpSplit.Yaml.Grid
import DumpSplit.Yaml.Node
import DumpSplit.Yaml.Property
import DumpSplit.Yaml.Token
import DumpSplit.Yaml.Tokens
import DumpSplit.Proofs.Excerpts
import DumpSplit.Proofs.Failures
import DumpSplit.Proofs.Sources
import DumpSplit.Proofs.Reruns
import DumpSplit.Proofs.Warnings
import DumpSplit.Proofs.Holders
import DumpSplit.Proofs.Refusals
import DumpSplit.Proofs.Orders
import DumpSplit.Proofs.Summaries
import DumpSplit.Proofs.Logs
import DumpSplit.Proofs.Endings
import DumpSplit.Proofs.Verbosity
import DumpSplit.Proofs.Grammar
import DumpSplit.Proofs.Rescans
import DumpSplit.Proofs.Acceptance
import DumpSplit.Proofs.Fields
import DumpSplit.Proofs.Interior
import DumpSplit.Proofs.Columns
import DumpSplit.Proofs.Resplits
import DumpSplit.Proofs.Marks
import DumpSplit.Proofs.Outputs
import DumpSplit.Proofs.Readings
import DumpSplit.Proofs.Readback
import DumpSplit.Proofs.Cuts
import DumpSplit.Proofs.Rows
import DumpSplit.Proofs.Pages
import DumpSplit.Proofs.Overlays
import DumpSplit.Proofs.Copies
import DumpSplit.Proofs.Deals
import DumpSplit.Proofs.Pieces
