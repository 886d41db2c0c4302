import CheckedPointers.Arena.Basic
import CheckedPointers.Arena.Build
import CheckedPointers.Arena.Cast
import CheckedPointers.Arena.Json
import CheckedPointers.Arena.Solution
import CheckedPointers.Arena.Unify
import CheckedPointers.Cli.Args
import CheckedPointers.Cli.Files
import CheckedPointers.Cli.Run
import CheckedPointers.Constraint
import CheckedPointers.Constraint.Store
import CheckedPointers.Constraint.Views
import CheckedPointers.Data.KeyMap
import CheckedPointers.Data.Sorted
import CheckedPointers.Diagnostic
import CheckedPointers.Diagnostic.Paint
import CheckedPointers.Diagnostic.Report
import CheckedPointers.Diagnostic.Source
import CheckedPointers.Error
import CheckedPointers.Fact.Basic
import CheckedPointers.Fact.Cast
import CheckedPointers.Fact.Json
import CheckedPointers.Json.Basic
import CheckedPointers.Json.Decode
import CheckedPointers.Json.Parse
import CheckedPointers.Json.Print
import CheckedPointers.Location
import CheckedPointers.Main
import CheckedPointers.Options
import CheckedPointers.Program.Basic
import CheckedPointers.Program.Dump
import CheckedPointers.Program.Facts
import CheckedPointers.Program.Link
import CheckedPointers.Program.Lookup
import CheckedPointers.Program.Reconcile
import CheckedPointers.Proofs.ArenaRefs
import CheckedPointers.Proofs.ArenaSteps
import CheckedPointers.Proofs.Ascending
import CheckedPointers.Proofs.CastSafety
import CheckedPointers.Proofs.Clusters
import CheckedPointers.Proofs.DeclarationSides
import CheckedPointers.Proofs.Env
import CheckedPointers.Proofs.EntryShapes
import CheckedPointers.Proofs.WildTies
import CheckedPointers.Proofs.KeyRecords
import CheckedPointers.Proofs.CacheForced
import CheckedPointers.Proofs.ForcedDeclarations
import CheckedPointers.Proofs.TokenSpans
import CheckedPointers.Proofs.LineOffsets
import CheckedPointers.Proofs.FileCounts
import CheckedPointers.Proofs.EquateSymmetry
import CheckedPointers.Proofs.ExternPolicy
import CheckedPointers.Proofs.PolicyReasons
import CheckedPointers.Proofs.FunctionLinking
import CheckedPointers.Proofs.HighestAlternative
import CheckedPointers.Proofs.FreshSlots
import CheckedPointers.Proofs.EntryForms
import CheckedPointers.Proofs.AddressRoundTrip
import CheckedPointers.Proofs.LeastFixpoint
import CheckedPointers.Proofs.Linking
import CheckedPointers.Proofs.PassCount
import CheckedPointers.Proofs.ProgramSteps
import CheckedPointers.Proofs.ReconcileFixpoint
import CheckedPointers.Proofs.ReconcileRound
import CheckedPointers.Proofs.ReconcileSteps
import CheckedPointers.Proofs.Refs
import CheckedPointers.Proofs.RoundBound
import CheckedPointers.Proofs.SessionBounds
import CheckedPointers.Proofs.SessionInvariants
import CheckedPointers.Proofs.SessionSteps
import CheckedPointers.Proofs.Sorted
import CheckedPointers.Proofs.Speculation
import CheckedPointers.Proofs.StoreIndex
import CheckedPointers.Proofs.StoreSteps
import CheckedPointers.Proofs.Tables
import CheckedPointers.Proofs.UnifyTable
import CheckedPointers.Proofs.UnionFind
import CheckedPointers.Proofs.WildChains
import CheckedPointers.Proofs.WildGroups
import CheckedPointers.Proofs.WildReport
import CheckedPointers.Qualifier
import CheckedPointers.Session
import CheckedPointers.Stats
import CheckedPointers.Text.Alphanumeric
import CheckedPointers.Text.Blank
import CheckedPointers.Text.LineIndex
import CheckedPointers.Text.Ranges
import CheckedPointers.Text.Width
import CheckedPointers.Toml
import CheckedPointers.UnifyTable
import CheckedPointers.UnionFind
import CheckedPointers.WildGroups
import CheckedPointers.WildGroups.Json
import CheckedPointers.Proofs.AddressRoundTrip
