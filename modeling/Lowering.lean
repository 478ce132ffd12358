import Lowering.Bridge
import Lowering.CallSite
import Lowering.Cli.Explain
import Lowering.Cli.Line
import Lowering.Cli.Listing
import Lowering.Cli.Run
import Lowering.Cli.Session
import Lowering.Cli.Usage
import Lowering.Codec.Config
import Lowering.Codec.Module
import Lowering.Codec.Tree
import Lowering.Codec.Types
import Lowering.Config
import Lowering.Diagnostic
import Lowering.Diagnostic.Report
import Lowering.Dict
import Lowering.Disk
import Lowering.Eval.Expr
import Lowering.Eval.Machine
import Lowering.Eval.Stmt
import Lowering.Eval.Value
import Lowering.Hoist
import Lowering.Json
import Lowering.Json.Decode
import Lowering.Json.Reader
import Lowering.Json.Writer
import Lowering.LowerError
import Lowering.Main
import Lowering.Module
import Lowering.Names
import Lowering.Override
import Lowering.Path
import Lowering.Source
import Lowering.Span
import Lowering.TargetType
import Lowering.Text.Capital
import Lowering.Text.Quoted
import Lowering.Text.Style
import Lowering.Text.Visible
import Lowering.Toml
import Lowering.Toml.DateTime
import Lowering.Toml.Decimal
import Lowering.Toml.Quoted
import Lowering.Toml.Reader
import Lowering.Tree.Declared
import Lowering.Tree.Expr
import Lowering.Tree.Normalize
import Lowering.Tree.Stmt
import Lowering.Tree.Suspension
import Lowering.Ty
import Lowering.Word
import Lowering.Proofs.Eval.Closed
import Lowering.Proofs.Eval.Agree
import Lowering.Proofs.Eval.Budget
import Lowering.Proofs.Eval.Clock
import Lowering.Proofs.Eval.Ends
import Lowering.Proofs.Tree.Sites
import Lowering.Proofs.Eval.Parts
import Lowering.Proofs.Tree.Normalize
import Lowering.Proofs.Hoist.Lowers
import Lowering.Proofs.Hoist.Outcomes
import Lowering.Proofs.Hoist.Runs
import Lowering.Proofs.Hoist.Simulation
import Lowering.Proofs.Hoist.Cases
import Lowering.Proofs.Names
import Lowering.Proofs.Tree.NormalSites
import Lowering.Proofs.Hoist.Scope
import Lowering.Proofs.Hoist.Plain
import Lowering.Proofs.Hoist.Translation
import Lowering.Proofs.Hoist.Meaning
import Lowering.Proofs.Tree.Suspensions
import Lowering.Proofs.Hoist.Refusals
import Lowering.Proofs.Bridge.Adaptation
import Lowering.Proofs.Bridge.Forwarding
import Lowering.Proofs.Bridge.Transparent
import Lowering.Proofs.Eval.Lockstep
import Lowering.Proofs.CallSite.Adapted
import Lowering.Proofs.CallSite.Meaning
import Lowering.Proofs.Tree.Declared
import Lowering.Proofs.Tree.Exprs
import Lowering.Proofs.CallSite.Rewriting
import Lowering.Proofs.Hoist.Supply
import Lowering.Proofs.Hoist.Declarations
import Lowering.Proofs.Module.Lowered
import Lowering.Proofs.Module.Bridges
import Lowering.Proofs.Module.Names
import Lowering.Proofs.Module.CallSites
import Lowering.Proofs.Hoist.Independence
import Lowering.Proofs.Module.Verdicts
import Lowering.Proofs.Hoist.WellFormed
import Lowering.Proofs.Tree.WellFormed
import Lowering.Proofs.Json.Decodes
import Lowering.Proofs.Codec.Module
import Lowering.Proofs.Hoist.Escapes
import Lowering.Proofs.Hoist.Derivation
import Lowering.Proofs.Tree.Landmarks
import Lowering.Proofs.Hoist.Landmarks
import Lowering.Proofs.Hoist.Splits
import Lowering.Proofs.Tree.Normal
import Lowering.Proofs.Hoist.Settled
import Lowering.Proofs.Tree.Rename
import Lowering.Proofs.Hoist.Renaming
import Lowering.Proofs.Eval.Moments
import Lowering.Proofs.Eval.StepLimit
import Lowering.Proofs.Eval.Normalized
import Lowering.Proofs.Tree.AllExprs
import Lowering.Proofs.CallSite.Matching
import Lowering.Proofs.Types.Flat
import Lowering.Proofs.Override.Union
import Lowering.Proofs.Types.Composition
import Lowering.Proofs.Types.Translation
import Lowering.Proofs.Source.Lines
import Lowering.Proofs.Source.LineTable
import Lowering.Proofs.Source.Snippet
import Lowering.Proofs.Names.Least
import Lowering.Proofs.Eval.CutShort
import Lowering.Proofs.Hoist.Placement
import Lowering.Proofs.Module.Captures
