import GroupedArith.Code.Execution
import GroupedArith.Code.Instruction
import GroupedArith.Code.OfExpr
import GroupedArith.Command.Invocation
import GroupedArith.Command.Options
import GroupedArith.Command.Perform
import GroupedArith.Command.Transcript
import GroupedArith.Expr.Basic
import GroupedArith.Expr.Value
import GroupedArith.Failure
import GroupedArith.Inspect
import GroupedArith.Log
import GroupedArith.Main
import GroupedArith.Proofs.Acceptance
import GroupedArith.Proofs.Arguments
import GroupedArith.Proofs.Chronicle
import GroupedArith.Proofs.Compilation
import GroupedArith.Proofs.Composition
import GroupedArith.Proofs.Concatenation
import GroupedArith.Proofs.Continuation
import GroupedArith.Proofs.Decoding
import GroupedArith.Proofs.Delivery
import GroupedArith.Proofs.Exactness
import GroupedArith.Proofs.Forest
import GroupedArith.Proofs.Heights
import GroupedArith.Proofs.Layout
import GroupedArith.Proofs.Legibility
import GroupedArith.Proofs.Lines
import GroupedArith.Proofs.Measures
import GroupedArith.Proofs.Output
import GroupedArith.Proofs.Overflow
import GroupedArith.Proofs.Position
import GroupedArith.Proofs.Printout
import GroupedArith.Proofs.Recovery
import GroupedArith.Proofs.Refusal
import GroupedArith.Proofs.Relining
import GroupedArith.Proofs.Selection
import GroupedArith.Proofs.Spacing
import GroupedArith.Proofs.Stages
import GroupedArith.Proofs.Status
import GroupedArith.Reading.Awaiting
import GroupedArith.Reading.Parse
import GroupedArith.Reading.Step
import GroupedArith.Reading.SyntaxError
import GroupedArith.Report
import GroupedArith.Session
import GroupedArith.Source
import GroupedArith.Source.Lines
import GroupedArith.Text.Column
import GroupedArith.Text.Form
import GroupedArith.Text.Quoted
import GroupedArith.Text.Unprintable
import GroupedArith.Token
