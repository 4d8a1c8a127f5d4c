import LoopFree.Main
import LoopFree.Token.Lookahead
import LoopFree.Syntax.OnDemand
import LoopFree.Watch
import LoopFree.Proofs.Syntax.RoundTrip
import LoopFree.Proofs.Run.TypeSafety
import LoopFree.Proofs.Token.Lookahead
import LoopFree.Proofs.Token.WellFormed
import LoopFree.Proofs.Token.Placement
import LoopFree.Proofs.Token.Longest
import LoopFree.Proofs.Eval.Kinds
import LoopFree.Proofs.Eval.Checks
import LoopFree.Proofs.Eval.Integers
import LoopFree.Proofs.Syntax.Prompt
import LoopFree.Proofs.Syntax.PromptStmt
import LoopFree.Proofs.Syntax.FirstError
import LoopFree.Proofs.Run.Truncation
import LoopFree.Proofs.Run.Sequence
import LoopFree.Proofs.Run.Variables
import LoopFree.Proofs.Run.PrintedValues
import LoopFree.Proofs.Token.Laziness
import LoopFree.Proofs.Token.Resumption
import LoopFree.Proofs.Syntax.PlusForMinus
import LoopFree.Proofs.Syntax.Concatenation
import LoopFree.Proofs.Token.Tables
import LoopFree.Proofs.Syntax.OnDemand
import LoopFree.Proofs.Syntax.OnDemandStmt
import LoopFree.Proofs.Syntax.Numbers
import LoopFree.Proofs.Run.Listing
import LoopFree.Proofs.Files.Changes
import LoopFree.Proofs.CommandLine.Arguments
import LoopFree.Proofs.CommandLine.Report
