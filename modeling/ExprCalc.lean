import ExprCalc.Calculator
import ExprCalc.CommandLine.Run
import ExprCalc.Main
import ExprCalc.Settings
import ExprCalc.Proofs.Outcome
import ExprCalc.Proofs.Tree
import ExprCalc.Proofs.Operands
import ExprCalc.Proofs.Conversion
import ExprCalc.Proofs.Formula
import ExprCalc.Proofs.Convention
import ExprCalc.Proofs.Agreement
import ExprCalc.Proofs.BitLimit
import ExprCalc.Proofs.Magnitude
import ExprCalc.Proofs.Failure
import ExprCalc.Proofs.Refusal
import ExprCalc.Proofs.Acceptance
import ExprCalc.Proofs.ExactScan
import ExprCalc.Proofs.Arrangement
import ExprCalc.Proofs.Validation
import ExprCalc.Proofs.TextFault
import ExprCalc.Proofs.EntryPoints
import ExprCalc.Proofs.Respelling
import ExprCalc.Proofs.Unlimited
import ExprCalc.Proofs.Reentry
import ExprCalc.Proofs.Delivery
import ExprCalc.Proofs.Transcript
import ExprCalc.Proofs.Truncation
import ExprCalc.Proofs.JsonText
import ExprCalc.Proofs.JsonDecode
import ExprCalc.Proofs.JsonReading
import ExprCalc.Proofs.LeftOut
import ExprCalc.Proofs.Gaps
import ExprCalc.Proofs.ReportText
import ExprCalc.Proofs.Grouping
import ExprCalc.Proofs.Working
import ExprCalc.Proofs.Search
import ExprCalc.Proofs.Selection
import ExprCalc.Proofs.Offence
import ExprCalc.Proofs.Splitting
import ExprCalc.Proofs.Places
import ExprCalc.Proofs.Loading
import ExprCalc.Proofs.LogLine
import ExprCalc.Proofs.Unlogged
import ExprCalc.Proofs.Waiting
