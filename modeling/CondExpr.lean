import CondExpr.Compiler.Basic
import CondExpr.Compiler.OptionsYaml
import CondExpr.Json.Writer
import CondExpr.Stored.Text
import CondExpr.Proofs.Results
import CondExpr.Proofs.Namespace
import CondExpr.Proofs.Table
import CondExpr.Proofs.Layout
import CondExpr.Proofs.Rendered
import CondExpr.Proofs.Entries
import CondExpr.Proofs.Noninterference
import CondExpr.Proofs.Coverage
import CondExpr.Proofs.Readback
import CondExpr.Proofs.Separation
import CondExpr.Proofs.Fault
import CondExpr.Proofs.Narrowing
import CondExpr.Document.Writer
import CondExpr.Json.Number
import CondExpr.Proofs.Grammar
import CondExpr.Proofs.Legality
import CondExpr.Proofs.Rounding
import CondExpr.Proofs.Shortest
import CondExpr.Proofs.Numeral
import CondExpr.Proofs.Compact
import CondExpr.Proofs.DocumentText
import CondExpr.Proofs.Calendar
import CondExpr.Proofs.InstantText
import CondExpr.Proofs.Stored
import CondExpr.Proofs.StoredForm
import CondExpr.Proofs.Reread
import CondExpr.Proofs.StoredText
import CondExpr.Proofs.DocumentFault
import CondExpr.Proofs.Relocation
import CondExpr.Proofs.Nearest
import CondExpr.Proofs.EncodedNumber
import CondExpr.Proofs.ByteOrder
import CondExpr.Proofs.Timestamp
import CondExpr.Proofs.EncodedDate
import CondExpr.Proofs.Record
import CondExpr.Proofs.FilterForm
import CondExpr.Proofs.EncodedInteger
import CondExpr.Proofs.Scanner
import CondExpr.Proofs.CoverageCheck
import CondExpr.Proofs.Parentheses
