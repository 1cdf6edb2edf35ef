import ComparisonRules.Main
import ComparisonRules.Number.Reading
import ComparisonRules.Workspace
import ComparisonRules.Proofs.Outcome
import ComparisonRules.Proofs.Rule.Grammar
import ComparisonRules.Proofs.Rule.Reading
import ComparisonRules.Proofs.Number.Reading
import ComparisonRules.Proofs.Token.Shape
import ComparisonRules.Proofs.Token.Cut
import ComparisonRules.Proofs.Number.Digits
import ComparisonRules.Proofs.Number.Layout
import ComparisonRules.Proofs.Rule.Text
import ComparisonRules.Proofs.Json.Document
import ComparisonRules.Proofs.Json.Shape
import ComparisonRules.Proofs.Node.Decode
import ComparisonRules.Proofs.Service.Storage
import ComparisonRules.Proofs.Rule.Evaluation
import ComparisonRules.Proofs.Rule.Combined
import ComparisonRules.Proofs.Token.Moved
import ComparisonRules.Proofs.Rule.Grouped
import ComparisonRules.Proofs.Token.Marks
import ComparisonRules.Proofs.Rule.Order
import ComparisonRules.Proofs.Service.StoredText
import ComparisonRules.Proofs.Node.Forms
import ComparisonRules.Proofs.Service.Forms
import ComparisonRules.Proofs.Token.Layout
import ComparisonRules.Proofs.Rule.Layout
import ComparisonRules.Proofs.Record
import ComparisonRules.Proofs.Service.Json
import ComparisonRules.Proofs.CommandLine.Run
import ComparisonRules.Proofs.Rule.Fields
import ComparisonRules.Proofs.Rule.Folded
import ComparisonRules.Proofs.Node.Faults
import ComparisonRules.Proofs.Rule.Visits
import ComparisonRules.Proofs.Rule.Steps
import ComparisonRules.Proofs.Rule.Unfinished
import ComparisonRules.Proofs.Rule.Refusal
import ComparisonRules.Proofs.Token.Refusal
import ComparisonRules.Proofs.Rule.ErrorSpan
import ComparisonRules.Proofs.Rule.Dependence
import ComparisonRules.Proofs.Text.Order
import ComparisonRules.Proofs.Rule.Comparators
import ComparisonRules.Proofs.Record.LastWrite
import ComparisonRules.Proofs.Rule.Mirrored
import ComparisonRules.Proofs.Rule.Cursor
import ComparisonRules.Proofs.Rule.Bounds
