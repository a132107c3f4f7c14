import ExamPaper.Command.Arguments
import ExamPaper.Command.Report
import ExamPaper.Command.Run
import ExamPaper.Configuration.Environment
import ExamPaper.Configuration.Error
import ExamPaper.Configuration.Reading
import ExamPaper.Date
import ExamPaper.Decimal.Dyadic
import ExamPaper.Decimal.Reading
import ExamPaper.Decimal.Shortest
import ExamPaper.Decimal.Text
import ExamPaper.Document.Block
import ExamPaper.Document.Cursor
import ExamPaper.Document.Node
import ExamPaper.Document.Page
import ExamPaper.Document.Plain
import ExamPaper.Document.Quoted
import ExamPaper.Document.Reading
import ExamPaper.Document.Scalar
import ExamPaper.Document.Shape
import ExamPaper.Document.Style
import ExamPaper.Document.Tag
import ExamPaper.Document.Token
import ExamPaper.Document.Value
import ExamPaper.Document.Written
import ExamPaper.Exam.Error
import ExamPaper.Exam.Index
import ExamPaper.Exam.Outputs
import ExamPaper.Exam.Rendering
import ExamPaper.Exam.Settings
import ExamPaper.Exam.Starter
import ExamPaper.File.Disk
import ExamPaper.File.Path
import ExamPaper.Limits
import ExamPaper.Macro.Definition
import ExamPaper.Macro.Table
import ExamPaper.Main
import ExamPaper.Names
import ExamPaper.Ordered
import ExamPaper.Proofs.Command.Check
import ExamPaper.Proofs.Exam.Accepted
import ExamPaper.Proofs.Exam.Entering
import ExamPaper.Proofs.Exam.FreeEdition
import ExamPaper.Proofs.Exam.Index
import ExamPaper.Proofs.Exam.Outputs
import ExamPaper.Proofs.Exam.Placeholder
import ExamPaper.Proofs.Exam.Rendering
import ExamPaper.Proofs.File.Disk
import ExamPaper.Proofs.File.Path
import ExamPaper.Proofs.Float.Order
import ExamPaper.Proofs.Macro.Reaching
import ExamPaper.Proofs.Macro.Key
import ExamPaper.Proofs.Macro.Table
import ExamPaper.Proofs.Question.Record
import ExamPaper.Proofs.Quota.Calls
import ExamPaper.Proofs.Quota.Correct
import ExamPaper.Proofs.Quota.Denotation
import ExamPaper.Proofs.Quota.Growth
import ExamPaper.Proofs.Quota.LargerBank
import ExamPaper.Proofs.Quota.Leaves
import ExamPaper.Proofs.Quota.Parts
import ExamPaper.Proofs.Quota.RangeReading
import ExamPaper.Proofs.Quota.RangeText
import ExamPaper.Proofs.Quota.Ranges
import ExamPaper.Proofs.Quota.Serving
import ExamPaper.Proofs.Quota.Stock
import ExamPaper.Proofs.Quota.Sums
import ExamPaper.Proofs.Quota.Totals
import ExamPaper.Proofs.Quota.Tree
import ExamPaper.Proofs.Run.Editions
import ExamPaper.Proofs.Run.Generation
import ExamPaper.Proofs.Selection.Attempt
import ExamPaper.Proofs.Selection.Best
import ExamPaper.Proofs.Selection.Distinct
import ExamPaper.Proofs.Selection.Drawing
import ExamPaper.Proofs.Selection.Sample
import ExamPaper.Proofs.Selection.Search
import ExamPaper.Proofs.Tag.Meaning
import ExamPaper.Proofs.Tag.Writing
import ExamPaper.Proofs.Template.Bytes
import ExamPaper.Proofs.Template.Calculation
import ExamPaper.Proofs.Template.Channels
import ExamPaper.Proofs.Template.Checked
import ExamPaper.Proofs.Template.CheckedExpansion
import ExamPaper.Proofs.Template.Commas
import ExamPaper.Proofs.Template.Cutting
import ExamPaper.Proofs.Template.Declaring
import ExamPaper.Proofs.Template.Escaping
import ExamPaper.Proofs.Template.Failing
import ExamPaper.Proofs.Template.Fault
import ExamPaper.Proofs.Template.Inert
import ExamPaper.Proofs.Template.Leading
import ExamPaper.Proofs.Template.Locating
import ExamPaper.Proofs.Template.Offsets
import ExamPaper.Proofs.Template.Plain
import ExamPaper.Proofs.Template.RandomInteger
import ExamPaper.Proofs.Template.Reference
import ExamPaper.Proofs.Template.Restart
import ExamPaper.Proofs.Template.Resuming
import ExamPaper.Proofs.Template.Scanning
import ExamPaper.Proofs.Template.StepLimit
import ExamPaper.Proofs.Template.Stored
import ExamPaper.Proofs.Template.Tree
import ExamPaper.Proofs.Text.Blank
import ExamPaper.Proofs.Text.Integer
import ExamPaper.Proofs.Text.Pieces
import ExamPaper.Proofs.Text.Replacing
import ExamPaper.Question.Bank
import ExamPaper.Question.Basic
import ExamPaper.Question.Error
import ExamPaper.Question.Record
import ExamPaper.Quota.Build
import ExamPaper.Quota.Error
import ExamPaper.Quota.Growth
import ExamPaper.Quota.Range
import ExamPaper.Quota.Spec
import ExamPaper.Quota.Tree
import ExamPaper.Random.Draws
import ExamPaper.Random.Generator
import ExamPaper.Random.Words
import ExamPaper.Run.Error
import ExamPaper.Run.Generation
import ExamPaper.Run.Preparation
import ExamPaper.Selection.Sample
import ExamPaper.Selection.Search
import ExamPaper.Tag.Query
import ExamPaper.Template.Arguments
import ExamPaper.Template.Calculator
import ExamPaper.Template.Engine
import ExamPaper.Template.Error
import ExamPaper.Template.Operation
import ExamPaper.Template.Scanner
import ExamPaper.Template.State
import ExamPaper.Text.Alphanumeric
import ExamPaper.Text.Blank
import ExamPaper.Text.Digit
import ExamPaper.Text.Extending
import ExamPaper.Text.Graphic
import ExamPaper.Text.Grid
import ExamPaper.Text.Integer
import ExamPaper.Text.Pieces
import ExamPaper.Text.Ranges
import ExamPaper.Toml.Quoted
import ExamPaper.Toml.Reading
import ExamPaper.Toml.Scalar
import ExamPaper.Toml.Table
import ExamPaper.Toml.Value
