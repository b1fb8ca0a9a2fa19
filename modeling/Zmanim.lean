import Zmanim.Diagnosis
import Zmanim.Editor.Basic
import Zmanim.Editor.Edit
import Zmanim.Editor.Problem
import Zmanim.Editor.Snapshot
import Zmanim.Formula.Basic
import Zmanim.Formula.Form
import Zmanim.Formula.Reader
import Zmanim.Formula.Reading
import Zmanim.Formula.Text
import Zmanim.Number.Decimal
import Zmanim.Number.Double
import Zmanim.Number.Range
import Zmanim.Number.Shortest
import Zmanim.Proofs.Diagnosis.Agreement
import Zmanim.Proofs.Diagnosis.Balance
import Zmanim.Proofs.Diagnosis.Blame
import Zmanim.Proofs.Diagnosis.Evidence
import Zmanim.Proofs.Diagnosis.Leftmost
import Zmanim.Proofs.Diagnosis.Marker
import Zmanim.Proofs.Diagnosis.Spacing
import Zmanim.Proofs.Diagnosis.Steady
import Zmanim.Proofs.Diagnosis.TopLevel
import Zmanim.Proofs.Editor.Faithful
import Zmanim.Proofs.Editor.Latent
import Zmanim.Proofs.Editor.Loaded
import Zmanim.Proofs.Editor.RoundTrip
import Zmanim.Proofs.Editor.Run
import Zmanim.Proofs.Editor.Validity
import Zmanim.Proofs.Formula.Failure
import Zmanim.Proofs.Formula.Form
import Zmanim.Proofs.Formula.Grammar
import Zmanim.Proofs.Formula.Layout
import Zmanim.Proofs.Formula.Name
import Zmanim.Proofs.Formula.Normal
import Zmanim.Proofs.Formula.Order
import Zmanim.Proofs.Formula.Overlooked
import Zmanim.Proofs.Formula.Reader
import Zmanim.Proofs.Formula.Reading
import Zmanim.Proofs.Formula.Recognition
import Zmanim.Proofs.Formula.RoundTrip
import Zmanim.Proofs.Formula.Stop
import Zmanim.Proofs.Number.Double
import Zmanim.Proofs.Number.Numeral
import Zmanim.Proofs.Number.Rounding
import Zmanim.Proofs.Rejection.Anchor
import Zmanim.Proofs.Rejection.Caret
import Zmanim.Proofs.Rejection.Chained
import Zmanim.Proofs.Rejection.Excerpt
import Zmanim.Proofs.Rejection.Furthest
import Zmanim.Proofs.Rejection.Tiers
import Zmanim.Proofs.Text.Identifier
import Zmanim.Proofs.Text.Line
import Zmanim.Proofs.Text.Place
import Zmanim.Proofs.Text.Run
import Zmanim.Proofs.Text.Span
import Zmanim.Proofs.Text.Trim
import Zmanim.Proofs.Token.Cut
import Zmanim.Proofs.Token.Lexeme
import Zmanim.Proofs.Token.Scan
import Zmanim.Proofs.Token.Sequence
import Zmanim.Proofs.Token.Shift
import Zmanim.Proofs.Wire.RoundTrip
import Zmanim.Rejection
import Zmanim.Text.Blank
import Zmanim.Text.Lines
import Zmanim.Text.Name
import Zmanim.Text.Position
import Zmanim.Token
import Zmanim.Vocabulary.Day
import Zmanim.Vocabulary.Direction
import Zmanim.Vocabulary.Engine
import Zmanim.Vocabulary.ReferencePoint
import Zmanim.Vocabulary.Word
import Zmanim.Wire.Editor
import Zmanim.Wire.Formula
import Zmanim.Wire.Json
import Zmanim.Wire.Rejection
