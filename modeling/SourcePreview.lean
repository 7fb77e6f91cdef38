import SourcePreview.Main
import SourcePreview.Workbench
import SourcePreview.Proofs.Console.Ticket
import SourcePreview.Proofs.Console.Replay
import SourcePreview.Proofs.Run.Effect
import SourcePreview.Proofs.Run.Batch
import SourcePreview.Proofs.Expression.Quotation
import SourcePreview.Proofs.Text.Trim
import SourcePreview.Proofs.Expression.Balance
import SourcePreview.Proofs.Expression.Tree
import SourcePreview.Proofs.Expression.Numeral
import SourcePreview.Proofs.Expression.Operators
import SourcePreview.Proofs.Expression.Meaning
import SourcePreview.Proofs.Console.Silence
import SourcePreview.Proofs.Run.Silence
import SourcePreview.Proofs.Session.Poll
import SourcePreview.Proofs.Session.Event
import SourcePreview.Proofs.Session.Exclusion
import SourcePreview.Proofs.Session.Stop
import SourcePreview.Proofs.Session.Settle
import SourcePreview.Proofs.Console.Holder
import SourcePreview.Proofs.Console.Request
import SourcePreview.Proofs.Console.Protocol
import SourcePreview.Proofs.Console.Chronicle
import SourcePreview.Proofs.Highlight.Tiling
import SourcePreview.Proofs.Run.Account
import SourcePreview.Proofs.Run.Telling
import SourcePreview.Proofs.Expression.Literal
import SourcePreview.Proofs.Statement.Print
import SourcePreview.Proofs.Run.Printing
import SourcePreview.Proofs.Run.Shape
import SourcePreview.Proofs.Run.Cancellation
import SourcePreview.Proofs.Session.Steady
import SourcePreview.Proofs.Session.Isolation
import SourcePreview.Proofs.Text.Search
import SourcePreview.Proofs.Text.Lines
import SourcePreview.Proofs.Highlight.Place
import SourcePreview.Proofs.Highlight.Comment
import SourcePreview.Proofs.Statement.Comment
import SourcePreview.Proofs.Statement.Scan
import SourcePreview.Proofs.Statement.Commented
import SourcePreview.Proofs.Bridge.Answers
import SourcePreview.Proofs.Session.Sharing
import SourcePreview.Proofs.Command.Feed
import SourcePreview.Proofs.Expression.Template
import SourcePreview.Proofs.Statement.Trailing
import SourcePreview.Proofs.Statement.Printed
import SourcePreview.Proofs.Offset.Reading
import SourcePreview.Proofs.Highlight.Restart
import SourcePreview.Proofs.Highlight.Quote
import SourcePreview.Proofs.Highlight.Growth
import SourcePreview.Proofs.Highlight.Word
import SourcePreview.Proofs.Highlight.Delimiter
import SourcePreview.Proofs.Highlight.Vocabulary
import SourcePreview.Proofs.Statement.Append
import SourcePreview.Proofs.Statement.Remark
import SourcePreview.Proofs.Statement.Update
import SourcePreview.Proofs.Statement.Assignable
import SourcePreview.Proofs.Expression.Spacing
import SourcePreview.Proofs.Expression.Delimiter
import SourcePreview.Proofs.Expression.Encoding
import SourcePreview.Proofs.Expression.Dependence
import SourcePreview.Proofs.Run.Integer
import SourcePreview.Proofs.Expression.Loose
import SourcePreview.Proofs.Expression.Sequence
import SourcePreview.Proofs.Expression.Separator
import SourcePreview.Proofs.Expression.Extremum
import SourcePreview.Proofs.Expression.Suffix
import SourcePreview.Proofs.Run.Prompts
import SourcePreview.Proofs.Run.Forestalling
import SourcePreview.Proofs.Session.Interpreter
import SourcePreview.Proofs.Session.Slot
