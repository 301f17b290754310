import ClassLang.Text.Blank
import ClassLang.Text.Alphanumeric
import ClassLang.Text.Word
import ClassLang.Text.Position
import ClassLang.Text.Report
import ClassLang.Text.Width
import ClassLang.Token.Kind
import ClassLang.Token.Basic
import ClassLang.Token.Gap
import ClassLang.Token.Lexeme
import ClassLang.Token.Cursor
import ClassLang.Token.Source
import ClassLang.Token.Stream
import ClassLang.Token.Lexer
import ClassLang.Syntax.Operator
import ClassLang.Syntax.Expression
import ClassLang.Syntax.Statement
import ClassLang.Syntax.Class
import ClassLang.Layout.Piece
import ClassLang.Layout.Expression
import ClassLang.Layout.Statement
import ClassLang.Layout.Class
import ClassLang.Grammar.Rule
import ClassLang.Grammar.Parser
import ClassLang.Grammar.Basic
import ClassLang.Grammar.Expression
import ClassLang.Grammar.Statement
import ClassLang.Grammar.Class
import ClassLang.Grammar.Run
import ClassLang.File.Fault
import ClassLang.File.Source
import ClassLang.File.Sink
import ClassLang.File.Directory
import ClassLang.Headline.FirstLines
import ClassLang.Headline.Show
import ClassLang.Command.Log
import ClassLang.Command.Options
import ClassLang.Command.Program
import ClassLang.Main
import ClassLang.Proofs.Gap
import ClassLang.Proofs.Held
import ClassLang.Proofs.Lookahead
import ClassLang.Proofs.Guarded
import ClassLang.Proofs.Prepend
import ClassLang.Proofs.Calls
import ClassLang.Proofs.SameTokens
import ClassLang.Proofs.Genuine
import ClassLang.Proofs.Reads
import ClassLang.Proofs.WellFormed
import ClassLang.Proofs.Written
import ClassLang.Proofs.Taken.Expression
import ClassLang.Proofs.Taken.Statement
import ClassLang.Proofs.Taken.Class
import ClassLang.Proofs.Whole
import ClassLang.Proofs.Accounted
import ClassLang.Proofs.Given.Expression
import ClassLang.Proofs.Given.Statement
import ClassLang.Proofs.Given.Control
import ClassLang.Proofs.Given.Class
import ClassLang.Proofs.Print.Token
import ClassLang.Proofs.Covered
import ClassLang.Proofs.Print.Spaced
import ClassLang.Proofs.Print.Reread
import ClassLang.Proofs.SetOut
import ClassLang.Proofs.Printed
import ClassLang.Proofs.Sound
import ClassLang.Proofs.FirstLine
import ClassLang.Proofs.WriteTo
import ClassLang.Proofs.Reprinted
import ClassLang.Proofs.NewLine
import ClassLang.Proofs.Cut
import ClassLang.Proofs.Followed
import ClassLang.Proofs.Lexemes
import ClassLang.Proofs.Listing
import ClassLang.Proofs.Unbroken
import ClassLang.Proofs.Unlexable
import ClassLang.Proofs.Unmasked
import ClassLang.Proofs.Uses
import ClassLang.Proofs.Careful
import ClassLang.Proofs.Begun.Parser
import ClassLang.Proofs.Begun.Expression
import ClassLang.Proofs.Begun.Statement
import ClassLang.Proofs.Begun.Class
import ClassLang.Proofs.Starved
import ClassLang.Proofs.Truncated
import ClassLang.Proofs.Paid
import ClassLang.Proofs.Progress
