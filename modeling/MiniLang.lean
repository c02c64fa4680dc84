import MiniLang.Text.Lines
import MiniLang.Text.Paint
import MiniLang.Text.Printable
import MiniLang.Text.Quoted
import MiniLang.Text.WordChar
import MiniLang.Token
import MiniLang.Token.Pattern
import MiniLang.Token.Lexicon
import MiniLang.Expr
import MiniLang.Code
import MiniLang.Code.Builder
import MiniLang.Names
import MiniLang.Diagnostic
import MiniLang.Diagnostic.Rendering
import MiniLang.Grammar.Goal
import MiniLang.Analysis
import MiniLang.Descent
import MiniLang.Files.Path
import MiniLang.Files.Tree
import MiniLang.Host
import MiniLang.Invocation
import MiniLang.Invocation.Words
import MiniLang.Compilation
import MiniLang.Main
import MiniLang.Proofs.Except
import MiniLang.Proofs.Names
import MiniLang.Proofs.Text.Lines
import MiniLang.Proofs.Text.Order
import MiniLang.Proofs.Symbols
import MiniLang.Proofs.Token.Shape
import MiniLang.Proofs.Token.Word
import MiniLang.Proofs.Token.Segment
import MiniLang.Proofs.Token.Tokenization
import MiniLang.Proofs.Token.Placement
import MiniLang.Proofs.Token.Offsets
import MiniLang.Proofs.Token.Layout
import MiniLang.Proofs.Token.Seam
import MiniLang.Proofs.Token.Keyword
import MiniLang.Proofs.LineEnds
import MiniLang.Proofs.Grammar.Phrase
import MiniLang.Proofs.Grammar.Declared
import MiniLang.Proofs.Grammar.Provenance
import MiniLang.Proofs.Grammar.Reading
import MiniLang.Proofs.Grammar.Statement
import MiniLang.Proofs.Grammar.Run
import MiniLang.Proofs.Grammar.Uses
import MiniLang.Proofs.Grammar.Rendering
import MiniLang.Proofs.Grammar.Derivation
import MiniLang.Proofs.Grammar.Stage
import MiniLang.Proofs.Grammar.Target
import MiniLang.Proofs.Recognition
import MiniLang.Proofs.Viability
import MiniLang.Proofs.Category
import MiniLang.Proofs.Expectation
import MiniLang.Proofs.Straight
import MiniLang.Proofs.Code.Lowering
import MiniLang.Proofs.Code.Calls
import MiniLang.Proofs.Code.Execution
import MiniLang.Proofs.Code.Freshness
import MiniLang.Proofs.Code.Postorder
import MiniLang.Proofs.Code.Chain
import MiniLang.Proofs.Code.Length
import MiniLang.Proofs.Code.Renaming
import MiniLang.Proofs.Concatenation
import MiniLang.Proofs.Grammar.Renaming
import MiniLang.Proofs.Renaming
import MiniLang.Proofs.Blindness
import MiniLang.Proofs.Grammar.Stack
import MiniLang.Proofs.Descent.Cursor
import MiniLang.Proofs.Descent.Following
import MiniLang.Proofs.Descent.Expression
import MiniLang.Proofs.Descent.Statement
import MiniLang.Proofs.Descent.Progress
import MiniLang.Proofs.Diagnostic.Snippet
import MiniLang.Proofs.Diagnostic.Caret
import MiniLang.Proofs.Diagnostic.Colors
import MiniLang.Proofs.Report
import MiniLang.Proofs.Files.Writing
import MiniLang.Proofs.Compilation.Ending
import MiniLang.Proofs.Compilation.Emission
import MiniLang.Proofs.Compilation.Agreement
import MiniLang.Proofs.Compilation.Resolution
import MiniLang.Proofs.Compilation.Mirror
import MiniLang.Proofs.Invocation.Laws
import MiniLang.Proofs.Invocation.Words
import MiniLang.Proofs.Invocation.Spelling
