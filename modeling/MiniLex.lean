import MiniLex.CommandLine
import MiniLex.Diagnostic.Basic
import MiniLex.Diagnostic.Render
import MiniLex.Diagnostic.Sink
import MiniLex.Folder
import MiniLex.Log.Directive
import MiniLex.Log.Filter
import MiniLex.Log.Record
import MiniLex.Main
import MiniLex.Program
import MiniLex.Proofs.Lexeme
import MiniLex.Session
import MiniLex.Source.Cursor
import MiniLex.Source.Passage
import MiniLex.Source.Reads
import MiniLex.Text.Alphanumeric
import MiniLex.Text.Blank
import MiniLex.Text.Invisible
import MiniLex.Text.Parts
import MiniLex.Text.Quoted
import MiniLex.Text.Utf8
import MiniLex.Token.Basic
import MiniLex.Token.Front
import MiniLex.Token.Kind
import MiniLex.Token.Scan
import MiniLex.Token.Scanner
import MiniLex.Proofs.Longest
import MiniLex.Proofs.Segment
import MiniLex.Proofs.Lines
import MiniLex.Proofs.Place
import MiniLex.Proofs.Front
import MiniLex.Proofs.Turn
import MiniLex.Proofs.Run
import MiniLex.Proofs.Calls
import MiniLex.Proofs.Diagnostics
import MiniLex.Proofs.Segmentation
import MiniLex.Proofs.LongestMatch
import MiniLex.Proofs.Layout
import MiniLex.Proofs.Concatenation
import MiniLex.Proofs.Unterminated
import MiniLex.Proofs.Buffer
import MiniLex.Proofs.Bytes
import MiniLex.Proofs.Looks
import MiniLex.Proofs.Lowering
import MiniLex.Proofs.Restart
import MiniLex.Proofs.LineLooks
import MiniLex.Proofs.BetweenLines
import MiniLex.Proofs.Output
import MiniLex.Proofs.Rendering
import MiniLex.Proofs.Caret
import MiniLex.Proofs.ReadAhead
import MiniLex.Proofs.Order
import MiniLex.Proofs.Blanking
import MiniLex.Proofs.LineEnds
import MiniLex.Proofs.Progress
import MiniLex.Proofs.Interleaving
import MiniLex.Proofs.Listing
import MiniLex.Proofs.Arrivals
import MiniLex.Proofs.Outcomes
import MiniLex.Proofs.Closing
import MiniLex.Proofs.Numbers
import MiniLex.Proofs.FailedReads
import MiniLex.Proofs.CharLiterals
