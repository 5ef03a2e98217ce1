import MiniLex.Diagnostic.Sink
import MiniLex.Token.Scanner

/-!
# Sessions

A session is a scanner with the sink that its diagnostics go to.

- `Session.Call`: the calls that a session answers.
- `Session.perform`: the entries that a call adds to the record of a session, one for each reply of
  the scanner.
-/

namespace MiniLex

/-- A scanner with its sink. -/
structure Session where
  scanner : Scanner
  sink : Sink
deriving DecidableEq

namespace Session

/-- The calls that a session answers. -/
inductive Call where
  | nextToken
  | next
  | drain
deriving DecidableEq

/-- One reply of the scanner, and the sink after it. -/
structure Entry where
  reply : Reply
  sink : Sink

/-- The entries of several replies, and the sink after them. -/
def enter (sink : Sink) : List Reply → List Entry × Sink
  | [] => ([], sink)
  | reply :: replies =>
    let sink := sink.reportAll reply.reported
    let (entries, last) := enter sink replies
    (⟨reply, sink⟩ :: entries, last)

/-- The replies of the scanner to a call, and the scanner after it. -/
def replies (s : Scanner) : Call → List Reply × Scanner
  | .nextToken => ([s.nextToken.1], s.nextToken.2)
  | .next => ([s.next.1], s.next.2)
  | .drain => s.drain

/-- The entries that a call adds to the record of a session, and the session after it. -/
def perform (s : Session) (call : Call) : List Entry × Session :=
  let (replies, scanner) := replies s.scanner call
  let (entries, sink) := enter s.sink replies
  (entries, ⟨scanner, sink⟩)

end Session

end MiniLex
