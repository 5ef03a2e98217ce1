import MiniLex.Token.Scan

/-!
# Scanners

A scanner answers calls for the next token. Two kinds of call share one cursor: `nextToken` may be
called for ever, also after a failure, and `next` stops giving anything once it has given the end
of the source or a failure.

- `Scanner.ofReads`, `Scanner.ofOpened`: a scanner on its first character.
- `Scanner.nextToken`, `Scanner.next`, `Scanner.drain`: the calls, each with what it lets know.
- `tokenize`: the tokens of a text.
-/

namespace MiniLex

/-- A scanner between two calls. -/
structure Scanner where
  cursor : Cursor
  /-- Whether `next` has given the end of the source or a failure. -/
  finished : Bool
deriving DecidableEq

/-- What one call comes to. -/
structure Reply where
  /-- What there is to let know, in order. -/
  notes : List Note
  /-- A token or a failure; `none` from a `next` that has nothing more to give. -/
  answer : Option (Except Diagnostic Token)

namespace Reply

/-- The reply of a `next` that has nothing more to give. -/
def nothing : Reply := ⟨[], none⟩

/-- The diagnostics that were reported and recovered from during the call. -/
def reported (r : Reply) : List Diagnostic :=
  r.notes.filterMap Note.diagnostic?

/-- Whether the answer is the last that `next` gives: the end of the source, or a failure. -/
def isLast (r : Reply) : Bool :=
  match r.answer with
  | none => false
  | some (.ok t) => t.isEof
  | some (.error _) => true

/-- The tokens of several replies, or the first failure among them. -/
def tokens : List Reply → Except Diagnostic (List Token)
  | [] => .ok []
  | reply :: replies =>
    match reply.answer with
    | none => tokens replies
    | some (.error d) => .error d
    | some (.ok t) => (tokens replies).map (t :: ·)

end Reply

namespace Scanner

/-- A scanner on the first character that the reads deliver. Only a failing first read is an
error. -/
def ofReads (reads : List LineRead) : Except Diagnostic Scanner :=
  match (Cursor.start reads).advance with
  | .ok c => .ok ⟨c, false⟩
  | .error halt => .error halt.diagnostic

/-- A scanner of the source at a path, given what opening the path comes to. The diagnostic of a
path that cannot be opened names the path and not the reason. -/
def ofOpened (path : String) : Opened → Except Diagnostic Scanner
  | .error _ => .error ⟨.sourceNotFound path, .nowhere, ""⟩
  | .ok events => ofReads (LineRead.ofEvents events)

/-- The note that a source met its end between two cursors, if it did. -/
def exhaustion (before after : Cursor) : List Note :=
  if after.isExhausted && !before.isExhausted then [.exhausted after.lineNumber] else []

/-- What there is to let know of a scanner that has just been made: an empty source is used up
already. -/
def openingNotes (s : Scanner) : List Note :=
  if s.cursor.isExhausted then [.exhausted s.cursor.lineNumber] else []

/-- The note that a token was made. -/
def tokenNote (c : Cursor) : Except Diagnostic Token → List Note
  | .ok t => [.token c.lineNumber t]
  | .error _ => []

/-- Scans for the next token. After the end of a source nothing is left to scan, so the end is the
last thing to let know but for the token. -/
def nextToken (s : Scanner) : Reply × Scanner :=
  let scan := s.cursor.scan
  (⟨scan.notes ++ exhaustion s.cursor scan.cursor ++ tokenNote scan.cursor scan.answer,
      some scan.answer⟩,
    { s with cursor := scan.cursor })

/-- Gives the next token, up to and including the end of the source or a failure, and then
nothing. -/
def next (s : Scanner) : Reply × Scanner :=
  if s.finished then (.nothing, s)
  else
    let (reply, s') := s.nextToken
    (reply, { s' with finished := reply.isLast })

/-- A bound on the number of calls of `next` that give something. -/
def remaining (s : Scanner) : Nat :=
  if s.finished then 0 else s.cursor.stream.length + 1

/-- A call of `next` that gives something brings the scanner nearer to its end. -/
theorem remaining_next {s : Scanner} (h : s.next.1.answer ≠ none) :
    s.next.2.remaining < s.remaining := by
  cases hf : s.finished with
  | true => simp [next, hf, Reply.nothing] at h
  | false =>
    simp only [next, hf, remaining, Bool.false_eq_true, if_false]
    cases hlast : s.nextToken.1.isLast with
    | true => simp
    | false =>
      have hlt : s.cursor.scan.cursor.stream.length < s.cursor.stream.length := by
        cases hanswer : s.cursor.scan.answer with
        | error d => simp [nextToken, Reply.isLast, hanswer] at hlast
        | ok t =>
          simp only [nextToken, Reply.isLast, hanswer] at hlast
          exact Cursor.length_stream_scan hanswer hlast
      simp [nextToken, hlt]

/-- Calls `next` until it gives nothing; the last reply is the one without an answer. -/
def drain (s : Scanner) : List Reply × Scanner :=
  match h : s.next.1.answer with
  | none => ([s.next.1], s.next.2)
  | some _ =>
    have : s.next.2.remaining < s.remaining := remaining_next (by simp [h])
    let (replies, last) := s.next.2.drain
    (s.next.1 :: replies, last)
termination_by s.remaining

end Scanner

/-! ## Texts -/

/-- What scanning a whole text comes to: its tokens, the last one the end of the source, or the
first failure; and every diagnostic that was reported and recovered from. -/
structure Tokenized where
  result : Except Diagnostic (List Token)
  reported : List Diagnostic

/-- The tokens of a source, by its line reads. -/
def tokenizeReads (reads : List LineRead) : Tokenized :=
  match Scanner.ofReads reads with
  | .error d => ⟨.error d, []⟩
  | .ok s =>
    let replies := s.drain.1
    ⟨Reply.tokens replies, replies.flatMap Reply.reported⟩

/-- The tokens of a text. -/
def tokenize (text : List Char) : Tokenized :=
  tokenizeReads (LineRead.ofText text)

end MiniLex
