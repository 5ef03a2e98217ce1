import MiniLex.Diagnostic.Basic
import MiniLex.Source.Reads

/-!
# Cursors

A cursor stands on a character of a source and is moved on one character at a time. It holds one
line; every line, the last one included, ends in exactly one line feed for the cursor, so the line
feed is not stored. The next line is read only when the cursor is moved on from the line feed.

- `Cursor.lookahead`: the character that the cursor stands on.
- `Cursor.advance`: the cursor moved on by one character, reading a line where one is needed.
- `Cursor.skip`: the cursor moved on within its line.
- `Cursor.stream`: all characters from the cursor on. Main statement: an advance that succeeds
  drops the first of them (`Cursor.stream_of_advance`).
- `Cursor.drain`: the cursor moved on until nothing more comes.
-/

namespace MiniLex

/-- A place in a source that is read by lines. A cursor that has not met the end stands on the first
character of `rest`, or, if there is none, on the line feed after it. -/
structure Cursor where
  /-- The line reads still to come; `none` once the end of the source was met. -/
  pending : Option (List LineRead)
  /-- The text of the current line. -/
  line : List Char
  /-- The part of the line from the cursor on. -/
  rest : List Char
  /-- The number of the current line, which is the number of lines read. -/
  lineNumber : Nat
  /-- The column of the cursor. A read that fails moves it on, past the line feed. -/
  column : Nat
deriving DecidableEq

/-- A call that could not go on: what it met, and where it left the cursor. -/
structure Halt where
  diagnostic : Diagnostic
  cursor : Cursor
deriving DecidableEq

namespace Cursor

/-- The cursor before the first line: it stands on the line feed of an empty line zero. -/
def start (reads : List LineRead) : Cursor :=
  ⟨some reads, [], [], 0, 1⟩

/-- Whether the end of the source was met. -/
def isExhausted (c : Cursor) : Bool :=
  c.pending.isNone

/-- The character that the cursor stands on, unless the end of the source was met. -/
def lookahead (c : Cursor) : Option Char :=
  if c.isExhausted then none else some (c.rest.headD '\n')

/-- The place of the cursor. -/
def position (c : Cursor) : Position :=
  ⟨c.lineNumber, c.column⟩

/-- A diagnostic located at the cursor. -/
def diagnostic (c : Cursor) (cause : Cause) : Diagnostic :=
  ⟨cause, c.position, String.ofList c.line⟩

/-! ## Moving on -/

/-- The cursor moved on by `n` characters of its line. -/
def skip (c : Cursor) (n : Nat) : Cursor :=
  { c with rest := c.rest.drop n, column := c.column + n }

/-- The cursor on the first character of the next line. If the next read fails, the cursor stays
where it is but for its column; if there is none, the end of the source is met and the line is
given up. -/
def advanceLine (c : Cursor) : List LineRead → Except Halt Cursor
  | [] => .ok ⟨none, [], [], c.lineNumber, 1⟩
  | .line text :: reads => .ok ⟨some reads, text, text, c.lineNumber + 1, 1⟩
  | .failed message :: reads =>
    .error ⟨⟨.readFailed message, ⟨c.lineNumber + 1, 1⟩, ""⟩,
      { c with pending := some reads, column := c.column + 1 }⟩

/-- The cursor moved on by one character. -/
def advance (c : Cursor) : Except Halt Cursor :=
  match c.pending, c.rest with
  | none, _ => .error ⟨c.diagnostic .readPastEnd, c⟩
  | some _, _ :: _ => .ok (c.skip 1)
  | some reads, [] => c.advanceLine reads

/-! ## The characters ahead -/

/-- All characters from the cursor on, each line ended by one line feed. -/
def stream (c : Cursor) : List Char :=
  match c.pending with
  | none => []
  | some reads => c.rest ++ '\n' :: reads.flatMap LineRead.stream

/-- An advance that succeeds drops the first character ahead. -/
theorem stream_of_advance {c c' : Cursor} (h : c.advance = .ok c') :
    c.stream ≠ [] ∧ c'.stream = c.stream.tail := by
  unfold advance at h
  split at h
  · cases h
  · rename_i hp hr
    cases h
    simp [stream, skip, hp, hr]
  · rename_i reads hp hr
    match reads with
    | [] => cases h; simp [stream, hp, hr]
    | .line text :: reads =>
      cases h
      simp [stream, hp, hr, LineRead.stream]
    | .failed message :: reads => cases h

/-- An advance that succeeds leaves fewer characters ahead. -/
theorem length_stream_of_advance {c c' : Cursor} (h : c.advance = .ok c') :
    c'.stream.length < c.stream.length := by
  obtain ⟨hne, htail⟩ := stream_of_advance h
  have := List.length_pos_iff.mpr hne
  rw [htail, List.length_tail]
  omega

/-- The cursor stands on the first character ahead. -/
theorem lookahead_eq_head? (c : Cursor) : c.lookahead = c.stream.head? := by
  cases hp : c.pending with
  | none => simp [lookahead, isExhausted, stream, hp]
  | some reads => cases hr : c.rest <;> simp [lookahead, isExhausted, stream, hp, hr]

/-- Characters that are skipped are no longer ahead. -/
theorem stream_skip {c : Cursor} {n : Nat} (h : n ≤ c.rest.length) :
    (c.skip n).stream = c.stream.drop n := by
  cases hp : c.pending with
  | none => simp [stream, skip, hp]
  | some reads => simp [stream, skip, hp, List.drop_append_of_le_length h]

/-- A skip brings no characters back. -/
theorem length_stream_skip_le (c : Cursor) (n : Nat) :
    (c.skip n).stream.length ≤ c.stream.length := by
  cases hp : c.pending with
  | none => simp [stream, skip, hp]
  | some reads => simp [stream, skip, hp]

/-- A skip within a line that still has characters leaves fewer characters ahead. -/
theorem length_stream_skip_lt {c : Cursor} {n : Nat} (hx : c.isExhausted = false)
    (hr : c.rest ≠ []) (hn : 0 < n) : (c.skip n).stream.length < c.stream.length := by
  have hlen := List.length_pos_iff.mpr hr
  cases hp : c.pending with
  | none => simp [isExhausted, hp] at hx
  | some reads => simp [stream, skip, hp]; omega

/-! ## Moving on to the end -/

/-- What moving a cursor on for as long as possible came to. -/
structure Drained where
  /-- The characters that were reached. -/
  reached : List Char
  /-- What ended it, if not the end of the source. -/
  halted : Option Diagnostic
  /-- The cursor afterwards. -/
  cursor : Cursor

/-- Moves the cursor on until the end of the source is met or an advance fails. -/
def drain (c : Cursor) : Drained :=
  match _h : c.advance with
  | .error halt => ⟨[], some halt.diagnostic, halt.cursor⟩
  | .ok next =>
    match next.lookahead with
    | none => ⟨[], none, next⟩
    | some ch =>
      let drained := next.drain
      { drained with reached := ch :: drained.reached }
termination_by c.stream.length
decreasing_by exact length_stream_of_advance _h

end Cursor

end MiniLex
