import MiniLex.Source.Passage
import MiniLex.Token.Front

/-!
# Scanning for one token

A scan looks at the front of the line again and again, until one look yields a token or fails.

- `Note`: what a scan lets others know while it goes on.
- `Turn`, `Cursor.turn`: one look and what comes of it.
- `Scan`, `Cursor.scan`: looks until there is an answer. It ends because a look that neither fails
  nor meets the end of the source leaves fewer characters ahead (`Cursor.length_stream_turn`).
-/

namespace MiniLex

/-- What a scan lets others know while it goes on. -/
inductive Note where
  /-- A diagnostic that was recovered from. -/
  | reported (d : Diagnostic)
  /-- A block comment was passed over, on these lines. -/
  | comment (firstLine lastLine : Nat)
  /-- The end of the source was met after so many lines. -/
  | exhausted (lines : Nat)
  /-- A token was made; its last character is on this line. -/
  | token (line : Nat) (t : Token)
deriving DecidableEq

/-- The diagnostic of a note, if it is one. -/
def Note.diagnostic? : Note → Option Diagnostic
  | .reported d => some d
  | _ => none

/-! ## Turns -/

/-- What one look at the source comes to. -/
structure Turn where
  /-- What there is to let know. -/
  notes : List Note
  /-- A token or a failure; `none` if the next look has to find one. -/
  answer : Option (Except Diagnostic Token)
  /-- The cursor afterwards. -/
  cursor : Cursor

namespace Turn

/-- Whether the turn neither failed nor met the end of the source. -/
def isProgress (t : Turn) : Bool :=
  match t.answer with
  | none => true
  | some (.ok token) => !token.isEof
  | some (.error _) => false

/-- A turn that only moves the cursor, or fails to. -/
def ofMove : Except Halt Cursor → Turn
  | .ok c => ⟨[], none, c⟩
  | .error halt => ⟨[], some (.error halt.diagnostic), halt.cursor⟩

end Turn

namespace Cursor

/-- The turn of a block comment. The cursor is on the slash that opens it. -/
def turnBlockComment (c : Cursor) : Turn :=
  match (c.skip 2).passUntil closesComment false with
  | .error halt => ⟨[], some (.error halt.diagnostic), halt.cursor⟩
  | .ok passage =>
    ⟨[.comment c.lineNumber passage.cursor.lineNumber], none, passage.cursor.skip 1⟩

/-- The turn of a string literal. The cursor is on the quote that opens it. -/
def turnString (c : Cursor) : Turn :=
  match (c.skip 1).passUntil closesString false with
  | .error halt => ⟨[], some (.error halt.diagnostic), halt.cursor⟩
  | .ok passage =>
    ⟨[], some (.ok (Token.spelled .stringLiteral ('"' :: passage.passed ++ ['"']))),
      passage.cursor.skip 1⟩

/-- One look at the source. -/
def turn (c : Cursor) : Turn :=
  if c.isExhausted then ⟨[], some (.ok Token.eof), c⟩
  else
    match Front.of c.rest with
    | .lineEnd => Turn.ofMove c.advance
    | .spacing => ⟨[], none, c.skip 1⟩
    | .lineComment => Turn.ofMove (c.skip c.rest.length).advance
    | .blockComment => c.turnBlockComment
    | .stringLiteral => c.turnString
    | .illegal ch => ⟨[.reported (c.diagnostic (.illegalCharacter ch))], none, c.skip 1⟩
    | .token t width => ⟨[], some (.ok t), c.skip width⟩
    | .broken t width cause =>
      ⟨[.reported ((c.skip width).diagnostic cause)], t.map .ok, c.skip width⟩

/-- A passage that begins `n` characters further on and is left by skipping its closing character
leaves fewer characters ahead. -/
theorem length_stream_passage_lt {σ : Type} {closes : σ → Char → Option σ} {state : σ} {c : Cursor}
    {p : Passage} {n m : Nat} (hx : c.isExhausted = false) (hr : c.rest ≠ []) (hn : 0 < n)
    (h : (c.skip n).passUntil closes state = .ok p) :
    (p.cursor.skip m).stream.length < c.stream.length := by
  have hpassed := congrArg List.length (stream_of_passUntil h)
  have hskip := length_stream_skip_lt hx hr hn
  have hlast := length_stream_skip_le p.cursor m
  rw [List.length_append] at hpassed
  omega

/-- A turn that neither fails nor meets the end of the source leaves fewer characters ahead. -/
theorem length_stream_turn {c : Cursor} (h : c.turn.isProgress = true) :
    c.turn.cursor.stream.length < c.stream.length := by
  by_cases hx : c.isExhausted = true
  · simp [turn, hx, Turn.isProgress, Token.isEof, Token.eof, Token.plain] at h
  rw [Bool.not_eq_true] at hx
  have hne : Front.of c.rest ≠ .lineEnd → c.rest ≠ [] := fun h hr => h (by rw [hr]; rfl)
  -- A move is an advance from some cursor, unless it fails.
  have hmove : ∀ d : Cursor, d.stream.length ≤ c.stream.length →
      (Turn.ofMove d.advance).isProgress = true →
      (Turn.ofMove d.advance).cursor.stream.length < c.stream.length := by
    intro d hd hprogress
    cases hadv : d.advance with
    | error halt => rw [hadv] at hprogress; cases hprogress
    | ok next => exact Nat.lt_of_lt_of_le (length_stream_of_advance hadv) hd
  simp only [turn, hx, Bool.false_eq_true, if_false] at h ⊢
  cases hf : Front.of c.rest with
  | lineEnd =>
    rw [hf] at h
    exact hmove c (Nat.le_refl _) h
  | lineComment =>
    rw [hf] at h
    exact hmove _ (length_stream_skip_le _ _) h
  | spacing | illegal ch =>
    exact length_stream_skip_lt hx (hne (by simp [hf])) (by omega)
  | blockComment =>
    rw [hf] at h
    simp only [turnBlockComment] at h ⊢
    split at h
    · cases h
    · rename_i hp
      exact length_stream_passage_lt hx (hne (by simp [hf])) (by omega) hp
  | stringLiteral =>
    rw [hf] at h
    simp only [turnString] at h ⊢
    split at h
    · cases h
    · rename_i hp
      exact length_stream_passage_lt hx (hne (by simp [hf])) (by omega) hp
  | token t width | broken t width cause =>
    have hr := hne (by simp [hf])
    have hwidth := Front.width_pos hr
    rw [hf] at hwidth
    exact length_stream_skip_lt hx hr hwidth

end Cursor

/-! ## Scans -/

/-- What a scan for one token comes to. -/
structure Scan where
  /-- What there is to let know, in order. -/
  notes : List Note
  /-- The token, or the diagnostic that ended the scan. -/
  answer : Except Diagnostic Token
  /-- The cursor afterwards. -/
  cursor : Cursor

namespace Cursor

/-- Looks at the source until there is an answer. -/
def scan (c : Cursor) : Scan :=
  match h : c.turn.answer with
  | some answer => ⟨c.turn.notes, answer, c.turn.cursor⟩
  | none =>
    have : c.turn.cursor.stream.length < c.stream.length :=
      length_stream_turn (by simp [Turn.isProgress, h])
    let later := c.turn.cursor.scan
    { later with notes := c.turn.notes ++ later.notes }
termination_by c.stream.length

/-- A scan that makes a token leaves fewer characters ahead. -/
theorem length_stream_scan {c : Cursor} {t : Token} (h : c.scan.answer = .ok t)
    (ht : t.isEof = false) : c.scan.cursor.stream.length < c.stream.length := by
  fun_induction scan c with
  | case1 c answer hturn =>
    refine length_stream_turn ?_
    simp only at h
    simp [Turn.isProgress, hturn, h, ht]
  | case2 c hturn hlt later ih => exact Nat.lt_trans (ih h) hlt

end Cursor

end MiniLex
