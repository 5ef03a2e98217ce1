import MiniLex.Proofs.Concatenation

/-!
# Sources further down

A source that begins further down is scanned in the same way: all that changes is the number of each
line. Reads may fail here, and the end may be met within a literal.

- `Cursor.lower`, `Halt.lower`, `Passage.lower`, `Note.lower`, `Turn.lower`, `Scan.lower`,
  `Reply.lower`: the same, so many lines further down.
- `Cursor.advance_lower`, `Cursor.passUntil_lower`, `Cursor.turn_lower`, `Cursor.scan_lower`: what is
  done with a cursor that is further down is what is done with the cursor, further down.
- `Scanner.nextTokens`: the replies to several calls for the next token.

Main statement: `Scanner.nextTokens_lower`.
-/

namespace MiniLex

/-! ## The same, further down -/

/-- The same cursor, `n` lines further down. -/
def Cursor.lower (n : Nat) (c : Cursor) : Cursor :=
  { c with lineNumber := c.lineNumber + n }

/-- The same halt, `n` lines further down. -/
def Halt.lower (n : Nat) (halt : Halt) : Halt :=
  ⟨halt.diagnostic.lower n, halt.cursor.lower n⟩

/-- The same passage, `n` lines further down. -/
def Passage.lower (n : Nat) (p : Passage) : Passage :=
  { p with cursor := p.cursor.lower n }

/-- The same note, `n` lines further down. -/
def Note.lower (n : Nat) : Note → Note
  | .reported d => .reported (d.lower n)
  | .comment firstLine lastLine => .comment (firstLine + n) (lastLine + n)
  | .exhausted lines => .exhausted (lines + n)
  | .token line t => .token (line + n) t

/-- The same answer, `n` lines further down. -/
def lowerAnswer (n : Nat) : Except Diagnostic Token → Except Diagnostic Token :=
  Except.mapError (Diagnostic.lower n)

/-- The same turn, `n` lines further down. -/
def Turn.lower (n : Nat) (t : Turn) : Turn :=
  ⟨t.notes.map (Note.lower n), t.answer.map (lowerAnswer n), t.cursor.lower n⟩

/-- The same scan, `n` lines further down. -/
def Scan.lower (n : Nat) (s : Scan) : Scan :=
  ⟨s.notes.map (Note.lower n), lowerAnswer n s.answer, s.cursor.lower n⟩

/-- The same reply, `n` lines further down. -/
def Reply.lower (n : Nat) (r : Reply) : Reply :=
  ⟨r.notes.map (Note.lower n), r.answer.map (lowerAnswer n)⟩

/-- Either side of a move or a passage, `n` lines further down. -/
def lowerMoved {α : Type} (lower : α → α) (n : Nat) : Except Halt α → Except Halt α
  | .ok a => .ok (lower a)
  | .error halt => .error (halt.lower n)

variable (n : Nat)

theorem reported_map_lower (notes : List Note) :
    (notes.map (Note.lower n)).filterMap Note.diagnostic? =
      (notes.filterMap Note.diagnostic?).map (Diagnostic.lower n) := by
  induction notes with
  | nil => rfl
  | cons note notes ih =>
    cases note with
    | reported d => simp [Note.lower, Note.diagnostic?, ih]
    | comment _ _ | exhausted _ | token _ _ => exact ih

@[simp] theorem Reply.reported_lower (r : Reply) :
    (r.lower n).reported = r.reported.map (Diagnostic.lower n) :=
  reported_map_lower n r.notes

/-! ## Cursors -/

namespace Cursor

variable (c : Cursor)

@[simp] theorem isExhausted_lower : (c.lower n).isExhausted = c.isExhausted := rfl

@[simp] theorem lookahead_lower : (c.lower n).lookahead = c.lookahead := rfl

@[simp] theorem skip_lower (k : Nat) : (c.lower n).skip k = (c.skip k).lower n := rfl

theorem advanceLine_lower (reads : List LineRead) :
    (c.lower n).advanceLine reads = lowerMoved (lower n) n (c.advanceLine reads) := by
  have hnext : c.lineNumber + n + 1 = c.lineNumber + 1 + n := Nat.add_right_comm ..
  cases reads with
  | nil => rfl
  | cons read reads =>
    cases read with
    | line text => simp [advanceLine, lower, lowerMoved, hnext]
    | failed message => simp [advanceLine, lower, lowerMoved, Halt.lower, Diagnostic.lower, hnext]

theorem advance_lower : (c.lower n).advance = lowerMoved (lower n) n c.advance := by
  obtain ⟨pending, line, rest, lineNumber, column⟩ := c
  cases pending with
  | none => rfl
  | some reads =>
    cases rest with
    | cons ch rest => rfl
    | nil => exact advanceLine_lower n _ reads

/-- A passage, as a recursion on the move to the next character. -/
theorem passUntil_eq {σ : Type} (closes : σ → Char → Option σ) (state : σ) :
    c.passUntil closes state =
      match c.lookahead with
      | none => .error ⟨c.diagnostic .readPastEnd, c⟩
      | some ch =>
        match closes state ch with
        | none => .ok ⟨[], c⟩
        | some state' =>
          match c.advance with
          | .error halt => .error halt
          | .ok next =>
            match next.passUntil closes state' with
            | .error halt => .error halt
            | .ok passage => .ok { passage with passed := ch :: passage.passed } := by
  conv_lhs => unfold passUntil
  cases c.lookahead with
  | none => rfl
  | some ch =>
    dsimp only
    cases closes state ch with
    | none => rfl
    | some state' =>
      dsimp only
      cases c.advance with
      | error halt => rfl
      | ok next => cases hpass : next.passUntil closes state' <;> simp only [hpass]

theorem passUntil_lower {σ : Type} (closes : σ → Char → Option σ) (state : σ) :
    (c.lower n).passUntil closes state = lowerMoved (Passage.lower n) n (c.passUntil closes state) := by
  fun_induction passUntil closes state c with
  | case1 state c hch =>
    rw [passUntil_eq, lookahead_lower, hch]
    rfl
  | case2 state c ch hch hcloses =>
    rw [passUntil_eq, lookahead_lower, hch]
    simp only [hcloses]
    rfl
  | case3 state c ch hch state' hcloses halt hadvance =>
    rw [passUntil_eq, lookahead_lower, hch, advance_lower, hadvance]
    simp only [hcloses]
    rfl
  | case4 state c ch hch state' hcloses next hadvance halt hpass ih =>
    rw [hpass] at ih
    have ih : (next.lower n).passUntil closes state' = .error (halt.lower n) := ih
    rw [passUntil_eq, lookahead_lower, hch, advance_lower, hadvance]
    simp only [hcloses, lowerMoved, ih]
  | case5 state c ch hch state' hcloses next hadvance passage hpass ih =>
    rw [hpass] at ih
    have ih : (next.lower n).passUntil closes state' = .ok (passage.lower n) := ih
    rw [passUntil_eq, lookahead_lower, hch, advance_lower, hadvance]
    simp only [hcloses, lowerMoved, ih]
    rfl

/-! ## Looks and scans -/

theorem ofMove_lower (moved : Except Halt Cursor) :
    Turn.ofMove (lowerMoved (lower n) n moved) = (Turn.ofMove moved).lower n := by
  cases moved <;> rfl

theorem turnBlockComment_lower : (c.lower n).turnBlockComment = c.turnBlockComment.lower n := by
  unfold turnBlockComment
  rw [skip_lower, passUntil_lower]
  cases (c.skip 2).passUntil closesComment false <;> rfl

theorem turnString_lower : (c.lower n).turnString = c.turnString.lower n := by
  unfold turnString
  rw [skip_lower, passUntil_lower]
  cases (c.skip 1).passUntil closesString false <;> rfl

/-- A look further down comes to the same, further down. -/
theorem turn_lower : (c.lower n).turn = c.turn.lower n := by
  unfold turn
  rw [isExhausted_lower]
  split
  · rfl
  · rw [show (c.lower n).rest = c.rest from rfl]
    cases Front.of c.rest with
    | lineEnd =>
      show Turn.ofMove (c.lower n).advance = _
      rw [advance_lower, ofMove_lower]
    | lineComment =>
      show Turn.ofMove ((c.lower n).skip c.rest.length).advance = _
      rw [skip_lower, advance_lower, ofMove_lower]
    | blockComment => exact c.turnBlockComment_lower n
    | stringLiteral => exact c.turnString_lower n
    | spacing | illegal ch | token t width => rfl
    | broken t width cause => cases t <;> rfl

/-- A scan further down comes to the same, further down. -/
theorem scan_lower : (c.lower n).scan = c.scan.lower n := by
  fun_induction Cursor.scan c with
  | case1 c answer hanswer =>
    have hlower : (c.lower n).turn.answer = some (lowerAnswer n answer) := by
      rw [turn_lower, Turn.lower, hanswer]
      rfl
    rw [scan_of_answer hlower, turn_lower]
    rfl
  | case2 c hnone hlt later ih =>
    have hlower : (c.lower n).turn.answer = none := by
      rw [turn_lower, Turn.lower, hnone]
      rfl
    have hcursor : (c.lower n).turn.cursor = c.turn.cursor.lower n := by rw [turn_lower]; rfl
    rw [scan_of_none hlower, hcursor, ih, turn_lower]
    simp only [Turn.lower, Scan.lower, List.map_append]
    rfl

end Cursor

/-! ## Calls -/

namespace Scanner

/-- The replies to `k` calls for the next token. -/
def nextTokens (s : Scanner) : Nat → List Reply
  | 0 => []
  | k + 1 => s.nextToken.1 :: s.nextToken.2.nextTokens k

theorem nextToken_lower (c : Cursor) (finished finished' : Bool) :
    (Scanner.mk (c.lower n) finished).nextToken.1 = (Scanner.mk c finished').nextToken.1.lower n := by
  have hend : ∀ d : Cursor,
      exhaustion (c.lower n) (d.lower n) = (exhaustion c d).map (Note.lower n) := by
    intro d
    unfold exhaustion
    rw [Cursor.isExhausted_lower, Cursor.isExhausted_lower]
    split <;> rfl
  have htoken : ∀ d answer,
      tokenNote (Cursor.lower n d) (lowerAnswer n answer) = (tokenNote d answer).map (Note.lower n) := by
    intro d answer
    cases answer <;> rfl
  simp [nextToken, Cursor.scan_lower, Scan.lower, Reply.lower, hend, htoken]

/-- Calls further down are answered in the same way, further down. -/
theorem nextTokens_lower (c : Cursor) (finished finished' : Bool) (k : Nat) :
    (Scanner.mk (c.lower n) finished).nextTokens k =
      ((Scanner.mk c finished').nextTokens k).map (Reply.lower n) := by
  induction k generalizing c with
  | zero => rfl
  | succ k ih =>
    have hnext : (Scanner.mk (c.lower n) finished).nextToken.2 = ⟨c.scan.cursor.lower n, finished⟩ := by
      simp [nextToken, Cursor.scan_lower, Scan.lower]
    rw [nextTokens, nextTokens, List.map_cons, nextToken_lower n c finished finished', hnext, ih]
    rfl

end Scanner

end MiniLex
