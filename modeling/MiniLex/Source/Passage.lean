import MiniLex.Source.Cursor

/-!
# Passing over characters

String literals and block comments are passed over one character at a time, through as many lines
as they take, until the character comes that closes them. Which character that is, is told by a
rule with a state.

- `Passage`: the characters passed over, and the cursor on the closing character.
- `Cursor.passUntil`: the passage. It fails where an advance fails, and at the end of the source.
- `closesString`, `closesComment`: the two rules.
-/

namespace MiniLex

/-- A passage that came to its closing character. -/
structure Passage where
  /-- The characters before the closing one, with one line feed for each line end. -/
  passed : List Char
  /-- The cursor on the closing character. -/
  cursor : Cursor
deriving DecidableEq

namespace Cursor

/-- Moves the cursor on to the first character that closes: `closes` has no state to go on with
there. -/
def passUntil {σ : Type} (closes : σ → Char → Option σ) (state : σ) (c : Cursor) :
    Except Halt Passage :=
  match c.lookahead with
  | none => .error ⟨c.diagnostic .readPastEnd, c⟩
  | some ch =>
    match closes state ch with
    | none => .ok ⟨[], c⟩
    | some state' =>
      match _h : c.advance with
      | .error halt => .error halt
      | .ok next =>
        match passUntil closes state' next with
        | .error halt => .error halt
        | .ok passage => .ok { passage with passed := ch :: passage.passed }
termination_by c.stream.length
decreasing_by exact length_stream_of_advance _h

/-- The characters ahead of a cursor are those that a passage passes over and then those ahead of
the closing character. -/
theorem stream_of_passUntil {σ : Type} {closes : σ → Char → Option σ} {state : σ} {c : Cursor}
    {p : Passage} (h : c.passUntil closes state = .ok p) :
    c.stream = p.passed ++ p.cursor.stream := by
  fun_induction passUntil closes state c generalizing p with
  | case1 => cases h
  | case2 => cases h; rfl
  | case3 => cases h
  | case4 => cases h
  | case5 state c ch hch state' _ next hnext passage hpass ih =>
    cases h
    obtain ⟨hne, htail⟩ := stream_of_advance hnext
    rw [lookahead_eq_head?] at hch
    obtain ⟨rest, hrest⟩ := List.head?_eq_some_iff.mp hch
    rw [hrest] at htail ⊢
    simp only [List.tail_cons] at htail
    rw [← htail, ih hpass, List.cons_append]

end Cursor

/-! ## Closing characters -/

/-- A string literal is closed by the first quote that no backslash escapes. The state tells
whether the character before was a backslash that escapes. -/
def closesString (escaping : Bool) (ch : Char) : Option Bool :=
  if escaping then some false
  else if ch = '"' then none
  else some (ch = '\\')

/-- A block comment is closed by the first slash directly after a star. The state tells whether the
character before was a star of the comment. -/
def closesComment (starred : Bool) (ch : Char) : Option Bool :=
  if starred && ch == '/' then none else some (ch == '*')

end MiniLex
