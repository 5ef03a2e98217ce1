import MiniLex.Proofs.Arrivals
import MiniLex.Proofs.Buffer

/-!
# Reads that fail

A move that has to read a line fails if the read does. The line, its number and the character that the
cursor stands on are kept then, but the column is not: each failure moves it on by one, so that what is
reported afterwards is located behind the character. The next move that succeeds begins a line, and with it
the column anew.

- `Cursor.after c n`: the cursor after `n` moves.
- `Cursor.FailsRead c`: the next move fails because a read does.
- `Cursor.Drifts c last k`: nothing has changed but the column, which is `k` further.

Main statements: `Cursor.drifts_of_failures`, and `Cursor.not_position_kept` for what does not hold.
-/

namespace MiniLex

namespace Cursor

/-- The cursor after so many moves, of which some may have failed. -/
def after (c : Cursor) : Nat → Cursor
  | 0 => c
  | n + 1 => (c.after n).arrive.2

/-- The next move has to read a line, and the read fails. -/
def FailsRead (c : Cursor) : Prop :=
  ∃ halt message, c.advance = .error halt ∧ halt.diagnostic.cause = .readFailed message

/-- All that can be seen of two cursors is the same, but for the column, which is further on by `k`. -/
structure Drifts (c last : Cursor) (k : Nat) : Prop where
  line : last.line = c.line
  lineNumber : last.lineNumber = c.lineNumber
  exhausted : last.isExhausted = c.isExhausted
  lookahead : last.lookahead = c.lookahead
  column : last.column = c.column + k

namespace Drifts

variable {c c' last : Cursor} {k l : Nat}

theorem refl (c : Cursor) : c.Drifts c 0 :=
  ⟨rfl, rfl, rfl, rfl, rfl⟩

theorem trans (h : c.Drifts c' k) (h' : c'.Drifts last l) : c.Drifts last (k + l) := by
  constructor
  · rw [h'.line, h.line]
  · rw [h'.lineNumber, h.lineNumber]
  · rw [h'.exhausted, h.exhausted]
  · rw [h'.lookahead, h.lookahead]
  · rw [h'.column, h.column, Nat.add_assoc]

/-- What is reported afterwards shows the same line, and a place as much further on. -/
theorem diagnostic (h : c.Drifts last k) (cause : Cause) :
    last.diagnostic cause = ⟨cause, ⟨c.lineNumber, c.column + k⟩, String.ofList c.line⟩ := by
  rw [Cursor.diagnostic, Cursor.position, h.line, h.lineNumber, h.column]

end Drifts

variable {c : Cursor} {k : Nat}

/-- A read that fails is made on a line feed, which the cursor is kept on. -/
theorem FailsRead.drifts (h : c.FailsRead) : c.Drifts c.arrive.2 1 ∧ c.arrive.2.rest = [] := by
  obtain ⟨halt, message, hadvance, hcause⟩ := h
  have harrive : c.arrive.2 = halt.cursor := by
    rw [arrive, hadvance]
  have hmoved := moved c
  rw [harrive]
  rw [hadvance] at hmoved
  cases hmoved with
  | failed pending rest =>
    refine ⟨⟨rfl, rfl, ?_, ?_, rfl⟩, rest⟩
    · simp [isExhausted, pending]
    · simp [lookahead, isExhausted, pending]
  | pastEnd pending => cases hcause

/-- A move from a line feed comes to the first column, if it does not fail. -/
theorem column_of_advance {next : Cursor} (hrest : c.rest = []) (h : c.advance = .ok next) :
    next.column = 1 := by
  have hmoved := moved c
  rw [h] at hmoved
  cases hmoved with
  | skip _ rest => exact absurd hrest rest
  | line _ _ | ended _ _ => rfl

/-- However many reads fail in a row, from whichever cursor: the line, its number, the character that the
cursor stands on and whether the source is used up are the same as before, and so is what a diagnostic
shows, but for the column, which each failure moves on by one. The next move that succeeds comes to the
first column. -/
theorem drifts_of_failures (h : ∀ i < k, (c.after i).FailsRead) :
    c.Drifts (c.after k) k ∧
      (∀ cause, (c.after k).diagnostic cause =
        ⟨cause, ⟨c.lineNumber, c.column + k⟩, String.ofList c.line⟩) ∧
      (0 < k → ∀ next, (c.after k).advance = .ok next → next.column = 1) := by
  have hdrifts : c.Drifts (c.after k) k := by
    induction k with
    | zero => exact .refl c
    | succ k ih =>
      have hbefore := ih fun i hi => h i (Nat.lt_succ_of_lt hi)
      exact hbefore.trans (h k (Nat.lt_succ_self k)).drifts.1
  refine ⟨hdrifts, hdrifts.diagnostic, ?_⟩
  intro hpos next hnext
  obtain ⟨k, rfl⟩ := Nat.exists_eq_succ_of_ne_zero (Nat.pos_iff_ne_zero.mp hpos)
  exact column_of_advance (h k (Nat.lt_succ_self k)).drifts.2 hnext

/-- Two reads that fail after the first line. -/
theorem drifts_of_two_failures :
    let reads := LineRead.ofEvents [.chunk [0x61, 0x0A], .failed "lost", .failed "lost", .chunk [0x62]]
    let c := (start reads).after 2
    (∀ i < 2, (c.after i).FailsRead) ∧ c.Drifts (c.after 2) 2 ∧
      (∀ cause, (c.after 2).diagnostic cause =
        ⟨cause, ⟨c.lineNumber, c.column + 2⟩, String.ofList c.line⟩) ∧
      (0 < 2 → ∀ next, (c.after 2).advance = .ok next → next.column = 1) := by
  intro reads c
  have hfails : ∀ i < 2, (c.after i).FailsRead := by
    intro i hi
    interval_cases i <;> exact ⟨_, "lost", rfl, rfl⟩
  exact ⟨hfails, drifts_of_failures hfails⟩

/-- A read that fails does not keep the place of the character that was reached last. -/
theorem not_position_kept :
    ¬ ∀ (events : List ReadEvent) (n : Nat), ((start (LineRead.ofEvents events)).after n).FailsRead →
        ((start (LineRead.ofEvents events)).after (n + 1)).position =
          ((start (LineRead.ofEvents events)).after n).position := by
  intro hkept
  have hplace := hkept [.chunk [0x61, 0x0A], .failed "lost"] 2 ⟨_, "lost", rfl, rfl⟩
  exact absurd hplace (by decide)

end Cursor

end MiniLex
