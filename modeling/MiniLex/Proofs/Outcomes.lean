import MiniLex.Proofs.LongestMatch

/-!
# What comes of the segment ahead

A look whose segment makes no token lets the scan go on, and a look that finds no end of what is opened
ends it. Both are said here of the scan that the look is made for, as `Cursor.Takes` says it of a look
that makes a token.

- `Cursor.Passes c w ds`: a look passes the text `w`, reports `ds` and makes no token.
- `Cursor.RunsOut c lines`: a look comes to the end of a source of so many lines, and the scan fails.
- `Cursor.Seen.takes_of_fits`, `Cursor.Seen.passes_of_fits`, `Cursor.Seen.runsOut_of_unterminated`: which
  of them comes of the segment ahead, wherever the run of a scanner looks at a text.
-/

namespace MiniLex

namespace Cursor

/-- A look passes the text `w`, reports `ds` and makes no token. The scan goes on with the character right
after the text. -/
structure Passes (c : Cursor) (w : List Char) (ds : List Diagnostic) : Prop where
  answer : c.turn.answer = none
  reported : c.turn.reported = ds
  stream : c.stream = w ++ c.turn.cursor.stream
  lookahead : c.turn.cursor.lookahead = (c.stream.drop w.length).head?
  /-- The answer of the scan is found from there on. -/
  later : c.scan.answer = c.turn.cursor.scan.answer ∧ c.scan.cursor = c.turn.cursor.scan.cursor
  laterReported : c.scan.notes.filterMap Note.diagnostic? =
    ds ++ c.turn.cursor.scan.notes.filterMap Note.diagnostic?

/-- A scan comes to the end of a source of so many lines and fails there. Nothing is reported, and the
source is used up. -/
structure RunsOut (c : Cursor) (lines : Nat) : Prop where
  answer : c.scan.answer = .error ⟨.readPastEnd, ⟨lines, 1⟩, ""⟩
  quiet : c.scan.notes.filterMap Note.diagnostic? = []
  exhausted : c.scan.cursor.isExhausted = true

/-- A look that makes no token passes what it leaves behind, and the scan goes on from there. -/
theorem Passes.of_turn {c : Cursor} {w rest : List Char} {ds : List Diagnostic} (hanswer : c.turn.answer = none)
    (hreported : c.turn.reported = ds) (hs : c.stream = w ++ rest) (hrest : c.turn.cursor.stream = rest) :
    c.Passes w ds := by
  have hscan := scan_of_none hanswer
  constructor
  · exact hanswer
  · exact hreported
  · rw [hs, hrest]
  · rw [hs, List.drop_left, lookahead_eq_head?, hrest]
  · rw [hscan]
    exact ⟨rfl, rfl⟩
  · rw [hscan, ← hreported]
    exact List.filterMap_append

section Looks

variable {reads : List LineRead} {before : List Char} {c : Cursor}

/-- A look passes the segment that comes next, if the segment makes no token. -/
theorem Follows.passes_of_fits (hreads : Feedless reads) (hfail : Unfailing reads)
    (h : c.Follows reads before) {s : Segment} {rest : List Char} (hs : c.stream = s.text ++ rest)
    (hfits : s.Fits rest) (htoken : s.token? = none) : c.Passes s.text (s.reports before rest) := by
  obtain ⟨hanswer, hreported, hrest, -⟩ := h.turn_of_fits hreads hfail hs hfits
  rw [htoken] at hanswer
  exact .of_turn hanswer hreported hs hrest

/-- A look at a text that is not closed comes to the end of the source. -/
theorem Follows.runsOut_of_unterminated (hreads : Feedless reads) (hfail : Unfailing reads)
    (h : c.Follows reads before) (hopen : Unterminated c.stream) :
    c.RunsOut ((delivered reads).count '\n') := by
  obtain ⟨hanswer, hreported, hx⟩ := h.turn_of_unterminated hreads hfail hopen
  have hscan := scan_of_answer hanswer
  constructor
  · rw [hscan]
  · rw [hscan]
    exact hreported
  · rw [hscan]
    exact hx

end Looks

/-! ## Looks at a text -/

section Texts

variable {text rest : List Char} {c : Cursor}

/-- The scan takes the token that comes next, if its segment is all of its lexeme. -/
theorem Seen.takes_of_fits (h : Seen (LineRead.ofText text) c) {t : Token} {w : List Char}
    (hs : c.stream = w ++ rest) (hlexeme : Lexeme t w) (hfits : (Segment.token t w).Fits rest) :
    c.Takes t w ∧ c.scan.cursor.stream = rest := by
  have hreads := LineRead.feedless_ofText text
  obtain ⟨before, hfollows⟩ := h.follows hreads
  have htakes := hfollows.takes_of_fits hreads (LineRead.unfailing_ofText text) hs hlexeme hfits
  refine ⟨htakes, ?_⟩
  have hboth := htakes.stream
  rw [hs] at hboth
  exact (List.append_cancel_left hboth).symm

/-- The look passes the segment that comes next, if it makes no token. -/
theorem Seen.passes_of_fits (h : Seen (LineRead.ofText text) c) {s : Segment}
    (hs : c.stream = s.text ++ rest) (hfits : s.Fits rest) (htoken : s.token? = none) :
    ∃ before, canonical text = before ++ c.stream ∧ c.Passes s.text (s.reports before rest) ∧
      c.turn.cursor.stream = rest := by
  have hreads := LineRead.feedless_ofText text
  obtain ⟨before, hfollows⟩ := h.follows hreads
  have hpasses := hfollows.passes_of_fits hreads (LineRead.unfailing_ofText text) hs hfits htoken
  refine ⟨before, hfollows.stream, hpasses, ?_⟩
  have hboth := hpasses.stream
  rw [hs] at hboth
  exact (List.append_cancel_left hboth).symm

/-- The look comes to the end of the source, if what comes next is not closed. -/
theorem Seen.runsOut_of_unterminated (h : Seen (LineRead.ofText text) c) (hopen : Unterminated c.stream) :
    c.RunsOut (lineCount text) := by
  have hreads := LineRead.feedless_ofText text
  obtain ⟨before, hfollows⟩ := h.follows hreads
  have hruns := hfollows.runsOut_of_unterminated hreads (LineRead.unfailing_ofText text) hopen
  rwa [← canonical, count_canonical] at hruns

end Texts

end Cursor

end MiniLex
