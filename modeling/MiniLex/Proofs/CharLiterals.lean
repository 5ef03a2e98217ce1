import MiniLex.Proofs.Layout
import MiniLex.Proofs.LineLooks
import MiniLex.Proofs.Outcomes

/-!
# How character literals are scanned

One logical character comes behind the quote that opens a character literal, and then the quote that
closes it. Where the line ends too early, there is no token: what was opened is dropped and reported, and
the line feed is left. Where another character comes in place of the closing quote, that is reported, but
the token is made all the same, with its closing quote, and the other character is left.

All of it happens on one line, so it is the same for every source, whatever the reads after that line come
to.

- `EndsEarly cs`: the line ends before a logical character is complete.
- `logicalChar cs`: the logical character that `cs` begins with.
- `Cursor.DropsOpener`, `Cursor.ClosesChar`: what comes of a literal whose line ends too early, and of one
  that is not closed.
- `Cursor.StaysOnLine`: a look does not fail and consumes no line feed.

Main statement: `Cursor.Seen.takes_char`.
-/

namespace MiniLex

/-! ## Logical characters -/

/-- The line ends before a logical character is complete. -/
def EndsEarly (cs : List Char) : Prop :=
  ['\n'] <+: cs ∨ ['\\', '\n'] <+: cs

instance (cs : List Char) : Decidable (EndsEarly cs) :=
  inferInstanceAs (Decidable (_ ∨ _))

/-- The logical character that a text begins with: its first character, or a backslash and the character
after it. -/
def logicalChar (cs : List Char) : List Char :=
  if cs.head? = some '\\' then cs.take 2 else cs.take 1

section Logical

variable {r : List Char}

theorem EndsEarly.exists_opener (h : EndsEarly r) :
    ∃ w rest, (w = ['\''] ∨ w = ['\'', '\\']) ∧ '\'' :: r = w ++ '\n' :: rest := by
  rcases h with ⟨rest, rfl⟩ | ⟨rest, rfl⟩
  · exact ⟨['\''], rest, .inl rfl, rfl⟩
  · exact ⟨['\'', '\\'], rest, .inr rfl, rfl⟩

/-- Something comes behind a logical character that is complete: the line feed at the latest. -/
theorem isCharUnit_logicalChar (h : ¬ EndsEarly r) (hfeed : '\n' ∈ r) :
    IsCharUnit (logicalChar r) ∧ ∃ found rest, r = logicalChar r ++ found :: rest := by
  obtain ⟨d, ds, rfl⟩ := List.exists_cons_of_ne_nil (List.ne_nil_of_mem hfeed)
  by_cases hback : d = '\\'
  · subst hback
    have hds : '\n' ∈ ds := by simpa using hfeed
    obtain ⟨e, es, rfl⟩ := List.exists_cons_of_ne_nil (List.ne_nil_of_mem hds)
    have he : e ≠ '\n' := by
      rintro rfl
      exact h (.inr ⟨es, rfl⟩)
    have hes : '\n' ∈ es := by simpa [he.symm] using hds
    obtain ⟨found, rest, rfl⟩ := List.exists_cons_of_ne_nil (List.ne_nil_of_mem hes)
    exact ⟨.escaped he, found, rest, rfl⟩
  · have hd : d ≠ '\n' := by
      rintro rfl
      exact h (.inl ⟨ds, rfl⟩)
    have hds : '\n' ∈ ds := by simpa [hd.symm] using hfeed
    obtain ⟨found, rest, rfl⟩ := List.exists_cons_of_ne_nil (List.ne_nil_of_mem hds)
    have hunit : logicalChar (d :: found :: rest) = [d] := by simp [logicalChar, hback]
    rw [hunit]
    exact ⟨.plain hd hback, found, rest, rfl⟩

end Logical

namespace Cursor

/-! ## Looks at character literals -/

/-- The look drops the quote, with the backslash after it if one comes, and makes no token. One diagnostic is
reported: it is located on the line feed, which is left, and shows it. -/
def DropsOpener (c : Cursor) (reads : List LineRead) : Prop :=
  ∃ before w rest, delivered reads = before ++ c.stream ∧ (w = ['\''] ∨ w = ['\'', '\\']) ∧
    c.Passes w [.between (before ++ w) ('\n' :: rest) (.expectedCharacter '\'' (some '\n'))] ∧
      c.turn.cursor.stream = '\n' :: rest ∧ c.turn.cursor.lookahead = some '\n'

/-- The scan takes the quote and the logical character `unit` for a character literal, and its token has the
closing quote that does not come. One diagnostic is reported: it is located on the character that comes in its
place, which is left, and shows it. -/
structure ClosesChar (c : Cursor) (reads : List LineRead) (unit : List Char) (found : Char) (rest : List Char) :
    Prop where
  answer : c.scan.answer = .ok (.spelled .charLiteral ('\'' :: unit ++ ['\'']))
  reported : ∃ before, delivered reads = before ++ c.stream ∧
    c.scan.notes.filterMap Note.diagnostic? =
      [.between (before ++ '\'' :: unit) (found :: rest) (.expectedCharacter '\'' (some found))]
  stream : c.stream = '\'' :: unit ++ c.scan.cursor.stream
  ahead : c.scan.cursor.stream = found :: rest
  lookahead : c.scan.cursor.lookahead = some found

/-- A look does not fail, and what it consumes holds no line feed: the cursor is moved on within its line, and
nothing is read. -/
structure StaysOnLine (c : Cursor) : Prop where
  unfailing : ∀ d, c.turn.answer ≠ some (.error d)
  consumed : ∃ w, '\n' ∉ w ∧ c.stream = w ++ c.turn.cursor.stream ∧ c.turn.cursor = c.skip w.length

section Looks

variable {reads : List LineRead} {before unit r rest : List Char} {found : Char} {c : Cursor}

theorem Follows.staysOnLine (hreads : Feedless reads) (h : c.Follows reads before) {s : Segment}
    (hfits : s.Fits rest) (hs : c.stream = s.text ++ rest) (hfeed : '\n' ∉ s.text) : c.StaysOnLine := by
  obtain ⟨hanswer, -, hcursor, hrest⟩ := h.turn_of_feedless hreads hfits hs hfeed
  constructor
  · intro d
    rw [hanswer]
    cases s.token? <;> simp
  · exact ⟨s.text, hfeed, by rw [hs, hrest], hcursor⟩

/-- What is opened is dropped where the line ends too early. -/
theorem Follows.dropsOpener (hreads : Feedless reads) (h : c.Follows reads before) (hr : c.stream = '\'' :: r)
    (hends : EndsEarly r) : c.DropsOpener reads ∧ c.StaysOnLine := by
  obtain ⟨w, rest, hw, hcut⟩ := hends.exists_opener
  have hfits : (Segment.opener w).Fits ('\n' :: rest) := .opener hw rfl
  have hs : c.stream = w ++ '\n' :: rest := hr.trans hcut
  have hfeed : '\n' ∉ w := by rcases hw with rfl | rfl <;> decide
  obtain ⟨hanswer, hreported, -, hrest⟩ := h.turn_of_feedless hreads hfits hs hfeed
  rw [Segment.reports_behind rfl] at hreported
  refine ⟨⟨before, w, rest, h.stream, hw, ?_, hrest, ?_⟩, h.staysOnLine hreads hfits hs hfeed⟩
  · exact .of_turn hanswer hreported hs hrest
  · rw [lookahead_eq_head?, hrest]
    rfl

/-- A literal that is closed is taken with its closing quote. -/
theorem Follows.takes_closed_char (hreads : Feedless reads) (h : c.Follows reads before)
    (hunit : IsCharUnit unit) (hs : c.stream = '\'' :: unit ++ '\'' :: rest) :
    (c.Takes (.spelled .charLiteral ('\'' :: unit ++ ['\''])) ('\'' :: unit ++ ['\'']) ∧
      c.scan.cursor.stream = rest) ∧ c.StaysOnLine := by
  have hliteral : IsCharLiteral ('\'' :: unit ++ ['\'']) := ⟨unit, hunit, rfl⟩
  have hfits := hliteral.fits rest
  have hs : c.stream = '\'' :: unit ++ ['\''] ++ rest := by simpa using hs
  obtain ⟨hanswer, hreported, -, hrest⟩ := h.turn_of_feedless hreads hfits hs hliteral.feed_not_mem
  rw [(Lexeme.char hliteral).reports] at hreported
  refine ⟨⟨.of_turn (.char hliteral) hanswer hreported hs hrest, ?_⟩, ?_⟩
  · rw [scan_of_answer hanswer]
    exact hrest
  · exact h.staysOnLine hreads hfits hs hliteral.feed_not_mem

/-- A literal that is not closed is taken without the character that comes in place of its closing quote. -/
theorem Follows.closesChar (hreads : Feedless reads) (h : c.Follows reads before) (hunit : IsCharUnit unit)
    (hs : c.stream = '\'' :: unit ++ found :: rest) (hfound : found ≠ '\'') :
    c.ClosesChar reads unit found rest ∧ c.StaysOnLine := by
  have hquote : (found :: rest).head? ≠ some '\'' := by simpa using hfound
  have hfits := Segment.Fits.unclosed hunit hquote
  have hfeed : '\n' ∉ '\'' :: unit := by simp [hunit.feed_not_mem]
  obtain ⟨hanswer, hreported, -, hrest⟩ := h.turn_of_feedless hreads hfits hs hfeed
  have hscan := scan_of_answer hanswer
  refine ⟨?_, h.staysOnLine hreads hfits hs hfeed⟩
  constructor
  · rw [hscan]
  · refine ⟨before, h.stream, ?_⟩
    rw [hscan]
    show c.turn.reported = _
    rw [hreported, Segment.reports_behind (Segment.fault_unclosed unit _)]
    rfl
  · rw [hscan, hs, hrest]
  · rw [hscan, hrest]
  · rw [hscan, lookahead_eq_head?, hrest]
    rfl

/-- A literal whose logical character is complete is taken, closed or not. -/
theorem Follows.takes_unit (hreads : Feedless reads) (h : c.Follows reads before) (hr : c.stream = '\'' :: r)
    (hends : ¬ EndsEarly r) :
    IsCharUnit (logicalChar r) ∧
      (∃ found rest, r = logicalChar r ++ found :: rest ∧
        (found = '\'' →
          c.Takes (.spelled .charLiteral ('\'' :: logicalChar r ++ ['\''])) ('\'' :: logicalChar r ++ ['\'']) ∧
            c.scan.cursor.stream = rest) ∧
        (found ≠ '\'' → c.ClosesChar reads (logicalChar r) found rest)) ∧
      c.StaysOnLine := by
  have hfeed : '\n' ∈ r := by
    have hmem := feed_mem_of_delivered h.stream (by simp [hr])
    simpa [hr] using hmem
  obtain ⟨hunit, found, rest, hcut⟩ := isCharUnit_logicalChar hends hfeed
  have hs : c.stream = '\'' :: logicalChar r ++ found :: rest := by
    rw [hr, List.cons_append, ← hcut]
  refine ⟨hunit, ?_⟩
  by_cases hquote : found = '\''
  · subst hquote
    obtain ⟨htakes, hstays⟩ := h.takes_closed_char hreads hunit hs
    exact ⟨⟨_, rest, hcut, fun _ => htakes, fun hne => absurd rfl hne⟩, hstays⟩
  · obtain ⟨hcloses, hstays⟩ := h.closesChar hreads hunit hs hquote
    exact ⟨⟨found, rest, hcut, fun heq => absurd heq hquote, fun _ => hcloses⟩, hstays⟩

end Looks

/-- Wherever the run of a scanner comes to a quote that opens a character literal, whatever the source: if the
line ends before the logical character is complete, what was opened is dropped and reported at the line feed.
Otherwise the literal is taken, and reported if another character comes in place of its closing quote. Its
spelling holds no line feed and is scanned to the same token again. In no case does the look fail or consume a
line feed. -/
theorem Seen.takes_char {reads : List LineRead} {c : Cursor} {r : List Char} (hreads : Feedless reads)
    (h : Seen reads c) (hr : c.stream = '\'' :: r) :
    let unit := logicalChar r
    let literal := '\'' :: unit ++ ['\'']
    let t := Token.spelled .charLiteral literal
    (EndsEarly r → c.DropsOpener reads) ∧
      (¬ EndsEarly r →
        (∃ found rest, r = unit ++ found :: rest ∧
          (found = '\'' → c.Takes t literal ∧ c.scan.cursor.stream = rest) ∧
            (found ≠ '\'' → c.ClosesChar reads unit found rest)) ∧
          '\n' ∉ literal ∧ tokenize literal = ⟨.ok [t, .eof], []⟩) ∧
      c.StaysOnLine := by
  intro unit literal t
  obtain ⟨before, hfollows⟩ := h.follows hreads
  refine ⟨fun hends => (hfollows.dropsOpener hreads hr hends).1, fun hends => ?_, ?_⟩
  · obtain ⟨hunit, htakes, -⟩ := hfollows.takes_unit hreads hr hends
    have hliteral : IsCharLiteral literal := ⟨unit, hunit, rfl⟩
    have hagain : tokenize literal = ⟨.ok [t, .eof], []⟩ := (Lexeme.char hliteral).tokenize_eq hliteral.feed_not_mem
    exact ⟨htakes, hliteral.feed_not_mem, hagain⟩
  · by_cases hends : EndsEarly r
    · exact (hfollows.dropsOpener hreads hr hends).2
    · exact (hfollows.takes_unit hreads hr hends).2.2

/-- A quote that is the logical character of a literal which is not closed, and one behind which only a
backslash is left on the line. The read of the next line fails. -/
theorem Seen.takes_char_before_failure :
    let reads := LineRead.ofEvents [.chunk [0x27, 0x27, 0x78, 0x27, 0x5C, 0x0A], .failed "lost"]
    let line := ['\'', '\'', 'x', '\'', '\\']
    let c : Cursor := ⟨some [.failed "lost"], line, line, 1, 1⟩
    let last : Cursor := ⟨some [.failed "lost"], line, ['\'', '\\'], 1, 4⟩
    let literal := ['\'', '\'', '\'']
    Feedless reads ∧
      (Seen reads c ∧ c.stream = '\'' :: ['\'', 'x', '\'', '\\', '\n'] ∧
        c.ClosesChar reads ['\''] 'x' ['\'', '\\', '\n'] ∧
          tokenize literal = ⟨.ok [.spelled .charLiteral literal, .eof], []⟩) ∧
      Seen reads last ∧ last.stream = '\'' :: ['\\', '\n'] ∧ last.DropsOpener reads ∧ last.StaysOnLine := by
  intro reads line c last literal
  have hreads : Feedless reads := LineRead.feedless_ofEvents _
  have hseen : Seen reads c := .first (by decide)
  have hlast : Seen reads last := by
    have hturn : c.turn.cursor.turn.cursor = last := by decide
    exact hturn ▸ hseen.turn.turn
  obtain ⟨-, hliteral, -⟩ := hseen.takes_char hreads (r := ['\'', 'x', '\'', '\\', '\n']) rfl
  obtain ⟨⟨found, rest, hcut, -, hcloses⟩, -, hagain⟩ := hliteral (by decide)
  obtain ⟨rfl, rfl⟩ : 'x' = found ∧ ['\'', '\\', '\n'] = rest := List.cons.inj (List.cons.inj hcut).2
  obtain ⟨hdrops, -, hstays⟩ := hlast.takes_char hreads (r := ['\\', '\n']) rfl
  exact ⟨hreads, ⟨hseen, rfl, hcloses (by decide), hagain⟩, hlast, rfl, hdrops (by decide), hstays⟩

end Cursor

end MiniLex
