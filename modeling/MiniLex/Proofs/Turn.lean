import MiniLex.Proofs.Front
import MiniLex.Proofs.Place
import MiniLex.Token.Scan

/-!
# What one look comes to

Each look at the source passes one segment, whatever comes next, unless the source ends within a
string literal or a block comment, or a read fails.

- `Unterminated`: a text that opens a string literal or a block comment and does not close it.
- `Cursor.Turned`: the four things that a look can come to, with all that is known of each.
- `Cursor.Follows.turned`: every look comes to one of them.
-/

namespace MiniLex

/-! ## Texts that are not closed -/

/-- A text that opens a string literal or a block comment and does not close it. -/
inductive Unterminated : List Char → Prop where
  | string {cs : List Char} (quote : ∀ body rest, IsStringBody body → cs ≠ body ++ '"' :: rest) :
      Unterminated ('"' :: cs)
  | comment {cs : List Char} (slash : ¬ ['*', '/'] <:+: cs) : Unterminated ('/' :: '*' :: cs)

/-- The first star and slash of a text. -/
theorem exists_first_close {cs : List Char} (h : ['*', '/'] <:+: cs) :
    ∃ body rest, ¬ ['*', '/'] <:+: body ∧ cs = body ++ '*' :: '/' :: rest := by
  induction cs with
  | nil => simp at h
  | cons c cs ih =>
    by_cases hfirst : ['*', '/'] <+: c :: cs
    · obtain ⟨rest, hrest⟩ := hfirst
      exact ⟨[], rest, by simp, hrest.symm⟩
    · obtain ⟨body, rest, hbody, rfl⟩ := ih ((List.infix_cons_iff.mp h).resolve_left hfirst)
      refine ⟨c :: body, rest, not_closed_cons.mpr ⟨?_, hbody⟩, rfl⟩
      rintro ⟨rfl, hhead⟩
      obtain ⟨ds, rfl⟩ := List.head?_eq_some_iff.mp hhead
      exact hfirst ⟨ds ++ '*' :: '/' :: rest, rfl⟩

theorem unterminated_string {cs : List Char} (h : cutAtClosing closesString false cs = none) :
    Unterminated ('"' :: cs) := by
  refine .string fun body rest hbody heq => ?_
  rw [heq, cut_of_isStringBody hbody] at h
  cases h

theorem unterminated_comment {cs : List Char} (h : cutAtClosing closesComment false cs = none) :
    Unterminated ('/' :: '*' :: cs) := by
  refine .comment fun hclose => ?_
  obtain ⟨body, rest, hbody, rfl⟩ := exists_first_close hclose
  have hcut : cutAtClosing closesComment false (body ++ '*' :: '/' :: rest) =
      some (body ++ ['*'], '/' :: rest) :=
    cut_of_not_closed rest hbody
  rw [hcut] at h
  cases h

/-- A segment that begins with a double quote or a slash is a comment or a lexeme. -/
theorem Segment.Fits.of_opener {s : Segment} {c : Char} {rest cs : List Char} (h : s.Fits rest)
    (hcs : s.text ++ rest = c :: cs) (hc : c = '"' ∨ c = '/') :
    (∃ text, s = .comment text ∧ IsComment text) ∨
      ∃ t text, s = .token t text ∧ Longest t text (text ++ rest) ∧ ¬ OpensComment (text ++ rest) := by
  cases h with
  | comment comment => exact .inl ⟨_, rfl, comment⟩
  | token longest comment _ => exact .inr ⟨_, _, rfl, longest, comment⟩
  | @blank d _ space =>
    obtain rfl : d = c := (List.cons.inj hcs).1
    rcases hc with rfl | rfl <;> exact absurd space (by unfold IsSpace; decide)
  | unclosed _ _ =>
    obtain rfl : '\'' = c := (List.cons.inj hcs).1
    exact absurd hc (by decide)
  | @illegal d _ illegal =>
    obtain rfl : d = c := (List.cons.inj hcs).1
    rcases hc with rfl | rfl
    · exact absurd rfl (illegal.ne (.string ⟨[], .nil, rfl⟩))
    · exact absurd rfl illegal.ne_openers.1
  | @lone d _ half _ =>
    obtain rfl : d = c := (List.cons.inj hcs).1
    rcases hc with rfl | rfl <;> exact absurd half (by decide)
  | number mantissa _ _ _ =>
    obtain ⟨d, ds, rfl, hnumber⟩ := mantissa.head
    obtain rfl : d = c := (List.cons.inj hcs).1
    rcases hc with rfl | rfl <;> exact absurd hnumber (by decide)
  | opener opener _ =>
    obtain rfl : '\'' = c := by rcases opener with rfl | rfl <;> exact (List.cons.inj hcs).1
    exact absurd hc (by decide)

/-- A segment closes what it opens. -/
theorem Segment.Fits.not_unterminated {s : Segment} {rest : List Char} (h : s.Fits rest) :
    ¬ Unterminated (s.text ++ rest) := by
  intro hopen
  generalize hcs : s.text ++ rest = cs at hopen
  cases hopen with
  | string quote =>
    rcases h.of_opener hcs (.inl rfl) with ⟨text, rfl, hcomment⟩ | ⟨t, text, rfl, hlongest, -⟩
    · have hslash := (hcomment.opens rest).head
      rw [show text ++ rest = _ from hcs] at hslash
      exact absurd hslash (by simp)
    · have hbegins := hlongest.begins
      rw [show text ++ rest = _ from hcs] at hbegins
      obtain ⟨⟨body, hbody, rfl⟩, -⟩ : IsStringLiteral text ∧ _ :=
        hlongest.lexeme.family_of_begins hbegins
      refine quote body rest hbody ?_
      simpa [Segment.text] using hcs.symm
  | comment slash =>
    rcases h.of_opener hcs (.inr rfl) with ⟨text, rfl, hcomment⟩ | ⟨t, text, rfl, -, hopens⟩
    · cases hcomment with
      | @block body _ =>
        obtain rfl : body ++ '*' :: '/' :: rest = _ := by simpa [Segment.text] using hcs
        exact slash ⟨body, rest, by simp⟩
      | line _ => simp [Segment.text] at hcs
    · refine hopens (.inl ?_)
      rw [show text ++ rest = _ from hcs]
      exact ⟨_, rfl⟩

/-! ## Moves -/

namespace Turn

@[simp] theorem notes_ofMove (moved : Except Halt Cursor) : (ofMove moved).notes = [] := by
  cases moved <;> rfl

end Turn

/-! ## Diagnostics at the cursor -/

namespace Cursor

namespace Follows

variable {reads : List LineRead} {before : List Char} {c : Cursor}

theorem diagnostic_eq (h : c.Follows reads before) (hx : c.isExhausted = false)
    (hcolumn : c.column = (lastLine before).length + 1) (cause : Cause) :
    c.diagnostic cause = .between before c.stream cause := by
  obtain ⟨rs, hp⟩ := exists_pending hx
  have hline : c.stream.takeWhile (· != '\n') = c.rest := by
    rw [stream_of_pending hp]
    exact takeWhile_append_of_stops (bne_of_not_mem h.feed_not_mem_rest) (stops_cons.mpr rfl)
  have hnumber := h.lineNumber
  rw [hx] at hnumber
  simp only [Cursor.diagnostic, Cursor.position, Diagnostic.between, Position.after, hline, h.line,
    hcolumn, hnumber]
  rfl

/-- A diagnostic at a cursor that does not stand on a line feed. -/
theorem diagnostic_here (h : c.Follows reads before) (hx : c.isExhausted = false) (hne : c.rest ≠ [])
    (cause : Cause) : c.diagnostic cause = .between before c.stream cause :=
  h.diagnostic_eq hx (h.column hne) cause

/-- A diagnostic after a text that was skipped. The line feed may be next. -/
theorem diagnostic_skip (h : c.Follows reads before) {w cs : List Char} (hw : c.stream = w ++ cs)
    (hfeed : '\n' ∉ w) (hne : w ≠ []) (cause : Cause) :
    (c.skip w.length).diagnostic cause = .between (before ++ w) cs cause := by
  obtain ⟨rest, rs, hp, hrest, -⟩ := h.exists_rest hw hfeed hne
  obtain ⟨hstream, hfollows⟩ := h.skip hw hfeed hne
  have hx : (c.skip w.length).isExhausted = false := by rw [isExhausted_skip, isExhausted, hp]; rfl
  have hcolumn : (c.skip w.length).column = (lastLine (before ++ w)).length + 1 := by
    have hcol := h.column (by rw [hrest]; simp [hne])
    show c.column + w.length = _
    rw [hcol, lastLine_append hfeed, List.length_append]
    omega
  rw [hfollows.diagnostic_eq hx hcolumn, hstream]

end Follows

/-! ## The four outcomes of a look -/

/-- What one look comes to, for a cursor that comes right after `before`. -/
inductive Turned (reads : List LineRead) (before : List Char) (c : Cursor) : Turn → Prop where
  /-- The source has ended already. -/
  | ended (exhausted : c.isExhausted = true) : Turned reads before c ⟨[], some (.ok .eof), c⟩
  /-- The segment that comes next is passed, and its diagnostics are reported. -/
  | passed {s : Segment} {notes : List Note} {next : Cursor} (stream : c.stream = s.text ++ next.stream)
      (fits : s.Fits next.stream) (follows : next.Follows reads (before ++ s.text))
      (reported : notes.filterMap Note.diagnostic? = s.reports before next.stream) :
      Turned reads before c ⟨notes, s.token?.map .ok, next⟩
  /-- The source ends within a string literal or a block comment. -/
  | unterminated {last : Cursor} (opened : Unterminated c.stream) (exhausted : last.isExhausted = true)
      (follows : last.Follows reads (before ++ c.stream)) :
      Turned reads before c ⟨[], some (.error (last.diagnostic .readPastEnd)), last⟩
  /-- A read fails. -/
  | interrupted {halt : Halt} {skipped : List Char} (failed : halt.IsFailedRead reads)
      (stream : c.stream = skipped ++ halt.cursor.stream)
      (follows : halt.cursor.Follows reads (before ++ skipped)) :
      Turned reads before c ⟨[], some (.error halt.diagnostic), halt.cursor⟩

namespace Follows

variable {reads : List LineRead} {before : List Char} {c : Cursor}

/-- A look that passes a segment on the line. -/
theorem turned_skip (h : c.Follows reads before) {s : Segment} {cs : List Char} {notes : List Note}
    (hs : c.stream = s.text ++ cs) (hfeed : '\n' ∉ s.text) (hfits : s.Fits cs)
    (hreported : notes.filterMap Note.diagnostic? = s.reports before cs) :
    Turned reads before c ⟨notes, s.token?.map .ok, c.skip s.text.length⟩ := by
  obtain ⟨hstream, hfollows⟩ := h.skip hs hfeed hfits.text_ne_nil
  refine .passed ?_ ?_ hfollows ?_
  · rw [hstream, hs]
  · rwa [hstream]
  · rw [hstream, hreported]

/-- A look that passes `w`, which holds no line feed, and the line feed after it. -/
theorem turned_feed (hreads : Feedless reads) {d : Cursor} {w : List Char} {s : Segment}
    (hd : d.Follows reads (before ++ w)) (hw : c.stream = w ++ d.stream) (hx : d.isExhausted = false)
    (hrest : d.rest = []) (htext : s.text = w ++ ['\n']) (hfits : ∀ cs, s.Fits cs)
    (htoken : s.token? = none) (hfault : ∀ cs, s.fault cs = none) :
    Turned reads before c (.ofMove d.advance) := by
  obtain ⟨rs, hp⟩ := exists_pending hx
  -- to pass the line feed, the next line has to be read
  cases hadvance : d.advance with
  | error halt =>
    obtain ⟨hfailed, hstream, hfollows⟩ := hd.advance_error hx hadvance
    exact .interrupted hfailed (by rw [hw, hstream]) hfollows
  | ok next =>
    obtain ⟨ch, hch, hstream, hfollows⟩ := hd.advance hreads hadvance
    obtain rfl : '\n' = ch := by
      rw [lookahead, hx, hrest] at hch
      exact Option.some.inj hch
    have hturned : Turned reads before c ⟨[], s.token?.map .ok, next⟩ := by
      refine .passed ?_ (hfits _) ?_ ?_
      · rw [hw, hstream, htext, List.append_assoc]
        rfl
      · rwa [htext, ← List.append_assoc]
      · rw [Segment.reports, hfault]
        rfl
    rwa [htoken] at hturned

/-- A passage that fails, after `w` was skipped, is the outcome of a look. -/
theorem turned_halt {σ : Type} {closes : σ → Char → Option σ} {state : σ} (hreads : Feedless reads)
    {d : Cursor} {w : List Char} (hd : d.Follows reads (before ++ w)) (hw : c.stream = w ++ d.stream)
    (hopen : cutAtClosing closes state d.stream = none → Unterminated c.stream) {halt : Halt}
    (hpass : d.passUntil closes state = .error halt) :
    Turned reads before c ⟨[], some (.error halt.diagnostic), halt.cursor⟩ := by
  rcases hd.passUntil_error hreads hpass with
    ⟨hfailed, skipped, hskipped, hlast⟩ | ⟨hcut, hx, hdiagnostic, hlast⟩
  · have hstream : c.stream = w ++ skipped ++ halt.cursor.stream := by
      rw [hw, hskipped, List.append_assoc]
    refine .interrupted hfailed hstream ?_
    rwa [← List.append_assoc]
  · rw [hdiagnostic]
    refine .unterminated (hopen hcut) hx ?_
    rwa [hw, ← List.append_assoc]

/-- A block comment is passed up to the first star and slash after those that open it. -/
theorem passage_of_comment (hreads : Feedless reads) (h : c.Follows reads before) {cs : List Char}
    (hcs : c.stream = '/' :: '*' :: cs) {p : Passage}
    (hpass : (c.skip 2).passUntil closesComment false = .ok p) :
    ∃ body, ¬ ['*', '/'] <:+: body ∧
      c.stream = '/' :: '*' :: body ++ ['*', '/'] ++ (p.cursor.skip 1).stream ∧
        p.cursor.stream.head? = some '/' ∧ p.cursor.Follows reads (before ++ ('/' :: '*' :: body ++ ['*'])) ∧
          (p.cursor.skip 1).Follows reads (before ++ ('/' :: '*' :: body ++ ['*', '/'])) := by
  obtain ⟨hstream, hfollows⟩ : (c.skip 2).stream = cs ∧ (c.skip 2).Follows reads (before ++ ['/', '*']) :=
    h.skip (w := ['/', '*']) hcs (by decide) (by simp)
  obtain ⟨hcut, hp⟩ := hfollows.passUntil_ok hreads hpass
  obtain ⟨hslash, body, hbody, hpassed⟩ := not_closed_of_cut hcut
  have hpassed : p.passed = body ++ ['*'] := hpassed
  obtain ⟨rest, hrest⟩ := List.head?_eq_some_iff.mp hslash
  obtain ⟨hnext, hlast⟩ : (p.cursor.skip 1).stream = rest ∧ (p.cursor.skip 1).Follows reads _ :=
    hp.skip (w := ['/']) hrest (by decide) (by simp)
  rw [hpassed] at hp hlast
  refine ⟨body, hbody, ?_, hslash, ?_, ?_⟩
  · rw [hcs, ← hstream, append_of_cutAtClosing hcut, hrest, hnext, hpassed]
    simp
  · simpa using hp
  · simpa using hlast

/-- The look at a block comment. -/
theorem turned_comment (hreads : Feedless reads) (h : c.Follows reads before) {cs : List Char}
    (hcs : c.stream = '/' :: '*' :: cs) : Turned reads before c c.turnBlockComment := by
  obtain ⟨hstream, hfollows⟩ : (c.skip 2).stream = cs ∧ (c.skip 2).Follows reads (before ++ ['/', '*']) :=
    h.skip (w := ['/', '*']) hcs (by decide) (by simp)
  have hw : c.stream = ['/', '*'] ++ (c.skip 2).stream := by rw [hcs, hstream]; rfl
  unfold turnBlockComment
  cases hpass : (c.skip 2).passUntil closesComment false with
  | error halt =>
    refine turned_halt hreads hfollows hw (fun hcut => ?_) hpass
    rw [hw]
    exact unterminated_comment hcut
  | ok p =>
    obtain ⟨body, hbody, hbehind, -, -, hlast⟩ := h.passage_of_comment hreads hcs hpass
    exact .passed (s := .comment ('/' :: '*' :: body ++ ['*', '/'])) hbehind (.comment (.block hbody))
      hlast rfl

/-- The look at a string literal. -/
theorem turned_string (hreads : Feedless reads) (h : c.Follows reads before) {cs : List Char}
    (hcs : c.stream = '"' :: cs) : Turned reads before c c.turnString := by
  obtain ⟨hstream, hfollows⟩ : (c.skip 1).stream = cs ∧ (c.skip 1).Follows reads (before ++ ['"']) :=
    h.skip (w := ['"']) hcs (by decide) (by simp)
  have hw : c.stream = ['"'] ++ (c.skip 1).stream := by rw [hcs, hstream]; rfl
  unfold turnString
  cases hpass : (c.skip 1).passUntil closesString false with
  | error halt =>
    refine turned_halt hreads hfollows hw (fun hcut => ?_) hpass
    rw [hw]
    exact unterminated_string hcut
  | ok p =>
    obtain ⟨hcut, hp⟩ := hfollows.passUntil_ok hreads hpass
    obtain ⟨hbody, hquote⟩ := isStringBody_of_cut hcut
    have hbody : IsStringBody p.passed := hbody
    obtain ⟨rest, hrest⟩ := List.head?_eq_some_iff.mp hquote
    obtain ⟨hnext, hlast⟩ : (p.cursor.skip 1).stream = rest ∧ (p.cursor.skip 1).Follows reads _ :=
      hp.skip (w := ['"']) hrest (by decide) (by simp)
    have hliteral : IsStringLiteral ('"' :: p.passed ++ ['"']) := ⟨p.passed, hbody, rfl⟩
    refine .passed (s := .token _ ('"' :: p.passed ++ ['"'])) ?_ ?_ ?_ ?_
    · rw [hw, append_of_cutAtClosing hcut, hrest, hnext]
      simp [Segment.text]
    · exact hliteral.fits _
    · simpa [Segment.text] using hlast
    · rw [(Lexeme.string hliteral).reports]
      rfl

/-- The look at a line comment. -/
theorem turned_line (hreads : Feedless reads) (h : c.Follows reads before) (hx : c.isExhausted = false)
    (hopens : ['/', '/'] <+: c.rest) :
    Turned reads before c (.ofMove (c.skip c.rest.length).advance) := by
  obtain ⟨rs, hp⟩ := exists_pending hx
  obtain ⟨body, hbody⟩ := hopens
  have hne : c.rest ≠ [] := by rw [← hbody]; simp
  obtain ⟨hstream, hfollows⟩ := h.skip (stream_of_pending hp) h.feed_not_mem_rest hne
  have hcomment : IsComment (c.rest ++ ['\n']) := by
    have hfeed := h.feed_not_mem_rest
    rw [← hbody] at hfeed ⊢
    exact .line fun hmem => hfeed (List.mem_append_right _ hmem)
  refine turned_feed hreads (s := .comment (c.rest ++ ['\n'])) hfollows ?_ hx ?_ rfl
    (fun _ => .comment hcomment) rfl fun _ => rfl
  · rw [hstream, stream_of_pending hp]
  · simp [Cursor.skip]

/-- Every look comes to one of four outcomes. -/
theorem turned (hreads : Feedless reads) (h : c.Follows reads before) : Turned reads before c c.turn := by
  by_cases hx : c.isExhausted = true
  · rw [turn, if_pos hx]
    exact .ended hx
  rw [turn, if_neg hx]
  rw [Bool.not_eq_true] at hx
  obtain ⟨rs, hp⟩ := exists_pending hx
  have hstream := stream_of_pending hp
  have hfeed := h.feed_not_mem_rest
  have hspec := Front.spec_of (delivered rs) hfeed
  -- a segment that ends on the line
  have hskip : ∀ (s : Segment) (rest : List Char), c.rest = s.text ++ rest →
      c.stream = s.text ++ (rest ++ '\n' :: delivered rs) ∧ '\n' ∉ s.text := by
    intro s rest hrest
    rw [hrest] at hstream hfeed
    exact ⟨by rw [hstream, List.append_assoc], fun hmem => hfeed (List.mem_append_left _ hmem)⟩
  generalize Front.of c.rest = front at hspec
  cases front with
  | lineEnd =>
    have hnil : c.rest = [] := hspec
    refine turned_feed hreads (w := []) (s := .blank '\n') ?_ rfl hx hnil rfl
      (fun _ => .blank (by simp [IsSpace])) rfl fun _ => rfl
    rwa [List.append_nil]
  | spacing =>
    obtain ⟨ch, rest, hrest, hspace⟩ := hspec
    obtain ⟨hs, hline⟩ := hskip (.blank ch) rest hrest
    exact h.turned_skip hs hline (.blank hspace) rfl
  | lineComment =>
    exact h.turned_line hreads hx hspec
  | blockComment =>
    obtain ⟨cs, hcs⟩ := hspec
    exact h.turned_comment hreads (by rw [hstream, ← hcs]; rfl)
  | stringLiteral =>
    obtain ⟨cs, hcs⟩ := hspec
    exact h.turned_string hreads (by rw [hstream, ← hcs]; rfl)
  | illegal ch =>
    obtain ⟨rest, hrest, hillegal⟩ := hspec
    obtain ⟨hs, hline⟩ := hskip (.illegal ch) rest hrest
    refine h.turned_skip hs hline (.illegal hillegal) ?_
    have hne : c.rest ≠ [] := by rw [hrest]; simp
    rw [h.diagnostic_here hx hne, hs]
    simp [Segment.reports, Segment.fault, Note.diagnostic?]
  | token t width =>
    obtain ⟨w, rest, hrest, rfl, hlexeme, hfits⟩ := hspec
    obtain ⟨hs, hline⟩ := hskip (.token t w) rest hrest
    refine h.turned_skip hs hline hfits ?_
    rw [hlexeme.reports]
    rfl
  | broken t width cause =>
    obtain ⟨s, rest, hrest, rfl, rfl, hfits, hfault⟩ := hspec
    obtain ⟨hs, hline⟩ := hskip s rest hrest
    refine h.turned_skip hs hline hfits ?_
    rw [Segment.reports_behind hfault, ← h.diagnostic_skip hs hline hfits.text_ne_nil]
    rfl

end Follows

end Cursor

end MiniLex
