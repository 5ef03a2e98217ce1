import MiniLex.Proofs.Calls
import MiniLex.Proofs.Segmentation

/-!
# Why scanning a text fails

Scanning a text fails for one reason only: a string literal or a block comment is opened and not
closed. Whatever else may be wrong with the text is recovered from, and after the failure nothing is
left to scan.

- `Cursor.SeenAfter reads reported c`: the run of a scanner looks at the source from `c`, and has
  reported `reported` before.
- `Cursor.SeenAfter.tokenizeReads_eq`: what the run comes to, told from any look before the end.
- `Cursor.Replies.exhausted_of_failure`: after a failure the end of the text has been met.

Main statement: `tokenize_fails_iff`.
-/

namespace MiniLex

namespace Cursor

/-- The cursors from which a scanner of the reads looks at the source, each with the diagnostics that
were reported before that look. -/
inductive SeenAfter (reads : List LineRead) : List Diagnostic → Cursor → Prop where
  /-- The cursor of a scanner that has just been made. -/
  | first {c : Cursor} (opened : (start reads).advance = .ok c) : SeenAfter reads [] c
  | turn {reported : List Diagnostic} {c : Cursor} (seen : SeenAfter reads reported c) :
      SeenAfter reads (reported ++ c.turn.reported) c.turn.cursor

section Looks

variable {reads : List LineRead} {reported : List Diagnostic} {c : Cursor}

theorem SeenAfter.seen (h : SeenAfter reads reported c) : Seen reads c := by
  induction h with
  | first opened => exact .first opened
  | turn _ ih => exact ih.turn

/-- What a run comes to is what was reported before one of its looks, and what it comes to from that
look on. -/
theorem SeenAfter.tokenizeReads_eq (hreads : Feedless reads) (hfail : Unfailing reads)
    (h : SeenAfter reads reported c) (hne : c.stream ≠ []) :
    ∃ ts, tokenizeReads reads = c.tokenized.after reported ts := by
  induction h with
  | first opened => exact ⟨[], by rw [tokenizeReads_of_ok opened, Tokenized.after_nil]⟩
  | @turn reported c seen ih =>
    obtain ⟨before, hfollows⟩ := seen.seen.follows hreads
    -- the look has passed a segment: otherwise nothing would be ahead after it
    rcases hfollows.ahead hreads hfail with hnil | ⟨s, rest, hs, hfits⟩ | hopen
    · rw [turn_of_exhausted (stream_eq_nil_iff.mp hnil)] at hne
      exact absurd hnil hne
    · obtain ⟨ts, hts⟩ := ih (by rw [hs]; simp [hfits.text_ne_nil])
      obtain ⟨-, hreported, -, -⟩ := hfollows.turn_of_fits hreads hfail hs hfits
      refine ⟨ts ++ s.token?.toList, ?_⟩
      rw [hts, hfollows.tokenized_of_fits hreads hfail hs hfits, Tokenized.after_after, hreported]
    · obtain ⟨-, -, hx⟩ := hfollows.turn_of_unterminated hreads hfail hopen
      exact absurd (stream_of_exhausted hx) hne

/-- A run that fails looks at a text that is not closed. -/
theorem SeenAfter.exists_unterminated (hreads : Feedless reads) (hfail : Unfailing reads)
    (h : SeenAfter reads reported c) {d : Diagnostic} (hd : c.tokenized.result = .error d) :
    ∃ reported' c', SeenAfter reads reported' c' ∧ Unterminated c'.stream := by
  induction hn : c.stream.length using Nat.strong_induction_on generalizing reported c with
  | _ n ih =>
    obtain ⟨before, hfollows⟩ := h.seen.follows hreads
    rcases hfollows.ahead hreads hfail with hnil | ⟨s, rest, hs, hfits⟩ | hopen
    · rw [tokenized_of_nil hnil] at hd
      cases hd
    · obtain ⟨-, -, hnext, -⟩ := hfollows.turn_of_fits hreads hfail hs hfits
      have hshorter : c.turn.cursor.stream.length < n := by
        have hpos := List.length_pos_iff.mpr hfits.text_ne_nil
        rw [← hn, hnext, hs, List.length_append]
        omega
      rw [hfollows.tokenized_of_fits hreads hfail hs hfits] at hd
      refine ih _ hshorter h.turn ?_ rfl
      cases hlater : c.turn.cursor.tokenized.result with
      | ok ts => simp [Tokenized.after, hlater, Except.map] at hd
      | error d' =>
        rw [Tokenized.after, hlater] at hd
        exact hd
    · exact ⟨reported, c, h, hopen⟩

/-! ## After a failure -/

/-- Once the end of the source was met, a scan finds the end again and lets nothing know. -/
theorem scan_of_exhausted (hx : c.isExhausted = true) : c.scan = ⟨[], .ok .eof, c⟩ := by
  have hturn := turn_of_exhausted hx
  have hanswer : c.turn.answer = some (.ok .eof) := by rw [hturn]
  rw [scan_of_answer hanswer, hturn]

/-- A scan fails at the end of the source only, if no read does. -/
theorem Seen.exhausted_of_error (hreads : Feedless reads) (hfail : Unfailing reads) (h : Seen reads c)
    {d : Diagnostic} (hd : c.scan.answer = .error d) : c.scan.cursor.isExhausted = true := by
  fun_induction Cursor.scan c with
  | case1 c answer hanswer =>
    obtain rfl : answer = .error d := hd
    obtain ⟨before, hfollows⟩ := h.follows hreads
    rcases hfollows.ahead hreads hfail with hnil | ⟨s, rest, hs, hfits⟩ | hopen
    · rw [turn_of_exhausted (stream_eq_nil_iff.mp hnil)] at hanswer
      cases hanswer
    · obtain ⟨hturn, -, -, -⟩ := hfollows.turn_of_fits hreads hfail hs hfits
      obtain ⟨t, -, ht⟩ := Option.map_eq_some_iff.mp (hturn.symm.trans hanswer)
      cases ht
    · exact (hfollows.turn_of_unterminated hreads hfail hopen).2.2
  | case2 c hnone hlt later ih => exact ih h.turn hd

end Looks

section Replies

variable {reads : List LineRead} {replies : List Reply} {c last : Cursor}

/-- No call moves a cursor that has met the end of the source. -/
theorem Replies.eq_of_exhausted (h : c.Replies replies last) (hx : c.isExhausted = true) : last = c := by
  induction h with
  | nil => rfl
  | nothing _ ih => exact ih hx
  | scan _ ih =>
    rw [scan_of_exhausted hx] at ih
    exact ih hx

/-- Once a call has failed, the end of the source has been met, if no read fails. -/
theorem Replies.exhausted_of_failure (hreads : Feedless reads) (hfail : Unfailing reads)
    (h : c.Replies replies last) (hseen : Seen reads c)
    (hfailure : ∃ r ∈ replies, ∃ d, r.answer = some (.error d)) : last.isExhausted = true := by
  obtain ⟨r, hr, d, hd⟩ := hfailure
  induction h with
  | nil => cases hr
  | nothing _ ih =>
    rcases List.mem_cons.mp hr with rfl | hr
    · cases hd
    · exact ih hseen hr
  | scan rest ih =>
    rcases List.mem_cons.mp hr with rfl | hr
    · have hx := hseen.exhausted_of_error hreads hfail (Option.some.inj hd)
      rw [rest.eq_of_exhausted hx]
      exact hx
    · exact ih hseen.scan hr

end Replies

end Cursor

/-- After the end of the source a call for the next token gives the end, and nothing is reported. -/
theorem Scanner.nextToken_of_exhausted {s : Scanner} (hx : s.cursor.isExhausted = true) :
    s.nextToken.1.answer = some (.ok .eof) ∧ s.nextToken.1.reported = [] := by
  rw [reported_nextToken]
  have hscan := Cursor.scan_of_exhausted hx
  constructor
  · rw [nextToken, hscan]
  · rw [hscan]
    rfl

/-! ## Texts -/

/-- Scanning a text fails if and only if it comes to look at a string literal or a block comment that
is not closed. Then the failure is told of the end of the text, and what is reported is what was
reported before that look. Whichever calls a scanner of the text has failed in, later ones give the
end and report nothing. -/
theorem tokenize_fails_iff (text : List Char) :
    ((∃ d, (tokenize text).result = .error d) ↔
        ∃ reported c, Cursor.SeenAfter (LineRead.ofText text) reported c ∧ Unterminated c.stream) ∧
      (∀ reported c, Cursor.SeenAfter (LineRead.ofText text) reported c → Unterminated c.stream →
        tokenize text = ⟨.error ⟨.readPastEnd, ⟨lineCount text, 1⟩, ""⟩, reported⟩) ∧
      ∃ scanner, Scanner.ofReads (LineRead.ofText text) = .ok scanner ∧ ∀ sink calls,
        let done := Session.performAll ⟨scanner, sink⟩ calls
        (∃ e ∈ done.1, ∃ d, e.reply.answer = some (.error d)) →
          done.2.scanner.nextToken.1.answer = some (.ok .eof) ∧
            done.2.scanner.nextToken.1.reported = [] := by
  have hreads := LineRead.feedless_ofText text
  have hfail := LineRead.unfailing_ofText text
  have hresult : ∀ reported c, Cursor.SeenAfter (LineRead.ofText text) reported c →
      Unterminated c.stream →
        tokenize text = ⟨.error ⟨.readPastEnd, ⟨lineCount text, 1⟩, ""⟩, reported⟩ := by
    intro reported c hseen hopen
    obtain ⟨before, hfollows⟩ := hseen.seen.follows hreads
    have hne : c.stream ≠ [] := by
      intro hnil
      rw [hnil] at hopen
      cases hopen
    obtain ⟨ts, hts⟩ := hseen.tokenizeReads_eq hreads hfail hne
    rw [tokenize, hts, hfollows.tokenized_of_unterminated hreads hfail hopen, ← count_canonical]
    simp [Tokenized.after, Except.map, canonical]
  obtain ⟨c, hc, -, -⟩ := exists_first text
  refine ⟨⟨?_, ?_⟩, hresult, ⟨c, false⟩, by rw [Scanner.ofReads, hc], ?_⟩
  · rintro ⟨d, hd⟩
    rw [tokenize, tokenizeReads_of_ok hc] at hd
    exact (Cursor.SeenAfter.first hc).exists_unterminated hreads hfail hd
  · rintro ⟨reported, c, hseen, hopen⟩
    exact ⟨_, congrArg Tokenized.result (hresult reported c hseen hopen)⟩
  · rintro sink calls done ⟨e, he, d, hd⟩
    have hreplies := Session.replies_performAll ⟨⟨c, false⟩, sink⟩ calls
    refine Scanner.nextToken_of_exhausted ?_
    exact hreplies.exhausted_of_failure hreads hfail (.first hc) ⟨e.reply, List.mem_map_of_mem he, d, hd⟩

/-- A mark that is not doubled, and a string literal that is not closed. -/
theorem tokenize_fails_at_open_string :
    let text := "&\"".toList
    let c : Cursor := ⟨some [], text, ['"'], 1, 2⟩
    let lone : Diagnostic := ⟨.expectedCharacter '&' (some '"'), ⟨1, 2⟩, "&\""⟩
    let scanner : Scanner := ⟨⟨some [], text, text, 1, 1⟩, false⟩
    let calls : List Session.Call := [.nextToken, .next]
    let done := Session.performAll ⟨scanner, .collecting []⟩ calls
    (Cursor.SeenAfter (LineRead.ofText text) [lone] c ∧ Unterminated c.stream) ∧
      (∃ e ∈ done.1, ∃ d, e.reply.answer = some (.error d)) ∧
        (∃ d, (tokenize text).result = .error d) ∧
          tokenize text = ⟨.error ⟨.readPastEnd, ⟨lineCount text, 1⟩, ""⟩, [lone]⟩ ∧
            done.2.scanner.nextToken.1.answer = some (.ok .eof) ∧
              done.2.scanner.nextToken.1.reported = [] := by
  intro text c lone scanner calls done
  have hseen : Cursor.SeenAfter (LineRead.ofText text) [lone] c := by
    have hturn : scanner.cursor.turn.cursor = c ∧ scanner.cursor.turn.reported = [lone] := by decide
    have hfirst : Cursor.SeenAfter (LineRead.ofText text) [] scanner.cursor := .first (by decide)
    have hnext := hfirst.turn
    rwa [hturn.1, hturn.2] at hnext
  have hopen : Unterminated c.stream := unterminated_string (by decide)
  have hfailed : ∃ e ∈ done.1, ∃ d, e.reply.answer = some (.error d) := by
    refine ⟨_, List.mem_cons_self .., ⟨.readPastEnd, ⟨1, 1⟩, ""⟩, ?_⟩
    decide +kernel
  obtain ⟨hiff, hresult, scanner', hscanner, hlater⟩ := tokenize_fails_iff text
  obtain rfl : scanner = scanner' := by
    have hofReads : Scanner.ofReads (LineRead.ofText text) = .ok scanner := by decide
    exact Except.ok.inj (hofReads.symm.trans hscanner)
  exact ⟨⟨hseen, hopen⟩, hfailed, hiff.mpr ⟨_, _, hseen, hopen⟩, hresult _ _ hseen hopen,
    hlater _ calls hfailed⟩

end MiniLex
