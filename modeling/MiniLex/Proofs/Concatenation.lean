import MiniLex.Proofs.Segmentation

/-!
# Texts of complete lines

Complete lines are scanned on their own. What comes after them changes nothing about their tokens
and diagnostics, and is itself scanned as if it stood alone, only further down.

- `Segment.Fits.append`, `Segment.Fits.reports_append`: a segment of complete lines stays what it is
  when more text comes after them.
- `Tiles.append`: the same for all segments of complete lines.
- `Cursor.Follows.tokenized_append`: a run passes complete lines as if nothing came after.
- `Diagnostic.lower`, `Tokenized.lower`: the same, so many lines further down.
- `Cursor.Follows.tokenized_lower`: a run that begins further down comes to the same otherwise.

Main statement: `tokenize_append`.
-/

namespace MiniLex

/-! ## Segments of complete lines -/

section Segments

variable {w rest : List Char}

/-- A lexeme ends no line. -/
theorem Lexeme.getLast?_ne_feed {t : Token} (h : Lexeme t w) : w.getLast? ≠ some '\n' := by
  intro hlast
  by_cases hkind : t.kind = .stringLiteral
  · cases h with
    | string literal =>
      obtain ⟨body, -, rfl⟩ := literal
      rw [List.getLast?_append] at hlast
      simp at hlast
    | keyword _ | mark _ | identifier _ _ | integer _ | double _ | char _ => cases hkind
  · exact h.feed_not_mem hkind (List.mem_of_getLast? hlast)

/-- The longest lexeme that complete lines begin with, but do not consist of, is the longest whatever
comes after the lines. -/
theorem Longest.append {t : Token} (h : Longest t w (w ++ rest)) (hlines : CompleteLines rest)
    (hne : rest ≠ []) (more : List Char) : Longest t w (w ++ (rest ++ more)) := by
  refine ⟨h.lexeme, List.prefix_append .., fun t' w' h' hw' => ?_⟩
  by_cases hkind : t'.kind = .stringLiteral
  · -- both are string literals, and a string literal tells where it ends
    obtain ⟨c, ds, rfl, hc⟩ := h.lexeme.family
    cases h' with
    | string literal' =>
      obtain ⟨body', hbody', rfl⟩ := literal'
      obtain rfl : '"' = c := (List.cons_prefix_cons.mp hw').1
      obtain ⟨⟨body, hbody, heq⟩, -⟩ : IsStringLiteral ('"' :: ds) ∧ _ := hc
      obtain rfl : ds = body ++ ['"'] := (List.cons.inj heq).2
      have hpre : body' ++ '"' :: [] <+: body ++ '"' :: (rest ++ more) := by
        simpa [List.cons_prefix_cons] using hw'
      rw [(hbody.prefix_unique hbody' hpre).1]
      exact Nat.le_refl _
    | keyword _ | mark _ | identifier _ _ | integer _ | double _ | char _ => cases hkind
  · -- any other lexeme ends before the line feed that the lines end with
    have hfeed := h'.feed_not_mem hkind
    have hbegins : w ++ rest <+: w ++ (rest ++ more) := by
      rw [List.prefix_append_right_inj]
      exact List.prefix_append ..
    rcases List.prefix_or_prefix_of_prefix hw' hbegins with hshort | hlong
    · exact h.longest t' w' h' hshort
    · exact absurd (hlong.subset (List.mem_append_right _ (hlines.feed_mem hne))) hfeed

namespace Segment.Fits

variable {s : Segment}

/-- Only a blank or a comment ends complete lines. -/
theorem eq_of_completeLines (h : s.Fits []) (hlines : CompleteLines s.text) :
    (∃ c, IsSpace c ∧ s = .blank c) ∨ ∃ text, IsComment text ∧ s = .comment text := by
  have hlast : s.text.getLast? = some '\n' := hlines.resolve_left h.text_ne_nil
  cases h with
  | blank space => exact .inl ⟨_, space, rfl⟩
  | comment comment => exact .inr ⟨_, comment, rfl⟩
  | token longest _ _ => exact absurd hlast longest.lexeme.getLast?_ne_feed
  | @unclosed unit _ logical _ =>
    have hfeed : '\n' ∉ '\'' :: unit := by simp [logical.feed_not_mem]
    exact absurd (List.mem_of_getLast? hlast) hfeed
  | @illegal c _ illegal =>
    obtain rfl : c = '\n' := Option.some.inj hlast
    exact absurd (.inr (.inr (.inr rfl))) illegal.1
  | @lone c _ half _ =>
    obtain rfl : c = '\n' := Option.some.inj hlast
    exact absurd half (by decide)
  | @number m e _ mantissa head _ _ =>
    rcases List.mem_append.mp (List.mem_of_getLast? hlast) with hmem | hmem
    · exact absurd (mantissa.mem hmem) (by decide)
    · exact absurd (head.mem hmem) (by decide)
  | opener _ feed => cases feed

/-- A segment of complete lines is one whatever comes after the lines. -/
theorem append (h : s.Fits rest) (hlines : CompleteLines (s.text ++ rest)) (more : List Char) :
    s.Fits (rest ++ more) := by
  match rest, h with
  | [], h =>
    rw [List.append_nil] at hlines
    rcases h.eq_of_completeLines hlines with ⟨c, hspace, rfl⟩ | ⟨text, hcomment, rfl⟩
    · exact .blank hspace
    · exact .comment hcomment
  | d :: ds, h =>
    -- beyond the first character after a segment nothing but the longest lexeme is looked for
    cases h with
    | blank space => exact .blank space
    | comment comment => exact .comment comment
    | @token t w _ longest comment exponent =>
      refine .token (longest.append hlines.of_append (List.cons_ne_nil _ _) more) (fun hopens => ?_) exponent
      have hpos := List.length_pos_iff.mpr longest.lexeme.ne_nil
      have hlength : 2 ≤ (w ++ d :: ds).length := by
        rw [List.length_append, List.length_cons]
        omega
      have hbegins : w ++ d :: ds <+: w ++ (d :: ds ++ more) := by
        rw [List.prefix_append_right_inj]
        exact List.prefix_append ..
      exact comment (hopens.imp (List.prefix_of_prefix_length_le · hbegins hlength)
        (List.prefix_of_prefix_length_le · hbegins hlength))
    | unclosed logical quote => exact .unclosed logical quote
    | illegal illegal => exact .illegal illegal
    | lone half single => exact .lone half single
    | number mantissa head digits sign => exact .number mantissa head digits sign
    | opener opener feed => exact .opener opener feed

/-- What is reported of a segment of complete lines does not hang on what comes after the lines. -/
theorem reports_append (h : s.Fits rest) (hlines : CompleteLines (s.text ++ rest))
    (before more : List Char) : s.reports before (rest ++ more) = s.reports before rest := by
  match rest, h with
  | [], h =>
    rw [List.append_nil] at hlines
    rcases h.eq_of_completeLines hlines with ⟨c, -, rfl⟩ | ⟨text, -, rfl⟩ <;> rfl
  | d :: ds, h =>
    have hfault : s.fault (d :: ds ++ more) = s.fault (d :: ds) := by cases s <;> rfl
    unfold reports
    rw [hfault]
    split
    · rfl
    · -- the line of a diagnostic ends where the lines do, at the latest
      rename_i n cause _
      have hfeed : '\n' ∈ s.text.drop n ++ d :: ds :=
        List.mem_append_right _ (hlines.of_append.feed_mem (List.cons_ne_nil _ _))
      obtain ⟨line, others, hsplit, hline⟩ := List.eq_append_cons_of_mem hfeed
      have hwhole : ∀ cs, (line ++ '\n' :: cs).takeWhile (· != '\n') = line := fun cs =>
        takeWhile_append_of_stops (bne_of_not_mem hline) (stops_cons.mpr rfl)
      rw [Diagnostic.between, Diagnostic.between, ← List.append_assoc, hsplit, List.append_assoc,
        List.cons_append, hwhole, hwhole]

end Segment.Fits

end Segments

/-! ## Runs over complete lines -/

/-- Segments of complete lines are what they are whatever comes after the lines, and so are their
diagnostics. -/
theorem Tiles.append {segs : List Segment} {cs : List Char} (ht : Tiles segs cs) (hlines : CompleteLines cs)
    (before more : List Char) :
    TilesTo more segs (cs ++ more) ∧ reportsTo more before segs = reportsOf before segs := by
  induction ht generalizing before with
  | nil => exact ⟨.nil, rfl⟩
  | @cons s segs rest fits tiles ih =>
    obtain ⟨hlater, hreports⟩ := ih hlines.of_append (before ++ s.text)
    rw [List.append_assoc, reportsTo, reportsOf, hreports, tiles.flatMap_text,
      fits.reports_append hlines]
    exact ⟨.cons (fits.append hlines more) hlater, rfl⟩

/-- A run passes complete lines as if nothing came after them, and then goes on behind them. -/
theorem Cursor.Follows.tokenized_append {reads : List LineRead} {before : List Char} {c : Cursor}
    (hreads : Feedless reads) (hfail : Unfailing reads) (h : c.Follows reads before)
    {segs : List Segment} {cs more : List Char} (ht : Tiles segs cs) (hlines : CompleteLines cs)
    (hcs : c.stream = cs ++ more) :
    ∃ next : Cursor, next.stream = more ∧ next.Follows reads (before ++ cs) ∧
      c.tokenized = next.tokenized.after (reportsOf before segs) (segs.filterMap Segment.token?) := by
  obtain ⟨hsegs, hreports⟩ := ht.append hlines before more
  rw [← hcs] at hsegs
  obtain ⟨next, hnext, hlast, hrun⟩ := h.tokenized_of_tilesTo hreads hfail hsegs
  rw [ht.flatMap_text] at hlast
  exact ⟨next, hnext, hlast, hreports ▸ hrun⟩

/-! ## Further down -/

/-- The same diagnostic, `n` lines further down. -/
def Diagnostic.lower (n : Nat) (d : Diagnostic) : Diagnostic :=
  { d with position := { d.position with line := d.position.line + n } }

/-- What a text comes to that begins `n` lines further down. -/
def Tokenized.lower (n : Nat) (r : Tokenized) : Tokenized :=
  ⟨r.result.mapError (Diagnostic.lower n), r.reported.map (Diagnostic.lower n)⟩

theorem Tokenized.lower_after (n : Nat) (ds : List Diagnostic) (ts : List Token) (later : Tokenized) :
    (later.after ds ts).lower n = (later.lower n).after (ds.map (Diagnostic.lower n)) ts := by
  obtain ⟨result, reported⟩ := later
  cases result <;> simp [after, lower, Except.map, Except.mapError]

/-- Complete lines above a place do nothing but count. -/
theorem Diagnostic.between_append {above : List Char} (habove : CompleteLines above)
    (before rest : List Char) (cause : Cause) :
    between (above ++ before) rest cause = (between before rest cause).lower (above.count '\n') := by
  simp only [between, Position.after, lower, habove.lastLine_append, List.count_append]
  congr 2
  omega

theorem Segment.reports_lower {above : List Char} (habove : CompleteLines above)
    (before rest : List Char) (s : Segment) :
    s.reports (above ++ before) rest = (s.reports before rest).map (Diagnostic.lower (above.count '\n')) := by
  unfold reports
  split
  · rfl
  · rw [List.append_assoc, Diagnostic.between_append habove]
    rfl

/-- What a run comes to hangs on the characters ahead, and on the lines above only for the numbers of
lines. -/
theorem Cursor.Follows.tokenized_lower {reads reads' : List LineRead} {above before : List Char}
    {c c' : Cursor} (hreads : Feedless reads) (hreads' : Feedless reads') (hfail : Unfailing reads)
    (hfail' : Unfailing reads') (habove : CompleteLines above) (h : c.Follows reads before)
    (h' : c'.Follows reads' (above ++ before)) (hstream : c'.stream = c.stream) :
    c'.tokenized = c.tokenized.lower (above.count '\n') := by
  -- both runs look at the same characters again and again
  induction hn : c.stream.length using Nat.strong_induction_on generalizing c c' before with
  | _ n ih =>
    rcases h.ahead hreads hfail with hnil | ⟨s, rest, hs, hfits⟩ | hopen
    · rw [tokenized_of_nil hnil, tokenized_of_nil (hstream.trans hnil)]
      rfl
    · obtain ⟨-, -, hnext, hfollows⟩ := h.turn_of_fits hreads hfail hs hfits
      obtain ⟨-, -, hnext', hfollows'⟩ := h'.turn_of_fits hreads' hfail' (hstream.trans hs) hfits
      have hshorter : c.turn.cursor.stream.length < n := by
        have hpos := List.length_pos_iff.mpr hfits.text_ne_nil
        rw [← hn, hnext, hs, List.length_append]
        omega
      rw [List.append_assoc] at hfollows'
      rw [h.tokenized_of_fits hreads hfail hs hfits,
        h'.tokenized_of_fits hreads' hfail' (hstream.trans hs) hfits, Tokenized.lower_after,
        Segment.reports_lower habove,
        ih _ hshorter hfollows hfollows' (hnext'.trans hnext.symm) rfl]
    · have hopen' : Unterminated c'.stream := hstream ▸ hopen
      have hcount : (delivered reads').count '\n' = (delivered reads).count '\n' + above.count '\n' := by
        rw [h'.stream, h.stream, hstream]
        simp only [List.count_append]
        omega
      rw [h.tokenized_of_unterminated hreads hfail hopen,
        h'.tokenized_of_unterminated hreads' hfail' hopen', hcount]
      rfl

/-! ## Texts -/

/-- If complete lines are scanned without failure, then a text that begins with them comes to their
tokens, without the end, and to what the rest of the text comes to by itself; only the line numbers
of the rest count on from those lines. -/
theorem tokenize_append {p : List Char} {ts : List Token} (hp : p = [] ∨ p.getLast? = some '\n')
    (hok : (tokenize p).result = .ok ts) (s : List Char) :
    ∃ tokens, ts = tokens ++ [.eof] ∧
      tokenize (p ++ s) =
        ⟨match (tokenize s).result with
          | .ok later => .ok (tokens ++ later)
          | .error d => .error (d.lower (p.count '\n')),
        (tokenize p).reported ++ (tokenize s).reported.map (Diagnostic.lower (p.count '\n'))⟩ := by
  have hlines : CompleteLines p := hp
  obtain ⟨segs, htiles⟩ := tiles_of_tokenize hok
  have hresult := tokenize_of_tiles htiles
  have hall : CompleteLines (canonical p) := completeLines_delivered _
  have hcount : (canonical p).count '\n' = p.count '\n' := by
    rw [count_canonical, lineCount, if_pos hlines, Nat.add_zero]
  obtain ⟨c, hc, hfollows, hstream⟩ := exists_first (p ++ s)
  obtain ⟨c', hc', hfollows', hstream'⟩ := exists_first s
  -- the run over the whole text comes to the rest, where the other run begins
  rw [canonical_append hlines] at hstream
  obtain ⟨next, hnext, hbehind, hrun⟩ := hfollows.tokenized_append (LineRead.feedless_ofText _)
    (LineRead.unfailing_ofText _) htiles hall hstream
  rw [List.nil_append, ← List.append_nil (canonical p)] at hbehind
  have hlower := hfollows'.tokenized_lower (LineRead.feedless_ofText _) (LineRead.feedless_ofText _)
    (LineRead.unfailing_ofText _) (LineRead.unfailing_ofText _) hall hbehind (hnext.trans hstream'.symm)
  rw [hcount, ← tokenizeReads_of_ok hc'] at hlower
  refine ⟨segs.filterMap Segment.token?, ?_, ?_⟩
  · rw [hresult] at hok
    exact (Except.ok.inj hok).symm
  · rw [tokenize, tokenizeReads_of_ok hc, hrun, hlower, hresult]
    show ((tokenize s).lower (p.count '\n')).after _ _ = _
    rcases tokenize s with ⟨result, reported⟩
    cases result <;> rfl

/-- Two lines with something wrong, and after them a string literal that is not closed. -/
theorem tokenize_append_two_lines :
    let p := "a&\r\n1.e+\n".toList
    let s := "$\"".toList
    (p = [] ∨ p.getLast? = some '\n') ∧
      (tokenize p).result = .ok [.spelled .identifier ['a'], .eof] ∧
        ∃ tokens, [.spelled .identifier ['a'], .eof] = tokens ++ [.eof] ∧
          tokenize (p ++ s) =
            ⟨match (tokenize s).result with
              | .ok later => .ok (tokens ++ later)
              | .error d => .error (d.lower (p.count '\n')),
            (tokenize p).reported ++ (tokenize s).reported.map (Diagnostic.lower (p.count '\n'))⟩ := by
  intro p s
  have hp : p = [] ∨ p.getLast? = some '\n' := .inr (by decide)
  have hok : (tokenize p).result = .ok [.spelled .identifier ['a'], .eof] := by decide +kernel
  exact ⟨hp, hok, tokenize_append hp hok s⟩

end MiniLex
