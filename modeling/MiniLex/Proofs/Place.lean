import MiniLex.Proofs.Lines
import MiniLex.Source.Passage

/-!
# Where a cursor stands

A cursor that moves through line reads stands at one place in all that they deliver. What the cursor
keeps for itself, its line, its number and its column, agrees with that place.

- `Cursor.Follows reads before c`: the invariant. The cursor comes right after the characters
  `before` of what `reads` deliver.
- `Cursor.Follows.skip`, `Cursor.Follows.advance`: how the place changes when the cursor moves.
- `cutAtClosing`: where the first closing character of a text is.
- `Cursor.Follows.passUntil`: a passage comes to that character, unless a read fails.
-/

namespace MiniLex

/-- The cursor comes right after the characters `before` of all that the reads deliver.

Only the column is not fixed on a line feed: a read that failed has moved it on. -/
structure Cursor.Follows (reads : List LineRead) (before : List Char) (c : Cursor) : Prop where
  stream : delivered reads = before ++ c.stream
  pending : ∀ rs, c.pending = some rs → rs <:+ reads
  line : c.line = lastLine before ++ c.rest
  feed : '\n' ∉ c.line
  lineNumber : c.lineNumber = before.count '\n' + if c.isExhausted then 0 else 1
  column : c.rest ≠ [] → c.column = (lastLine before).length + 1
  exhausted : c.isExhausted = true → c.rest = [] ∧ c.column = 1

/-- A halt at one of the reads, which failed. -/
def Halt.IsFailedRead (reads : List LineRead) (halt : Halt) : Prop :=
  ∃ message, .failed message ∈ reads ∧
    halt.diagnostic = ⟨.readFailed message, ⟨halt.cursor.lineNumber + 1, 1⟩, ""⟩

namespace Cursor

theorem stream_of_pending {c : Cursor} {rs : List LineRead} (h : c.pending = some rs) :
    c.stream = c.rest ++ '\n' :: delivered rs := by
  simp [stream, h, delivered]

theorem stream_of_exhausted {c : Cursor} (h : c.isExhausted = true) : c.stream = [] := by
  cases hp : c.pending with
  | none => simp [stream, hp]
  | some rs => simp [isExhausted, hp] at h

theorem stream_eq_nil_iff {c : Cursor} : c.stream = [] ↔ c.isExhausted = true := by
  refine ⟨fun h => ?_, stream_of_exhausted⟩
  cases hp : c.pending with
  | none => simp [isExhausted, hp]
  | some rs => simp [stream_of_pending hp] at h

theorem isExhausted_of_head? {c : Cursor} {ch : Char} (h : c.stream.head? = some ch) :
    c.isExhausted = false := by
  rw [← Bool.not_eq_true, ← stream_eq_nil_iff]
  intro hnil
  rw [hnil] at h
  cases h

theorem exists_pending {c : Cursor} (h : c.isExhausted = false) : ∃ rs, c.pending = some rs := by
  cases hp : c.pending with
  | none => simp [isExhausted, hp] at h
  | some rs => exact ⟨rs, rfl⟩

@[simp] theorem isExhausted_skip (c : Cursor) (n : Nat) : (c.skip n).isExhausted = c.isExhausted := rfl

/-! ## Moving on within a line -/

namespace Follows

variable {reads : List LineRead} {before : List Char} {c : Cursor}

theorem feed_not_mem_rest (h : c.Follows reads before) : '\n' ∉ c.rest := by
  intro hmem
  refine h.feed ?_
  rw [h.line]
  exact List.mem_append_right _ hmem

/-- A text without a line feed that comes next is on the line of the cursor. -/
theorem exists_rest (h : c.Follows reads before) {w cs : List Char} (hw : c.stream = w ++ cs)
    (hfeed : '\n' ∉ w) (hne : w ≠ []) :
    ∃ rest rs, c.pending = some rs ∧ c.rest = w ++ rest ∧ cs = rest ++ '\n' :: delivered rs := by
  cases hp : c.pending with
  | none =>
    have hnil : w ++ cs = [] := by simp [← hw, Cursor.stream, hp]
    exact absurd (List.append_eq_nil_iff.mp hnil).1 hne
  | some rs =>
    rw [stream_of_pending hp] at hw
    have hpre : w <+: c.rest :=
      prefix_of_stops (p := (· != '\n')) (bne_of_not_mem h.feed_not_mem_rest) (bne_of_not_mem hfeed)
        (stops_cons.mpr rfl) (by rw [hw]; exact List.prefix_append ..)
    obtain ⟨rest, hrest⟩ := hpre
    refine ⟨rest, rs, rfl, hrest.symm, ?_⟩
    rw [← hrest, List.append_assoc, List.append_cancel_left_eq] at hw
    exact hw.symm

/-- Skipping a text that comes next on the line. -/
theorem skip (h : c.Follows reads before) {w cs : List Char} (hw : c.stream = w ++ cs)
    (hfeed : '\n' ∉ w) (hne : w ≠ []) :
    (c.skip w.length).stream = cs ∧ (c.skip w.length).Follows reads (before ++ w) := by
  obtain ⟨rest, rs, hp, hrest, rfl⟩ := h.exists_rest hw hfeed hne
  have hskip : (c.skip w.length).rest = rest := by simp [Cursor.skip, hrest]
  have hstream : (c.skip w.length).stream = rest ++ '\n' :: delivered rs := by
    rw [stream_of_pending (c := c.skip w.length) hp, hskip]
  refine ⟨hstream, ?_⟩
  constructor
  · rw [h.stream, hw, hstream, List.append_assoc]
  · exact h.pending
  · show c.line = lastLine (before ++ w) ++ (c.skip w.length).rest
    rw [lastLine_append hfeed, hskip, h.line, hrest, List.append_assoc]
  · exact h.feed
  · show c.lineNumber = (before ++ w).count '\n' + if c.isExhausted then 0 else 1
    rw [List.count_append, List.count_eq_zero.mpr hfeed, Nat.add_zero]
    exact h.lineNumber
  · intro _
    show c.column + w.length = (lastLine (before ++ w)).length + 1
    have hcol := h.column (by rw [hrest]; simp [hne])
    rw [lastLine_append hfeed, List.length_append]
    omega
  · intro hx
    have : c.isExhausted = true := hx
    simp [isExhausted, hp] at this

/-! ## Moving on by one character -/

/-- An advance passes the character that the cursor stands on. -/
theorem advance (hreads : Feedless reads) (h : c.Follows reads before) {c' : Cursor}
    (hc : c.advance = .ok c') :
    ∃ ch, c.lookahead = some ch ∧ c.stream = ch :: c'.stream ∧ c'.Follows reads (before ++ [ch]) := by
  obtain ⟨hne, htail⟩ := stream_of_advance hc
  obtain ⟨ch, cs, hcs⟩ := List.exists_cons_of_ne_nil hne
  rw [hcs, List.tail_cons] at htail
  refine ⟨ch, by rw [lookahead_eq_head?, hcs]; rfl, by rw [htail, hcs], ?_⟩
  cases hp : c.pending with
  | none => simp [Cursor.stream, hp] at hne
  | some rs =>
    cases hr : c.rest with
    | cons d ds =>
      -- within the line, an advance is a skip
      obtain rfl : c.skip 1 = c' := by simpa [Cursor.advance, hp, hr] using hc
      have hd : ch = d := by
        rw [stream_of_pending hp, hr] at hcs
        exact (List.cons.inj hcs).1.symm
      have hfeed : '\n' ∉ [ch] := by
        intro hmem
        refine h.feed_not_mem_rest ?_
        rw [hr, ← hd, ← List.mem_singleton.mp hmem]
        exact List.mem_cons_self ..
      exact (h.skip (w := [ch]) hcs hfeed (by simp)).2
    | nil =>
      -- on the line feed, a line has to be read
      have hfeed : ch = '\n' := by
        rw [stream_of_pending hp, hr] at hcs
        exact (List.cons.inj hcs).1.symm
      subst hfeed
      have hx : c.isExhausted = false := by simp [isExhausted, hp]
      have hcount : (before ++ ['\n']).count '\n' = c.lineNumber := by
        rw [h.lineNumber, hx, List.count_append]
        simp
      have hstream : delivered reads = before ++ ['\n'] ++ c'.stream := by
        rw [h.stream, hcs, htail, List.append_assoc, List.singleton_append]
      cases rs with
      | nil =>
        obtain rfl : _ = c' := by simpa [Cursor.advance, hp, hr, advanceLine] using hc
        exact ⟨hstream, by simp, by simp [lastLine_concat_feed], by simp, by simp [hcount, isExhausted],
          by simp, by simp⟩
      | cons read rs =>
        cases read with
        | line text =>
          have hmem := h.pending _ hp
          obtain rfl : _ = c' := by simpa [Cursor.advance, hp, hr, advanceLine] using hc
          refine ⟨hstream, ?_, by simp [lastLine_concat_feed], ?_, ?_, ?_, ?_⟩
          · rintro rs' hrs'
            obtain rfl : rs = rs' := by simpa using hrs'
            exact (List.suffix_cons _ _).trans hmem
          · exact hreads text (hmem.subset (List.mem_cons_self ..))
          · simp [hcount, isExhausted]
          · simp [lastLine_concat_feed]
          · simp [isExhausted]
        | failed message => simp [Cursor.advance, hp, hr, advanceLine] at hc

/-- An advance that fails leaves the cursor where it is. -/
theorem advance_error (h : c.Follows reads before) (hx : c.isExhausted = false) {halt : Halt}
    (hc : c.advance = .error halt) :
    halt.IsFailedRead reads ∧ halt.cursor.stream = c.stream ∧ halt.cursor.Follows reads before := by
  obtain ⟨rs, hp⟩ := exists_pending hx
  cases hr : c.rest with
  | cons d ds => simp [Cursor.advance, hp, hr] at hc
  | nil =>
    match rs, hp with
    | [], hp => simp [Cursor.advance, hp, hr, advanceLine] at hc
    | .line text :: rs, hp => simp [Cursor.advance, hp, hr, advanceLine] at hc
    | .failed message :: rs, hp =>
      have hmem := h.pending _ hp
      obtain rfl : _ = halt := by simpa [Cursor.advance, hp, hr, advanceLine] using hc
      have hstream : Cursor.stream ⟨some rs, c.line, [], c.lineNumber, c.column + 1⟩ = c.stream := by
        rw [stream_of_pending hp]
        simp [Cursor.stream, delivered, LineRead.stream, hr]
      refine ⟨⟨message, hmem.subset (List.mem_cons_self ..), rfl⟩, hstream, ?_⟩
      -- the column has moved on, which is not fixed on a line feed
      constructor
      · rw [h.stream]
        exact congrArg (before ++ ·) hstream.symm
      · rintro rs' hrs'
        obtain rfl : rs = rs' := by simpa using hrs'
        exact (List.suffix_cons _ _).trans hmem
      · show c.line = lastLine before ++ []
        rw [h.line, hr]
      · exact h.feed
      · show c.lineNumber = before.count '\n' + 1
        rw [h.lineNumber, hx]
        rfl
      · exact fun hne => absurd rfl hne
      · exact fun hcon => absurd hcon (by simp [isExhausted])

end Follows

end Cursor

/-! ## Passages -/

/-- The characters of a text before the first that closes, and the text from that one on. -/
def cutAtClosing {σ : Type} (closes : σ → Char → Option σ) :
    σ → List Char → Option (List Char × List Char)
  | _, [] => none
  | state, ch :: cs =>
    match closes state ch with
    | none => some ([], ch :: cs)
    | some state' => (cutAtClosing closes state' cs).map fun cut => (ch :: cut.1, cut.2)

section Cuts

variable {σ : Type} {closes : σ → Char → Option σ} {state state' : σ} {ch : Char} {cs : List Char}

theorem cutAtClosing_stop (h : closes state ch = none) :
    cutAtClosing closes state (ch :: cs) = some ([], ch :: cs) := by
  simp [cutAtClosing, h]

theorem cutAtClosing_step (h : closes state ch = some state') :
    cutAtClosing closes state (ch :: cs) =
      (cutAtClosing closes state' cs).map fun cut => (ch :: cut.1, cut.2) := by
  simp [cutAtClosing, h]

/-- The characters before a closing one and those from it on make up the text. -/
theorem append_of_cutAtClosing {passed rest : List Char}
    (h : cutAtClosing closes state cs = some (passed, rest)) : cs = passed ++ rest := by
  induction cs generalizing state passed with
  | nil => cases h
  | cons ch cs ih =>
    cases hcloses : closes state ch with
    | none =>
      rw [cutAtClosing_stop hcloses] at h
      cases h
      rfl
    | some state' =>
      rw [cutAtClosing_step hcloses] at h
      obtain ⟨cut, hcut, heq⟩ := Option.map_eq_some_iff.mp h
      cases heq
      rw [ih hcut, List.cons_append]

end Cuts

namespace Cursor.Follows

variable {reads : List LineRead} {before : List Char} {c : Cursor} {σ : Type}
  {closes : σ → Char → Option σ} {state : σ}

/-- A passage comes to the first closing character. -/
theorem passUntil_ok (hreads : Feedless reads) (h : c.Follows reads before) {p : Passage}
    (hp : c.passUntil closes state = .ok p) :
    cutAtClosing closes state c.stream = some (p.passed, p.cursor.stream) ∧
      p.cursor.Follows reads (before ++ p.passed) := by
  fun_induction passUntil closes state c generalizing before p with
  | case1 => cases hp
  | case2 state c ch hch hcloses =>
    -- the character ahead closes: nothing is passed
    cases hp
    rw [lookahead_eq_head?] at hch
    obtain ⟨cs, hcs⟩ := List.head?_eq_some_iff.mp hch
    refine ⟨by rw [hcs, cutAtClosing_stop hcloses], ?_⟩
    rw [List.append_nil]
    exact h
  | case3 => cases hp
  | case4 => cases hp
  | case5 state c ch hch state' hcloses next hnext passage hpass ih =>
    -- the character ahead is passed, and the passage goes on behind it
    cases hp
    obtain ⟨ch', hch', hstream, hfollows⟩ := h.advance hreads hnext
    obtain rfl : ch = ch' := Option.some.inj (hch.symm.trans hch')
    obtain ⟨hcut, hlast⟩ := ih hfollows hpass
    refine ⟨by rw [hstream, cutAtClosing_step hcloses, hcut]; rfl, ?_⟩
    rwa [List.append_assoc, List.singleton_append] at hlast

/-- A passage that fails comes to a read that fails, or to the end of a source in which no closing
character is left. -/
theorem passUntil_error (hreads : Feedless reads) (h : c.Follows reads before) {halt : Halt}
    (hp : c.passUntil closes state = .error halt) :
    (halt.IsFailedRead reads ∧ ∃ passed, c.stream = passed ++ halt.cursor.stream ∧
        halt.cursor.Follows reads (before ++ passed)) ∨
      (cutAtClosing closes state c.stream = none ∧ halt.cursor.isExhausted = true ∧
        halt.diagnostic = halt.cursor.diagnostic .readPastEnd ∧
        halt.cursor.Follows reads (before ++ c.stream)) := by
  fun_induction passUntil closes state c generalizing before halt with
  | case1 state c hch =>
    -- the source has ended, and with it the text in which to look
    cases hp
    rw [lookahead_eq_head?, List.head?_eq_none_iff] at hch
    refine .inr ⟨by rw [hch, cutAtClosing], stream_eq_nil_iff.mp hch, rfl, ?_⟩
    rw [hch, List.append_nil]
    exact h
  | case2 => cases hp
  | case3 state c ch hch state' hcloses halt' hadvance =>
    cases hp
    have hx : c.isExhausted = false := isExhausted_of_head? (lookahead_eq_head? c ▸ hch)
    obtain ⟨hfailed, hstream, hfollows⟩ := h.advance_error hx hadvance
    refine .inl ⟨hfailed, [], hstream.symm, ?_⟩
    rw [List.append_nil]
    exact hfollows
  | case4 state c ch hch state' hcloses next hnext halt' hpass ih =>
    cases hp
    obtain ⟨ch', hch', hstream, hfollows⟩ := h.advance hreads hnext
    obtain rfl : ch = ch' := Option.some.inj (hch.symm.trans hch')
    rcases ih hfollows hpass with ⟨hfailed, passed, hpassed, hlast⟩ | ⟨hcut, hx, hdiag, hlast⟩
    · refine .inl ⟨hfailed, ch :: passed, by rw [hstream, hpassed]; rfl, ?_⟩
      rwa [List.append_assoc, List.singleton_append] at hlast
    · refine .inr ⟨by rw [hstream, cutAtClosing_step hcloses, hcut]; rfl, hx, hdiag, ?_⟩
      rwa [hstream, List.append_cons]
  | case5 => cases hp

end Cursor.Follows

/-! ### String bodies -/

/-- A string literal is closed by the first quote that no backslash escapes: what stands before it
is a string body. -/
theorem isStringBody_of_cut {escaping : Bool} {cs body rest : List Char}
    (h : cutAtClosing closesString escaping cs = some (body, rest)) :
    IsStringBody (if escaping then '\\' :: body else body) ∧ rest.head? = some '"' := by
  induction cs generalizing escaping body with
  | nil => cases h
  | cons ch cs ih =>
    cases hcloses : closesString escaping ch with
    | none =>
      rw [cutAtClosing_stop hcloses] at h
      cases h
      cases escaping with
      | true => simp [closesString] at hcloses
      | false =>
        have hquote : ch = '"' := by
          by_contra hne
          simp [closesString, hne] at hcloses
        exact ⟨.nil, by rw [hquote]; rfl⟩
    | some escaping' =>
      rw [cutAtClosing_step hcloses] at h
      obtain ⟨cut, hcut, heq⟩ := Option.map_eq_some_iff.mp h
      cases heq
      obtain ⟨hbody, hrest⟩ := ih hcut
      refine ⟨?_, hrest⟩
      cases escaping with
      | true =>
        obtain rfl : escaping' = false := by simpa [closesString] using hcloses.symm
        exact .escaped hbody
      | false =>
        have hquote : ch ≠ '"' := by
          rintro rfl
          simp [closesString] at hcloses
        by_cases hback : ch = '\\'
        · obtain rfl : escaping' = true := by simpa [closesString, hquote, hback] using hcloses.symm
          subst hback
          exact hbody
        · obtain rfl : escaping' = false := by simpa [closesString, hquote, hback] using hcloses.symm
          exact .plain hquote hback hbody

theorem cut_of_isStringBody {body : List Char} (h : IsStringBody body) (rest : List Char) :
    cutAtClosing closesString false (body ++ '"' :: rest) = some (body, '"' :: rest) := by
  induction h with
  | nil => rfl
  | plain quote backslash _ ih => simp [cutAtClosing, closesString, quote, backslash, ih]
  | escaped _ ih => simp [cutAtClosing, closesString, ih]

/-! ### Comment bodies -/

theorem not_closed_cons {c : Char} {cs : List Char} :
    ¬ ['*', '/'] <:+: c :: cs ↔ ¬ (c = '*' ∧ cs.head? = some '/') ∧ ¬ ['*', '/'] <:+: cs := by
  rw [List.infix_cons_iff, not_or, List.cons_prefix_cons, List.singleton_prefix_iff_head?_eq_some,
    eq_comm]

/-- A block comment is closed by the first slash directly after a star: what stands before the star
holds no star and slash. A star before the text counts if the comment is `starred`. -/
theorem not_closed_of_cut {starred : Bool} {cs passed rest : List Char}
    (h : cutAtClosing closesComment starred cs = some (passed, rest)) :
    rest.head? = some '/' ∧ ∃ body, ¬ ['*', '/'] <:+: body ∧
      (if starred then '*' :: passed else passed) = body ++ ['*'] := by
  induction cs generalizing starred passed with
  | nil => cases h
  | cons ch cs ih =>
    cases hcloses : closesComment starred ch with
    | none =>
      rw [cutAtClosing_stop hcloses] at h
      cases h
      obtain ⟨rfl, rfl⟩ : starred = true ∧ ch = '/' := by simpa [closesComment] using hcloses
      exact ⟨rfl, [], by simp, rfl⟩
    | some starred' =>
      rw [cutAtClosing_step hcloses] at h
      obtain ⟨⟨passed', rest'⟩, hcut, heq⟩ := Option.map_eq_some_iff.mp h
      cases heq
      obtain ⟨hslash, hstarred⟩ : ¬ (starred = true ∧ ch = '/') ∧ (ch == '*') = starred' := by
        simpa [closesComment] using hcloses
      obtain ⟨hrest, body, hbody, heq⟩ := ih hcut
      refine ⟨hrest, ?_⟩
      -- the characters passed over, without a star before them
      obtain ⟨body', hbody', heq', hhead⟩ : ∃ body', ¬ ['*', '/'] <:+: body' ∧
          ch :: passed' = body' ++ ['*'] ∧ ¬ (starred = true ∧ body'.head? = some '/') := by
        by_cases hstar : ch = '*'
        · subst hstar
          obtain rfl : true = starred' := hstarred
          refine ⟨body, hbody, heq, ?_⟩
          rintro ⟨-, hhead⟩
          obtain ⟨ds, rfl⟩ := List.head?_eq_some_iff.mp hhead
          simp at heq
        · have hfalse : (ch == '*') = false := by simpa using hstar
          rw [← hstarred, hfalse] at heq
          have heq : passed' = body ++ ['*'] := heq
          refine ⟨ch :: body, not_closed_cons.mpr ⟨fun h => hstar h.1, hbody⟩, by rw [heq]; rfl, ?_⟩
          rintro ⟨hs, hhead⟩
          exact hslash ⟨hs, Option.some.inj hhead⟩
      cases starred with
      | false => exact ⟨body', hbody', heq'⟩
      | true =>
        refine ⟨'*' :: body', not_closed_cons.mpr ⟨fun h => hhead ⟨rfl, h.2⟩, hbody'⟩, ?_⟩
        show '*' :: ch :: passed' = '*' :: body' ++ ['*']
        rw [heq', List.cons_append]

theorem cut_of_not_closed {starred : Bool} {body : List Char} (rest : List Char)
    (h : ¬ ['*', '/'] <:+: if starred then '*' :: body else body) :
    cutAtClosing closesComment starred (body ++ '*' :: '/' :: rest) = some (body ++ ['*'], '/' :: rest) := by
  induction body generalizing starred with
  | nil => cases starred <;> rfl
  | cons c body ih =>
    have htail : ¬ ['*', '/'] <:+: if (c == '*') = true then '*' :: body else body := by
      have hc : ¬ ['*', '/'] <:+: c :: body := by
        cases starred with
        | false => exact h
        | true => exact (not_closed_cons.mp h).2
      by_cases hstar : c = '*'
      · subst hstar
        rw [if_pos (by simp)]
        exact hc
      · rw [if_neg (by simp [hstar])]
        exact (not_closed_cons.mp hc).2
    have hstep : closesComment starred c = some (c == '*') := by
      cases starred with
      | false => rfl
      | true =>
        have hslash : c ≠ '/' := by
          rintro rfl
          exact (not_closed_cons.mp h).1 ⟨rfl, rfl⟩
        simp [closesComment, hslash]
    rw [List.cons_append, cutAtClosing_step hstep, ih htail]
    rfl

end MiniLex
