import MiniLex.Proofs.Segmentation

/-!
# Layouts

Tokens can be written with any blanks and comments between them: scanning finds the tokens again.
One thing has to be seen to: a slash that divides must not be followed by a comment at once, since
slash and slash open a comment themselves.

- `IsGap`: blanks and comments.
- `Item`, `printed`: a token as it is written, with the gap after it; the text of several.
- `Laid ts cs`: the tokens `ts` are written in `cs`, with gaps around them. It outlasts what becomes
  of a text when it is read by lines (`Laid.dropReturns`, `Laid.concat_feed`).
- `Lexeme.tokenize_eq`: a lexeme on its own, if it is all on one line.

Main statement: `tokenize_printed`.
-/

namespace MiniLex

/-! ## Writing tokens -/

/-- Any number of blanks and comments. -/
inductive IsGap : List Char → Prop where
  | nil : IsGap []
  | blank {c : Char} {cs : List Char} (space : IsSpace c) (rest : IsGap cs) : IsGap (c :: cs)
  | comment {w cs : List Char} (comment : IsComment w) (rest : IsGap cs) : IsGap (w ++ cs)

/-- A token as it is written, with the gap after it. A string literal must not lose a carriage
return to a line feed after it. -/
structure Item where
  token : Token
  text : List Char
  gap : List Char
  lexeme : Lexeme token text
  returns : token.kind = .stringLiteral → ¬ ['\r', '\n'] <:+: text
  isGap : IsGap gap

/-- The text of several tokens after a gap. -/
def printed (gap : List Char) (items : List Item) : List Char :=
  gap ++ items.flatMap fun i => i.text ++ i.gap

/-- A text that is empty or begins with a blank or a comment. -/
def BeginsGap (cs : List Char) : Prop :=
  ∀ c, cs.head? = some c → IsSpace c ∨ OpensComment cs

/-- The tokens are written in the text, with gaps around them. -/
inductive Laid : List Token → List Char → Prop where
  | nil : Laid [] []
  | blank {c : Char} {ts : List Token} {cs : List Char} (space : IsSpace c) (rest : Laid ts cs) :
      Laid ts (c :: cs)
  | comment {w : List Char} {ts : List Token} {cs : List Char} (comment : IsComment w)
      (rest : Laid ts cs) : Laid ts (w ++ cs)
  | token {t : Token} {w : List Char} {ts : List Token} {cs : List Char} (lexeme : Lexeme t w)
      (returns : ¬ ['\r', '\n'] <:+: w) (gap : BeginsGap cs)
      (slash : t = .plain (.mark .divide) → ¬ OpensComment cs) (rest : Laid ts cs) :
      Laid (t :: ts) (w ++ cs)

/-! ## Lexemes before gaps -/

section Gaps

variable {cs : List Char}

/-- A gap begins with one of a few characters. -/
theorem BeginsGap.head_mem (h : BeginsGap cs) {c : Char} (hc : cs.head? = some c) :
    c ∈ [' ', '\t', '\r', '\n', '/'] := by
  rcases h c hc with (rfl | rfl | rfl | rfl) | hopens
  · simp
  · simp
  · simp
  · simp
  · obtain rfl : c = '/' := Option.some.inj (hc.symm.trans hopens.head)
    simp

theorem BeginsGap.stops (h : BeginsGap cs) {p : Char → Bool}
    (hp : [' ', '\t', '\r', '\n', '/'].any p = false) : Stops p cs :=
  fun c hc => eq_false_of_ne_true (List.any_eq_false.mp hp c (h.head_mem hc))

theorem BeginsGap.head_ne (h : BeginsGap cs) {d : Char} (hd : d ∉ [' ', '\t', '\r', '\n', '/']) :
    cs.head? ≠ some d :=
  fun hc => hd (h.head_mem hc)

theorem BeginsGap.not_opensExponent (h : BeginsGap cs) : ¬ OpensExponent cs := by
  rintro (he | he)
  · exact h.head_ne (by decide) he
  · exact h.head_ne (by decide) he

/-- A mark before a gap is the longest. -/
theorem length_le_of_beginsGap (h : BeginsGap cs) {m m' : Mark} (hm : m'.text <+: m.text ++ cs) :
    m'.text.length ≤ m.text.length := by
  have hlength : ∀ m ∈ Mark.all, m.text.length = 1 ∨ m.text.length = 2 := by decide
  have hsecond : ∀ m ∈ Mark.all, m.text.tail.all (· ∉ [' ', '\t', '\r', '\n', '/']) := by decide
  rcases hlength m' m'.mem_all with hone | htwo
  · have := List.length_pos_iff.mpr (Lexeme.mark m).ne_nil
    omega
  rcases hlength m m.mem_all with hone | htwo'
  · -- the second character would have to begin a gap
    obtain ⟨c, hc⟩ := List.length_eq_one_iff.mp hone
    obtain ⟨d, e, hde⟩ := List.length_eq_two.mp htwo
    rw [hc, hde, List.singleton_append, List.cons_prefix_cons, List.singleton_prefix_iff_head?_eq_some] at hm
    have he : e ∉ [' ', '\t', '\r', '\n', '/'] := by simpa [hde] using hsecond m' m'.mem_all
    exact absurd hm.2 (h.head_ne he)
  · omega

/-- A mark before a gap opens no comment, unless it is a slash that a comment follows. -/
theorem not_opensComment_mark (h : BeginsGap cs) {m : Mark}
    (hslash : m = .divide → ¬ OpensComment cs) : ¬ OpensComment (m.text ++ cs) := by
  have hmarks : ∀ m ∈ Mark.all, m.text.head? = some '/' → m = .divide ∨ m = .divAssign := by decide
  intro hopens
  obtain ⟨c, ds, hds, -⟩ := m.head
  have hhead : m.text.head? = some '/' := by
    have hopen := hopens.head
    rw [hds] at hopen ⊢
    exact hopen
  -- of the marks that begin with a slash, the other's second character opens no comment
  rcases hmarks m m.mem_all hhead with rfl | rfl
  · -- the slash would have to be followed by the second character of a comment's opening
    have hnext : cs.head? = some '*' ∨ cs.head? = some '/' := by
      rcases hopens with ⟨s, hs⟩ | ⟨s, hs⟩
      · have hs : '*' :: s = cs := (List.cons.inj hs).2
        exact .inl (by rw [← hs]; rfl)
      · have hs : '/' :: s = cs := (List.cons.inj hs).2
        exact .inr (by rw [← hs]; rfl)
    rcases hnext with hstar | hslash'
    · exact h.head_ne (by decide) hstar
    · rcases h '/' hslash' with hspace | hopens
      · exact absurd hspace (by unfold IsSpace; decide)
      · exact hslash rfl hopens
  · rcases hopens with ⟨s, hs⟩ | ⟨s, hs⟩
    · exact absurd (List.cons.inj (List.cons.inj hs).2).1 (by decide)
    · exact absurd (List.cons.inj (List.cons.inj hs).2).1 (by decide)

/-- A lexeme before a gap is a segment. -/
theorem Lexeme.fits {t : Token} {w : List Char} (h : Lexeme t w) (hgap : BeginsGap cs)
    (hslash : t = .plain (.mark .divide) → ¬ OpensComment cs) : (Segment.token t w).Fits cs := by
  have hdigits : Stops Char.isDigit cs := hgap.stops (by decide)
  have hparts : Stops isWordPart cs := hgap.stops (by decide)
  cases h with
  | keyword k =>
    obtain ⟨c, ds, hds, hc⟩ := k.isWord_text.head
    have hlongest := longest_word k.isWord_text hparts
    rw [String.ofList_toList, Token.word_text] at hlongest
    exact hlongest.fits (by rw [hds]; rfl) (by simp [hc]) (by simp [hc])
  | mark m =>
    refine (longest_mark fun m' hm' => length_le_of_beginsGap hgap hm').mark_fits ?_
    refine not_opensComment_mark hgap ?_
    rintro rfl
    exact hslash rfl
  | identifier word free =>
    obtain ⟨c, ds, rfl, hc⟩ := word.head
    have hlongest := longest_word word hparts
    rw [Token.word_of_free free] at hlongest
    exact hlongest.fits rfl (by simp [hc]) (by simp [hc])
  | integer digits =>
    obtain ⟨c, ds, rfl, hc⟩ := digits.head
    refine (longest_integer digits hdigits (hgap.head_ne (by decide))).number_fits rfl hc fun _ => ?_
    exact hgap.not_opensExponent
  | double double =>
    obtain ⟨c, ds, rfl, hc⟩ := double.head
    refine Longest.number_fits ?_ rfl hc fun _ => hgap.not_opensExponent
    rcases double with hm | ⟨m, e, hm, he, heq⟩
    · exact longest_mantissa hm hdigits fun e he hbegins => hgap.not_opensExponent (he.opens hbegins)
    · rw [heq]
      exact longest_exponent hm he hdigits
  | char literal => exact literal.fits cs
  | string literal => exact literal.fits cs

end Gaps

/-! ## Layouts are made up of segments -/

theorem reportsOf_eq_nil {segs : List Segment} (h : ∀ s ∈ segs, ∀ rest, s.fault rest = none)
    (before : List Char) : reportsOf before segs = [] := by
  induction segs generalizing before with
  | nil => rfl
  | cons s segs ih =>
    have hlater := ih fun s' hs' => h s' (List.mem_cons_of_mem _ hs')
    rw [reportsOf, hlater, Segment.reports, h s (List.mem_cons_self ..)]
    rfl

/-- Tokens that are written in a text are those of its segments, and nothing is wrong with any. -/
theorem Laid.tiles {ts : List Token} {cs : List Char} (h : Laid ts cs) :
    ∃ segs, Tiles segs cs ∧ segs.filterMap Segment.token? = ts ∧
      ∀ s ∈ segs, ∀ rest, s.fault rest = none := by
  induction h with
  | nil => exact ⟨[], .nil, rfl, by simp⟩
  | @blank c ts cs space rest ih =>
    obtain ⟨segs, htiles, htokens, hfault⟩ := ih
    refine ⟨.blank c :: segs, .cons (.blank space) htiles, htokens, ?_⟩
    rintro s (_ | ⟨_, hs⟩)
    · exact fun _ => rfl
    · exact hfault s hs
  | @comment w ts cs comment rest ih =>
    obtain ⟨segs, htiles, htokens, hfault⟩ := ih
    refine ⟨.comment w :: segs, .cons (.comment comment) htiles, htokens, ?_⟩
    rintro s (_ | ⟨_, hs⟩)
    · exact fun _ => rfl
    · exact hfault s hs
  | @token t w ts cs lexeme returns gap slash rest ih =>
    obtain ⟨segs, htiles, htokens, hfault⟩ := ih
    refine ⟨.token t w :: segs, .cons (lexeme.fits gap slash) htiles, by rw [← htokens]; rfl, ?_⟩
    rintro s (_ | ⟨_, hs⟩)
    · exact fun rest => lexeme.fault rest
    · exact hfault s hs

/-! ## Layouts and lines -/

theorem opensComment_cons {c : Char} {cs : List Char} :
    OpensComment (c :: cs) ↔ c = '/' ∧ (cs.head? = some '*' ∨ cs.head? = some '/') := by
  rw [OpensComment, List.cons_prefix_cons, List.cons_prefix_cons,
    List.singleton_prefix_iff_head?_eq_some, List.singleton_prefix_iff_head?_eq_some, ← and_or_left,
    eq_comm]

section Returns

variable {c : Char} {w cs ds : List Char}

/-- The first character stays, unless it is a carriage return before a line feed. -/
theorem dropReturns_cons_cases (c : Char) (cs : List Char) :
    dropReturns (c :: cs) = c :: dropReturns cs ∨
      (c = '\r' ∧ cs.head? = some '\n' ∧ dropReturns (c :: cs) = dropReturns cs) := by
  by_cases h : c = '\r' ∧ cs.head? = some '\n'
  · obtain ⟨rfl, hhead⟩ := h
    obtain ⟨ds, rfl⟩ := List.head?_eq_some_iff.mp hhead
    refine .inr ⟨rfl, rfl, ?_⟩
    rw [dropReturns, dropReturns_cons (.inl (by decide))]
  · refine .inl (dropReturns_cons ?_)
    by_cases hc : c = '\r'
    · exact .inr fun hhead => h ⟨hc, hhead⟩
    · exact .inl hc

/-- What a text begins with stays, unless it is a carriage return. -/
theorem head?_dropReturns (hc : c ≠ '\r' ∧ c ≠ '\n') :
    (dropReturns cs).head? = some c ↔ cs.head? = some c := by
  cases cs with
  | nil => simp [dropReturns]
  | cons d ds =>
    rcases dropReturns_cons_cases d ds with heq | ⟨rfl, hhead, -⟩
    · rw [heq]
      rfl
    · obtain ⟨es, rfl⟩ := List.head?_eq_some_iff.mp hhead
      rw [dropReturns]
      constructor
      · intro h
        exact absurd (Option.some.inj h).symm hc.2
      · intro h
        exact absurd (Option.some.inj h).symm hc.1

/-- A text is read by lines in two parts, if no line ending is cut. -/
theorem dropReturns_append (h : w.getLast? ≠ some '\r' ∨ cs.head? ≠ some '\n') :
    dropReturns (w ++ cs) = dropReturns w ++ dropReturns cs := by
  induction w with
  | nil => rfl
  | cons c w ih =>
    cases w with
    | nil =>
      have hc : c ≠ '\r' ∨ cs.head? ≠ some '\n' := h.imp_left fun hlast hc => hlast (by rw [hc]; rfl)
      have hsingle : dropReturns [c] = [c] := dropReturns_cons (.inr (by simp))
      rw [List.singleton_append, dropReturns_cons hc, hsingle, List.singleton_append]
    | cons d w =>
      have hlater := ih (by simpa using h)
      rw [List.cons_append] at hlater ⊢
      by_cases hpair : c = '\r' ∧ d = '\n'
      · obtain ⟨rfl, rfl⟩ := hpair
        rw [dropReturns_cons (.inl (by decide)), dropReturns_cons (.inl (by decide))] at hlater
        rw [List.cons_append, dropReturns, dropReturns, hlater]
      · -- the first character is kept, whatever comes after the second
        have hkeep : ∀ es : List Char, c ≠ '\r' ∨ (d :: es).head? ≠ some '\n' := by
          intro es
          rw [List.head?_cons, ne_eq, ne_eq, Option.some.injEq, ← not_and_or]
          exact hpair
        rw [List.cons_append, dropReturns_cons (hkeep _), dropReturns_cons (hkeep _), hlater,
          List.cons_append]

theorem dropReturns_of_no_pair (h : ¬ ['\r', '\n'] <:+: w) : dropReturns w = w := by
  induction w with
  | nil => rfl
  | cons c w ih =>
    rw [List.infix_cons_iff, not_or, List.cons_prefix_cons, List.singleton_prefix_iff_head?_eq_some,
      not_and_or] at h
    rw [dropReturns_cons (h.1.imp_left fun hc heq => hc heq.symm), ih h.2]

theorem opensComment_dropReturns : OpensComment (dropReturns cs) ↔ OpensComment cs := by
  cases cs with
  | nil => rfl
  | cons c cs =>
    rcases dropReturns_cons_cases c cs with heq | ⟨rfl, hhead, -⟩
    · rw [heq, opensComment_cons, opensComment_cons, head?_dropReturns (by decide),
        head?_dropReturns (by decide)]
    · obtain ⟨es, rfl⟩ := List.head?_eq_some_iff.mp hhead
      rw [dropReturns, opensComment_cons, opensComment_cons]
      simp

theorem BeginsGap.dropReturns (h : BeginsGap cs) : BeginsGap (dropReturns cs) := by
  intro c hc
  cases cs with
  | nil => cases hc
  | cons d cs =>
    rcases dropReturns_cons_cases d cs with heq | ⟨rfl, hhead, -⟩
    · rw [heq] at hc
      rcases h c hc with hspace | hopens
      · exact .inl hspace
      · exact .inr (opensComment_dropReturns.mpr hopens)
    · obtain ⟨es, rfl⟩ := List.head?_eq_some_iff.mp hhead
      obtain rfl : '\n' = c := Option.some.inj hc
      exact .inl (.inr (.inr (.inr rfl)))

theorem not_closed_dropReturns (h : ¬ ['*', '/'] <:+: w) : ¬ ['*', '/'] <:+: dropReturns w := by
  induction w with
  | nil => exact h
  | cons c w ih =>
    obtain ⟨hfirst, hlater⟩ := not_closed_cons.mp h
    rcases dropReturns_cons_cases c w with heq | ⟨-, -, heq⟩
    · rw [heq]
      refine not_closed_cons.mpr ⟨?_, ih hlater⟩
      rwa [head?_dropReturns (by decide)]
    · rw [heq]
      exact ih hlater

/-- A comment stays one. -/
theorem IsComment.dropReturns (h : IsComment w) : IsComment (dropReturns w) := by
  cases h with
  | @block body inner =>
    have heq : MiniLex.dropReturns ('/' :: '*' :: body ++ ['*', '/']) =
        '/' :: '*' :: MiniLex.dropReturns body ++ ['*', '/'] := by
      rw [dropReturns_append (.inr (by simp)), dropReturns_cons (.inl (by decide)),
        dropReturns_cons (.inl (by decide))]
      rfl
    rw [heq]
    exact .block (not_closed_dropReturns inner)
  | @line body feed =>
    have hfeed : '\n' ∉ '/' :: '/' :: body := by simp [feed]
    have hline : lineText ('/' :: '/' :: body ++ ['\n']) = '/' :: '/' :: lineText (body ++ ['\n']) :=
      calc lineText ('/' :: ('/' :: body ++ ['\n']))
        _ = '/' :: lineText ('/' :: (body ++ ['\n'])) := lineText_cons (by simp)
        _ = '/' :: '/' :: lineText (body ++ ['\n']) := congrArg _ (lineText_cons (by simp))
    rw [dropReturns_line hfeed [], hline]
    exact .line (feed_not_mem_lineText feed)

theorem IsComment.getLast?_ne (h : IsComment w) : w.getLast? ≠ some '\r' := by
  cases h with
  | block _ =>
    rw [List.getLast?_append]
    simp
  | line _ =>
    rw [List.getLast?_append]
    simp

/-- No lexeme ends in a carriage return. -/
theorem Lexeme.getLast?_ne {t : Token} (h : Lexeme t w) : w.getLast? ≠ some '\r' := by
  intro hlast
  have hmem := List.mem_of_getLast? hlast
  cases h with
  | keyword k => exact absurd (k.isWord_text.all_part _ hmem) (by decide)
  | mark m =>
    have hmarks : ∀ m ∈ Mark.all, '\r' ∉ m.text := by decide
    exact hmarks m m.mem_all hmem
  | identifier word _ => exact absurd (word.all_part _ hmem) (by decide)
  | integer digits => exact absurd (digits.2 _ hmem) (by decide)
  | double double => exact absurd (double.mem hmem) (by decide)
  | char literal =>
    obtain ⟨unit, -, rfl⟩ := literal
    rw [List.getLast?_append] at hlast
    simp at hlast
  | string literal =>
    obtain ⟨body, -, rfl⟩ := literal
    rw [List.getLast?_append] at hlast
    simp at hlast

end Returns

namespace Laid

variable {ts : List Token} {cs : List Char}

/-- Tokens stay written in a text that loses the carriage returns before its line feeds. -/
theorem dropReturns (h : Laid ts cs) : Laid ts (dropReturns cs) := by
  induction h with
  | nil => exact .nil
  | @blank c ts cs space rest ih =>
    rcases dropReturns_cons_cases c cs with heq | ⟨-, -, heq⟩
    · rw [heq]
      exact .blank space ih
    · rwa [heq]
  | @comment w ts cs comment rest ih =>
    rw [dropReturns_append (.inl comment.getLast?_ne)]
    exact .comment comment.dropReturns ih
  | @token t w ts cs lexeme returns gap slash rest ih =>
    rw [dropReturns_append (.inl lexeme.getLast?_ne), dropReturns_of_no_pair returns]
    exact .token lexeme returns gap.dropReturns (fun ht h => slash ht (opensComment_dropReturns.mp h)) ih

/-- Tokens stay written in a text that is ended by one line feed more. -/
theorem concat_feed (h : Laid ts cs) : Laid ts (cs ++ ['\n']) := by
  induction h with
  | nil => exact .blank (.inr (.inr (.inr rfl))) .nil
  | blank space rest ih => exact .blank space ih
  | comment comment rest ih =>
    rw [List.append_assoc]
    exact .comment comment ih
  | @token t w ts cs lexeme returns gap slash rest ih =>
    rw [List.append_assoc]
    -- the line feed more is a gap where there was none, and it opens no comment
    refine .token lexeme returns ?_ (fun ht h => slash ht ?_) ih
    · intro c hc
      cases cs with
      | nil =>
        obtain rfl : '\n' = c := Option.some.inj hc
        exact .inl (.inr (.inr (.inr rfl)))
      | cons d cs =>
        refine (gap c hc).imp_right fun hopens => ?_
        exact hopens.imp (·.trans (List.prefix_append ..)) (·.trans (List.prefix_append ..))
    · match cs, h with
      | [], h => exact absurd h.head (by decide)
      | [d], h =>
        rw [List.singleton_append, opensComment_cons] at h
        exact absurd h.2 (by decide)
      | d :: e :: cs, h =>
        rw [List.cons_append, opensComment_cons] at h
        exact opensComment_cons.mpr h

end Laid

/-- Scanning finds the tokens that are written in a text, and reports nothing. -/
theorem Laid.tokenize_eq {ts : List Token} {text : List Char} (h : Laid ts (canonical text)) :
    tokenize text = ⟨.ok (ts ++ [.eof]), []⟩ := by
  obtain ⟨segs, htiles, htokens, hfault⟩ := h.tiles
  rw [tokenize_of_tiles htiles, htokens, reportsOf_eq_nil hfault]

/-- A lexeme that is all on one line is scanned to its token again, and nothing is reported. -/
theorem Lexeme.tokenize_eq {t : Token} {w : List Char} (h : Lexeme t w) (hfeed : '\n' ∉ w) :
    tokenize w = ⟨.ok [t, .eof], []⟩ := by
  have hopen : ¬ CompleteLines w := fun hlines => hfeed (hlines.feed_mem h.ne_nil)
  have hcanonical : canonical w = w ++ ['\n'] := by
    rw [canonical_eq, dropReturns_of_feedless hfeed, if_neg hopen]
  have hreturns : ¬ ['\r', '\n'] <:+: w := fun hpair => hfeed (hpair.subset (by simp))
  -- the line feed that is put behind the lexeme is the gap that ends it
  have hspace : IsSpace '\n' := .inr (.inr (.inr rfl))
  have hgap : BeginsGap ['\n'] := by
    intro c hc
    obtain rfl : '\n' = c := Option.some.inj hc
    exact .inl hspace
  have hslash : ¬ OpensComment ['\n'] := fun hopens => absurd hopens.head (by decide)
  have hlaid : Laid [t] (canonical w) := by
    rw [hcanonical]
    exact .token h hreturns hgap (fun _ => hslash) (.blank hspace .nil)
  exact hlaid.tokenize_eq

/-! ## Printed tokens -/

/-- A gap that something follows decides what the text begins with. -/
theorem IsGap.begins {g cs : List Char} (h : IsGap g) (hlast : g = [] → cs = []) :
    BeginsGap (g ++ cs) ∧ (OpensComment (g ++ cs) → OpensComment g) := by
  cases h with
  | nil =>
    rw [hlast rfl]
    exact ⟨fun c hc => (by cases hc), id⟩
  | @blank d g space _ =>
    constructor
    · intro c hc
      obtain rfl : d = c := Option.some.inj hc
      exact .inl space
    · intro hopens
      obtain rfl : d = '/' := Option.some.inj hopens.head
      exact absurd space (by unfold IsSpace; decide)
  | comment comment _ =>
    constructor
    · intro c _
      rw [List.append_assoc]
      exact .inr (comment.opens _)
    · intro _
      exact comment.opens _

/-- A gap before a layout is part of it. -/
theorem IsGap.laid {g cs : List Char} {ts : List Token} (h : IsGap g) (hcs : Laid ts cs) :
    Laid ts (g ++ cs) := by
  induction h with
  | nil => exact hcs
  | blank space _ ih => exact .blank space ih
  | comment comment _ ih =>
    rw [List.append_assoc]
    exact .comment comment ih

theorem Item.not_returns (i : Item) : ¬ ['\r', '\n'] <:+: i.text := by
  by_cases hkind : i.token.kind = .stringLiteral
  · exact i.returns hkind
  · intro hpair
    exact i.lexeme.feed_not_mem hkind (hpair.subset (by simp))

/-- Printed tokens are written in the text. -/
theorem laid_printed {items : List Item} (hgaps : ∀ i ∈ items.dropLast, i.gap ≠ [])
    (hslash : ∀ i ∈ items, i.token = .plain (.mark .divide) → ¬ OpensComment i.gap) :
    Laid (items.map Item.token) (items.flatMap fun i => i.text ++ i.gap) := by
  induction items with
  | nil => exact .nil
  | cons i items ih =>
    have htail : ∀ j ∈ items.dropLast, j ∈ (i :: items).dropLast := by
      cases items with
      | nil => simp
      | cons k items => exact fun j hj => List.mem_cons_of_mem _ hj
    have hlater := ih (fun j hj => hgaps j (htail j hj)) fun j hj => hslash j (List.mem_cons_of_mem _ hj)
    -- only the last gap may be empty
    have hlast : i.gap = [] → items.flatMap (fun i => i.text ++ i.gap) = [] := by
      intro hnil
      cases items with
      | nil => rfl
      | cons j items => exact absurd hnil (hgaps i (List.mem_cons_self ..))
    obtain ⟨hgap, hopens⟩ := i.isGap.begins hlast
    rw [List.flatMap_cons, List.append_assoc]
    refine .token i.lexeme i.not_returns hgap (fun ht h => ?_) (i.isGap.laid hlater)
    exact hslash i (List.mem_cons_self ..) ht (hopens h)

/-- Scanning finds the tokens again that were written with gaps between them, and reports nothing,
if no comment comes at once after a slash that divides. -/
theorem tokenize_printed {gap : List Char} (hgap : IsGap gap) {items : List Item}
    (hgaps : ∀ i ∈ items.dropLast, i.gap ≠ [])
    (hslash : ∀ i ∈ items, i.token = .plain (.mark .divide) → ¬ OpensComment i.gap) :
    tokenize (printed gap items) = ⟨.ok (items.map Item.token ++ [.eof]), []⟩ := by
  have hlaid : Laid (items.map Item.token) (printed gap items) := hgap.laid (laid_printed hgaps hslash)
  have hcanonical : Laid (items.map Item.token) (canonical (printed gap items)) := by
    rcases canonical_cases (printed gap items) with heq | heq
    · rw [heq]
      exact hlaid.dropReturns
    · rw [heq]
      exact hlaid.dropReturns.concat_feed
  exact hcanonical.tokenize_eq

/-! ### Tokens at hand -/

/-- A mark with a gap after it. -/
def Item.ofMark (m : Mark) {gap : List Char} (isGap : IsGap gap) : Item :=
  ⟨.plain (.mark m), m.text, gap, .mark m, fun h => (by cases h), isGap⟩

theorem isGap_comment : IsGap ['/', '*', '*', '/'] := by
  have hcomment : IsComment ('/' :: '*' :: [] ++ ['*', '/']) := .block (by simp)
  exact .comment hcomment .nil

theorem isGap_lines : IsGap ['\r', '\n', '/', '/', 'x', '\n'] := by
  have hcomment : IsComment ('/' :: '/' :: ['x'] ++ ['\n']) := .line (by decide)
  exact .blank (by simp [IsSpace]) (.blank (by simp [IsSpace]) (.comment hcomment .nil))

/-- A double right before a comment, a slash before an end of line and a comment, and a string
literal of two lines. -/
theorem tokenize_printed_three_items :
    let double : Item :=
      ⟨.spelled .doubleLiteral ['1', '.'], ['1', '.'], _,
        .double (.inl ⟨['1'], [], by simp [AllDigits], by simp [AllDigits], rfl⟩), fun h => (by cases h),
        isGap_comment⟩
    let string : Item :=
      ⟨.spelled .stringLiteral ['"', '\n', '"'], ['"', '\n', '"'], _,
        .string ⟨['\n'], .plain (by decide) (by decide) .nil, rfl⟩, fun _ => (by decide), .nil⟩
    let items := [double, .ofMark .divide isGap_lines, string]
    (∀ i ∈ items.dropLast, i.gap ≠ []) ∧
      (∀ i ∈ items, i.token = .plain (.mark .divide) → ¬ OpensComment i.gap) ∧
        tokenize (printed [' '] items) = ⟨.ok (items.map Item.token ++ [.eof]), []⟩ := by
  intro double string items
  have hgaps : ∀ i ∈ items.dropLast, i.gap ≠ [] := by simp [items, double, Item.ofMark]
  have hslash : ∀ i ∈ items, i.token = .plain (.mark .divide) → ¬ OpensComment i.gap := by
    simp [items, double, string, Item.ofMark, opensComment_cons, Token.spelled, Token.plain]
  exact ⟨hgaps, hslash, tokenize_printed (.blank (.inl rfl) .nil) hgaps hslash⟩

/-- After a slash that divides not every gap will do: what would be a block comment becomes a line
comment. -/
theorem not_tokenize_printed :
    ¬ ∀ (gap : List Char) (items : List Item), IsGap gap → (∀ i ∈ items.dropLast, i.gap ≠ []) →
      tokenize (printed gap items) = ⟨.ok (items.map Item.token ++ [.eof]), []⟩ := by
  intro h
  have htokens := h [] [.ofMark .divide isGap_comment, .ofMark .semicolon .nil] .nil (by simp [Item.ofMark])
  have hlost : (tokenize ['/', '/', '*', '*', '/', ';']).result = .ok [.eof] := by decide +kernel
  rw [show tokenize ['/', '/', '*', '*', '/', ';'] = _ from htokens] at hlost
  exact absurd hlost (by decide)

end MiniLex
