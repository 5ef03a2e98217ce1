import MiniLex.Proofs.Segment

/-!
# What the front of a line shows

The front of the rest of a line is the segment that comes next. Nothing but the line is looked at:
whatever comes after it, the line feed at its end is enough to decide.

- `Exponent.Spec`, `Front.Spec`: what an exponent and a front say of the characters that they are
  taken from.
- `Front.spec_of`: they are what `Front.of` finds. There is one lemma for each family of lexemes.
-/

namespace MiniLex

/-! ## The lexeme of a token -/

/-- The text of a lexeme is the text of its token. -/
theorem Lexeme.lexeme? {t : Token} {w : List Char} (h : Lexeme t w) : t.lexeme? = some w := by
  cases h with
  | keyword k => rfl
  | mark m => rfl
  | identifier _ _ | integer _ | double _ | char _ | string _ =>
    simp [Token.spelled, Token.lexeme?, String.toList_ofList]

/-- Nothing is wrong with a token whose text is all of its lexeme. -/
theorem Lexeme.fault {t : Token} {w : List Char} (h : Lexeme t w) (rest : List Char) :
    (Segment.token t w).fault rest = none :=
  if_pos h.lexeme?

theorem Lexeme.reports {t : Token} {w : List Char} (h : Lexeme t w) (before rest : List Char) :
    (Segment.token t w).reports before rest = [] := by
  rw [Segment.reports, h.fault]

/-- What is wrong with a character literal that is not closed is met right behind it. -/
theorem Segment.fault_unclosed (unit rest : List Char) :
    (Segment.token (.spelled .charLiteral ('\'' :: unit ++ ['\''])) ('\'' :: unit)).fault rest =
      some (unit.length + 1, .expectedCharacter '\'' rest.head?) := by
  have hopen : (Token.spelled .charLiteral ('\'' :: unit ++ ['\''])).lexeme? ≠ some ('\'' :: unit) := by
    simp [Token.lexeme?, Token.spelled, String.toList_ofList]
  exact if_neg hopen

/-- The longest lexeme of a text is a segment, if it is no mark and no number. -/
theorem Longest.fits {t : Token} {w rest : List Char} {c : Char} (h : Longest t w (w ++ rest))
    (hc : w.head? = some c) (hmark : Family.of c ≠ .mark) (hnumber : Family.of c ≠ .number) :
    (Segment.token t w).Fits rest := by
  obtain ⟨ds, rfl⟩ := List.head?_eq_some_iff.mp hc
  refine .token h ?_ ?_
  · intro hopens
    obtain rfl : c = '/' := by simpa using hopens.head
    exact hmark (by decide)
  · rintro ⟨hm, -⟩
    obtain ⟨d, ds', heq, hd⟩ := hm.head
    obtain ⟨rfl, -⟩ := List.cons.inj heq
    exact hnumber hd

/-- A character literal is a segment, whatever comes after it. -/
theorem IsCharLiteral.fits {w : List Char} (h : IsCharLiteral w) (rest : List Char) :
    (Segment.token (.spelled .charLiteral w) w).Fits rest := by
  obtain ⟨unit, hunit, rfl⟩ := h
  exact (longest_char hunit).fits (c := '\'') rfl (by decide) (by decide)

/-- A string literal is a segment, whatever comes after it. -/
theorem IsStringLiteral.fits {w : List Char} (h : IsStringLiteral w) (rest : List Char) :
    (Segment.token (.spelled .stringLiteral w) w).Fits rest := by
  obtain ⟨body, hbody, rfl⟩ := h
  exact (longest_string hbody).fits (c := '"') rfl (by decide) (by decide)

/-- A number that is the longest lexeme of a text is a segment, unless the letter of an exponent
cuts it off. -/
theorem Longest.number_fits {t : Token} {w rest : List Char} {c : Char} (h : Longest t w (w ++ rest))
    (hc : w.head? = some c) (hnumber : Family.of c = .number)
    (hexponent : IsMantissa w → ¬ OpensExponent rest) : (Segment.token t w).Fits rest := by
  obtain ⟨ds, rfl⟩ := List.head?_eq_some_iff.mp hc
  refine .token h ?_ fun hcut => hexponent hcut.1 hcut.2
  intro hopens
  obtain rfl : c = '/' := by simpa using hopens.head
  exact absurd hnumber (by decide)

/-- A mark that is the longest lexeme of a text is a segment, unless it opens a comment. -/
theorem Longest.mark_fits {m : Mark} {rest : List Char}
    (h : Longest (.plain (.mark m)) m.text (m.text ++ rest)) (hopens : ¬ OpensComment (m.text ++ rest)) :
    (Segment.token (.plain (.mark m)) m.text).Fits rest := by
  refine .token h hopens ?_
  rintro ⟨hmantissa, -⟩
  obtain ⟨d, ds, hds, hnumber⟩ := hmantissa.head
  obtain ⟨e, es, hes, hmark⟩ := m.head
  obtain ⟨rfl, -⟩ := List.cons.inj (hds.symm.trans hes)
  rw [hnumber] at hmark
  cases hmark

theorem IsExponent.opens {e cs : List Char} (h : IsExponent e) (hcs : e <+: cs) : OpensExponent cs := by
  obtain ⟨head, digits, ⟨letter, sign, hletter, -, rfl⟩, -, rfl⟩ := h
  obtain ⟨s, rfl⟩ := hcs
  simpa [OpensExponent] using hletter

/-- What an exponent makes of a mantissa is no mantissa. -/
theorem IsMantissa.not_isMantissa_append {m e : List Char} (hm : IsMantissa m) (he : IsExponent e) :
    ¬ IsMantissa (m ++ e) := by
  intro hme
  have hstops := he.stops []
  rw [List.append_nil] at hstops
  have hle := (hm.prefix_of_stops hme hstops (List.prefix_refl _)).length_le
  have hpos := List.length_pos_iff.mpr he.ne_nil
  rw [List.length_append] at hle
  omega

/-- A line feed carries on no run of characters that does not accept it. -/
theorem stops_append_feed {p : Char → Bool} {cs : List Char} (more : List Char) (h : Stops p cs)
    (hfeed : p '\n' = false) : Stops p (cs ++ '\n' :: more) := by
  cases cs with
  | nil => exact stops_cons.mpr hfeed
  | cons c cs => exact stops_cons.mpr (stops_cons.mp h)

/-- What a line begins with does not hang on what comes after the line. -/
theorem prefix_of_line {w cs more : List Char} (hcs : '\n' ∉ cs) (hw : '\n' ∉ w)
    (h : w <+: cs ++ '\n' :: more) : w <+: cs :=
  prefix_of_stops (p := (· != '\n')) (bne_of_not_mem hcs) (bne_of_not_mem hw) (stops_cons.mpr rfl) h

theorem opensComment_of_line {cs more : List Char} (hcs : '\n' ∉ cs)
    (h : OpensComment (cs ++ '\n' :: more)) : OpensComment cs :=
  h.imp (prefix_of_line hcs (by decide)) (prefix_of_line hcs (by decide))

theorem Mark.feed_not_mem_text (m : Mark) : '\n' ∉ m.text := by
  cases m <;> decide

/-- Only a string literal goes over several lines. -/
theorem Lexeme.feed_not_mem {t : Token} {w : List Char} (h : Lexeme t w)
    (hkind : t.kind ≠ .stringLiteral) : '\n' ∉ w := by
  intro hmem
  cases h with
  | keyword k => exact absurd (k.isWord_text.all_part _ hmem) (by decide)
  | mark m => exact m.feed_not_mem_text hmem
  | identifier word _ => exact absurd (word.all_part _ hmem) (by decide)
  | integer digits => exact absurd (digits.2 _ hmem) (by decide)
  | double double => exact absurd (double.mem hmem) (by decide)
  | char literal => exact literal.feed_not_mem hmem
  | string _ => exact hkind rfl

namespace Front

/-! ## Specifications -/

/-- What an exponent says of the text that it is taken from. -/
def Exponent.Spec (cs : List Char) : Exponent → Prop
  | .absent => ¬ OpensExponent cs
  | .complete text => ∃ rest, cs = text ++ rest ∧ IsExponent text ∧ Stops Char.isDigit rest
  | .broken text =>
    ∃ rest, cs = text ++ rest ∧ IsExponentHead text ∧ Stops Char.isDigit rest ∧ EndsHead text rest

/-- What a front says of the rest of the line that it is taken from, given what comes after the
line. -/
def Spec (cs tail : List Char) : Front → Prop
  | .lineEnd => cs = []
  | .spacing => ∃ c rest, cs = c :: rest ∧ IsSpace c
  | .lineComment => ['/', '/'] <+: cs
  | .blockComment => ['/', '*'] <+: cs
  | .stringLiteral => ['"'] <+: cs
  | .illegal ch => ∃ rest, cs = ch :: rest ∧ IsIllegal ch
  | .token t width =>
    ∃ w rest, cs = w ++ rest ∧ width = w.length ∧ Lexeme t w ∧ (Segment.token t w).Fits (rest ++ tail)
  | .broken t width cause =>
    ∃ (s : Segment) (rest : List Char), cs = s.text ++ rest ∧ width = s.text.length ∧ s.token? = t ∧
      s.Fits (rest ++ tail) ∧ s.fault (rest ++ tail) = some (width, cause)

theorem found_eq_head? (cs more : List Char) : found cs = (cs ++ '\n' :: more).head? := by
  cases cs <;> rfl

variable {c : Char} {cs : List Char} (more : List Char)

/-! ## Words -/

theorem spec_word (hc : isWordStart c = true) : (word (c :: cs)).Spec (c :: cs) ('\n' :: more) := by
  have hpart : isWordPart c = true := by
    simp only [isWordStart, isWordPart, Char.isAlphanum, Bool.or_eq_true] at hc ⊢
    exact hc.imp_left Or.inl
  have hw : IsWord ((c :: cs).takeWhile isWordPart) := by
    rw [List.takeWhile_cons_of_pos hpart]
    refine ⟨c, _, rfl, by simpa [isWordStart] using hc, fun d hd => ?_⟩
    simpa [isWordPart] using List.mem_takeWhile_imp hd
  have hstops : Stops isWordPart ((c :: cs).dropWhile isWordPart ++ '\n' :: more) :=
    stops_append_feed more (stops_dropWhile _ _) (by decide)
  refine ⟨_, (c :: cs).dropWhile isWordPart, List.takeWhile_append_dropWhile.symm, rfl, .word hw, ?_⟩
  have hfamily : Family.of c = .word := if_pos hc
  refine (longest_word hw hstops).fits (c := c) ?_ (by simp [hfamily]) (by simp [hfamily])
  rw [List.takeWhile_cons_of_pos hpart]
  rfl

/-! ## Numbers -/

theorem sign_cases (cs : List Char) :
    ∃ rest, cs = sign cs ++ rest ∧ (sign cs = [] ∨ sign cs = ['+'] ∨ sign cs = ['-']) ∧
      (sign cs = [] → cs.head? ≠ some '+' ∧ cs.head? ≠ some '-') := by
  cases cs with
  | nil => exact ⟨[], rfl, .inl rfl, by simp⟩
  | cons d ds =>
    by_cases hd : d = '+' ∨ d = '-'
    · refine ⟨ds, by simp [sign, hd], ?_, by simp [sign, hd]⟩
      rcases hd with rfl | rfl
      · exact .inr (.inl rfl)
      · exact .inr (.inr rfl)
    · refine ⟨d :: ds, by simp [sign, hd], .inl (by simp [sign, hd]), fun _ => ?_⟩
      simpa using hd

/-- An exponent is the longest that a text begins with. -/
theorem spec_exponent (cs : List Char) : (exponent cs).Spec cs := by
  cases cs with
  | nil => simp [exponent, Exponent.Spec, OpensExponent]
  | cons e ds =>
    by_cases he : e = 'e' ∨ e = 'E'
    · obtain ⟨rest, hds, hsign, hnone⟩ := sign_cases ds
      have hdrop : ds.drop (sign ds).length = rest := by
        have h := congrArg (List.drop (sign ds).length) hds
        rwa [List.drop_left] at h
      have hhead : IsExponentHead (e :: sign ds) := ⟨e, sign ds, he, hsign, rfl⟩
      have hcut := List.takeWhile_append_dropWhile (p := Char.isDigit) (l := rest)
      have hrest := stops_dropWhile Char.isDigit rest
      simp only [exponent, if_pos he, hdrop]
      split
      · rename_i hdigits
        rw [hdigits, List.nil_append] at hcut
        rw [hcut] at hrest
        refine ⟨rest, by rw [List.cons_append, ← hds], hhead, hrest, ?_⟩
        -- the head cannot go on: its sign, if it has one, is its last character
        rintro d hd ⟨letter, sign', -, hsign', heq⟩
        obtain ⟨-, hlast⟩ := List.cons.inj heq
        have hlast : sign ds ++ [d] = sign' := hlast
        rw [← hlast] at hsign'
        rcases hsign with hnil | hplus | hminus
        · rw [hnil, List.nil_append] at hds hsign'
          obtain ⟨hplus, hminus⟩ := hnone hnil
          rw [hds, hd] at hplus hminus
          rcases hsign' with h | h | h
          · cases h
          · exact hplus (congrArg List.head? h)
          · exact hminus (congrArg List.head? h)
        · simp [hplus] at hsign'
        · simp [hminus] at hsign'
      · rename_i hdigits
        refine ⟨rest.dropWhile Char.isDigit, ?_, ⟨e :: sign ds, _, hhead, ⟨hdigits, ?_⟩, rfl⟩, hrest⟩
        · rw [List.cons_append, List.append_assoc, hcut, ← hds]
        · exact fun d hd => List.mem_takeWhile_imp hd
    · simp only [exponent, if_neg he]
      simpa [Exponent.Spec, OpensExponent] using he

theorem endsHead_append_feed {e rest : List Char} (h : EndsHead e rest) :
    EndsHead e (rest ++ '\n' :: more) := by
  rintro d hd hhead
  cases rest with
  | cons r rest => exact h d hd hhead
  | nil =>
    obtain rfl : '\n' = d := Option.some.inj hd
    obtain ⟨letter, sign, hletter, hsign, heq⟩ := hhead
    have hmem : '\n' ∈ letter :: sign := by rw [← heq]; simp
    rcases hletter with rfl | rfl <;> rcases hsign with rfl | rfl | rfl <;>
      exact absurd hmem (by decide)

theorem not_opensExponent_append_feed {rest : List Char} (h : ¬ OpensExponent rest) :
    ¬ OpensExponent (rest ++ '\n' :: more) := by
  cases rest with
  | nil => simp [OpensExponent]
  | cons r rest => exact h

theorem spec_double {whole : List Char} (hwhole : AllDigits whole) (cs : List Char) :
    (double whole cs).Spec (whole ++ '.' :: cs) ('\n' :: more) := by
  have hm : IsMantissa (whole ++ '.' :: cs.takeWhile Char.isDigit) :=
    ⟨whole, _, hwhole, fun d hd => List.mem_takeWhile_imp hd, rfl⟩
  obtain ⟨c, ds, hds, hc⟩ := hm.head
  have hhead : ∀ e, ((whole ++ '.' :: cs.takeWhile Char.isDigit) ++ e).head? = some c := by
    intro e
    rw [hds]
    rfl
  have hcs : whole ++ '.' :: cs =
      whole ++ '.' :: cs.takeWhile Char.isDigit ++ cs.dropWhile Char.isDigit := by simp
  have hstops := stops_dropWhile Char.isDigit cs
  have hspec := spec_exponent (cs.dropWhile Char.isDigit)
  rw [hcs]
  simp only [double]
  generalize whole ++ '.' :: cs.takeWhile Char.isDigit = m at hm hhead hds
  generalize cs.dropWhile Char.isDigit = tail at hstops hspec
  generalize exponent tail = exponent at hspec
  cases exponent with
  | absent =>
    have hopens := not_opensExponent_append_feed more hspec
    refine ⟨m, tail, rfl, rfl, .double (.inl hm), ?_⟩
    have hlongest := longest_mantissa hm (stops_append_feed more hstops (by decide))
      fun e he hbegins => hopens (he.opens hbegins)
    exact hlongest.number_fits (by simpa using hhead []) hc fun _ => hopens
  | complete text =>
    obtain ⟨rest, rfl, he, hrest⟩ := hspec
    refine ⟨m ++ text, rest, by simp, rfl, .double (.inr ⟨m, text, hm, he, rfl⟩), ?_⟩
    refine (longest_exponent hm he (stops_append_feed more hrest (by decide))).number_fits
      (hhead text) hc fun hm' => absurd hm' (hm.not_isMantissa_append he)
  | broken text =>
    obtain ⟨rest, rfl, he, hrest, hends⟩ := hspec
    refine ⟨.number (m ++ text), rest, by simp [Segment.text], rfl, rfl, ?_, ?_⟩
    · exact .number hm he (stops_append_feed more hrest (by decide)) (endsHead_append_feed more hends)
    · simp [Segment.fault, found_eq_head? rest more]

theorem spec_number (hc : (c.isDigit || c == '.') = true) :
    (number (c :: cs)).Spec (c :: cs) ('\n' :: more) := by
  have hdigits : AllDigits ((c :: cs).takeWhile Char.isDigit) := fun d hd => List.mem_takeWhile_imp hd
  have hcut := List.takeWhile_append_dropWhile (p := Char.isDigit) (l := c :: cs)
  have hstops := stops_dropWhile Char.isDigit (c :: cs)
  simp only [number]
  split
  · -- a point comes after the digits
    rename_i tail hpoint
    rw [hpoint] at hcut
    have hspec := spec_double more hdigits tail
    rwa [hcut] at hspec
  · -- no point does, so that there are digits
    rename_i hpoint
    have hdigit : c.isDigit = true := by
      by_contra hnot
      have hdot : c = '.' := by simpa [hnot] using hc
      subst hdot
      exact hpoint cs rfl
    have hint : IsInteger ((c :: cs).takeWhile Char.isDigit) :=
      ⟨by simp [List.takeWhile_cons_of_pos hdigit], hdigits⟩
    refine ⟨_, (c :: cs).dropWhile Char.isDigit, hcut.symm, rfl, .integer hint, ?_⟩
    have hnext : ((c :: cs).dropWhile Char.isDigit ++ '\n' :: more).head? ≠ some '.' := by
      cases hdrop : (c :: cs).dropWhile Char.isDigit with
      | nil => simp
      | cons d ds =>
        intro hd
        obtain rfl : d = '.' := Option.some.inj hd
        exact hpoint ds hdrop
    refine (longest_integer hint (stops_append_feed more hstops (by decide)) hnext).number_fits
      (c := c) (by simp [List.takeWhile_cons_of_pos hdigit]) (Family.of_digit hdigit) fun hm => ?_
    exact absurd (.inl hm) hint.not_isDouble

/-! ## Character literals -/

theorem spec_closeChar {unit cs : List Char} (hu : IsCharUnit unit) :
    (closeChar unit cs).Spec ('\'' :: unit ++ cs) ('\n' :: more) := by
  unfold closeChar
  split
  · rename_i rest
    have hliteral : IsCharLiteral ('\'' :: unit ++ ['\'']) := ⟨unit, hu, rfl⟩
    exact ⟨'\'' :: unit ++ ['\''], rest, by simp, by simp, .char hliteral, hliteral.fits _⟩
  · rename_i hquote
    have hnext : (cs ++ '\n' :: more).head? ≠ some '\'' := by
      cases cs with
      | nil => simp
      | cons d ds =>
        intro hd
        obtain rfl : d = '\'' := Option.some.inj hd
        exact hquote ds rfl
    refine ⟨.token (.spelled .charLiteral ('\'' :: unit ++ ['\''])) ('\'' :: unit), cs, rfl, rfl, rfl,
      .unclosed hu hnext, ?_⟩
    rw [Segment.fault_unclosed, found_eq_head? cs more]

/-- The front of a quote is a literal, or the beginning of one that the end of the line cuts off. -/
theorem spec_charLiteral (hfeed : '\n' ∉ cs) : (charLiteral cs).Spec ('\'' :: cs) ('\n' :: more) := by
  unfold charLiteral
  split
  · exact ⟨.opener ['\''], [], rfl, rfl, rfl, .opener (.inl rfl) rfl, rfl⟩
  · exact ⟨.opener ['\'', '\\'], [], rfl, rfl, rfl, .opener (.inr rfl) rfl, rfl⟩
  · rename_i payload rest
    refine spec_closeChar more (.escaped ?_)
    rintro rfl
    simp at hfeed
  · rename_i d rest hlone hescape
    refine spec_closeChar more (.plain ?_ ?_)
    · rintro rfl
      simp at hfeed
    · rintro rfl
      cases rest with
      | nil => exact hlone rfl rfl
      | cons d ds => exact hescape d ds rfl rfl

/-! ## Marks -/

/-- The mark that is found is the longest of those that the text begins with. -/
theorem length_le_of_longest? {m m' : Mark} {cs : List Char} (h : Mark.longest? cs = some m)
    (h' : m'.text <+: cs) : m'.text.length ≤ m.text.length := by
  -- the first mark that fits is found, and the longer marks come first
  have hsorted : Mark.all.Pairwise fun a b => b.text.length ≤ a.text.length := by decide
  obtain ⟨-, front, back, hall, hfront⟩ := List.find?_eq_some_iff_append.mp h
  have hmem : m' ∈ front ++ m :: back := by rw [← hall]; exact m'.mem_all
  rw [hall] at hsorted
  rcases List.mem_append.mp hmem with hin | hin
  · have hnot := hfront m' hin
    rw [List.isPrefixOf_iff_prefix.mpr h'] at hnot
    cases hnot
  · rcases List.mem_cons.mp hin with rfl | hin
    · exact Nat.le_refl _
    · exact (List.pairwise_cons.mp (List.pairwise_append.mp hsorted).2.1).1 m' hin

/-- A character at which no mark begins, though a mark could, is half of a doubled mark or
illegal. -/
theorem isIllegal_of_no_mark (hfamily : Family.of c = .mark) (hspace : ¬ IsSpace c)
    (hhalf : ¬ (c = '&' ∨ c = '|')) (hnone : ∀ m : Mark, ¬ m.text <+: c :: cs) : IsIllegal c := by
  refine ⟨hspace, fun t w hlexeme hw => ?_⟩
  obtain ⟨ds, rfl⟩ := List.head?_eq_some_iff.mp hw
  have hmark := hlexeme.family_of_begins (List.prefix_refl _)
  rw [hfamily] at hmark
  obtain ⟨m, hm, -⟩ := hmark
  -- the mark would begin like a mark of one character, which the text begins with
  have hsingle : ∀ m ∈ Mark.all, m.text.head? = some '&' ∨ m.text.head? = some '|' ∨
      ∃ m' ∈ Mark.all, m'.text.head? = m.text.head? ∧ m'.text.length = 1 := by decide
  rw [not_or] at hhalf
  rcases hsingle m m.mem_all with hand | hor | ⟨m', -, hhead, hlength⟩
  · rw [← hm] at hand
    exact hhalf.1 (Option.some.inj hand)
  · rw [← hm] at hor
    exact hhalf.2 (Option.some.inj hor)
  · obtain ⟨d, hd⟩ := List.length_eq_one_iff.mp hlength
    rw [← hm, hd] at hhead
    obtain rfl : d = c := Option.some.inj hhead
    exact hnone m' (by rw [hd, List.cons_prefix_cons]; exact ⟨rfl, List.nil_prefix⟩)

theorem spec_mark (hfeed : '\n' ∉ c :: cs) (hfamily : Family.of c = .mark) (hspace : ¬ IsSpace c)
    (hopens : ¬ OpensComment (c :: cs)) : (mark c cs).Spec (c :: cs) ('\n' :: more) := by
  simp only [mark]
  split
  · rename_i m hm
    have hbegins : m.text <+: c :: cs := by simpa using List.find?_some hm
    obtain ⟨rest, hrest⟩ := hbegins
    refine ⟨m.text, rest, hrest.symm, rfl, .mark m, ?_⟩
    have hlong : ∀ m' : Mark, m'.text <+: m.text ++ (rest ++ '\n' :: more) →
        m'.text.length ≤ m.text.length := by
      intro m' hm'
      rw [← List.append_assoc, hrest] at hm'
      exact length_le_of_longest? hm (prefix_of_line hfeed m'.feed_not_mem_text hm')
    refine (longest_mark hlong).mark_fits ?_
    rw [← List.append_assoc, hrest]
    exact fun h => hopens (opensComment_of_line hfeed h)
  · rename_i hnone
    have hnone : ∀ m : Mark, ¬ m.text <+: c :: cs := by
      intro m
      simpa using List.find?_eq_none.mp hnone m m.mem_all
    split
    · -- doubled, the half would be a mark
      rename_i hhalf
      refine ⟨.lone c, cs, rfl, rfl, rfl, .lone hhalf ?_, ?_⟩
      · intro hnext
        obtain ⟨ds, hds⟩ := List.head?_eq_some_iff.mp hnext
        have hdouble : [c, c] <+: c :: cs ++ '\n' :: more := ⟨ds, by simp [hds]⟩
        have hfree : '\n' ∉ [c, c] := by rcases hhalf with rfl | rfl <;> decide
        have hbegins := prefix_of_line hfeed hfree hdouble
        rcases hhalf with rfl | rfl
        · exact hnone .and hbegins
        · exact hnone .or hbegins
      · simp [Segment.fault, found_eq_head? cs more]
    · rename_i hhalf
      exact ⟨cs, rfl, isIllegal_of_no_mark hfamily hspace hhalf hnone⟩

/-! ## The decision -/

/-- What is found is what the rest of the line shows, whatever comes after the line. -/
theorem spec_of (hfeed : '\n' ∉ cs) : (of cs).Spec cs ('\n' :: more) := by
  unfold of
  split
  · rfl
  · exact ⟨_, rfl⟩
  · exact ⟨_, rfl⟩
  · exact ⟨_, rfl⟩
  · rw [List.mem_cons, not_or] at hfeed
    exact spec_charLiteral more hfeed.2
  · rename_i c cs hblock hline hstring hquote
    have hopens : ¬ OpensComment (c :: cs) := by
      rintro (⟨s, hs⟩ | ⟨s, hs⟩)
      · obtain ⟨rfl, rfl⟩ := List.cons.inj hs
        exact hblock s rfl rfl
      · obtain ⟨rfl, rfl⟩ := List.cons.inj hs
        exact hline s rfl rfl
    split
    · rename_i hspacing
      refine ⟨c, cs, rfl, ?_⟩
      simp only [isSpacing, Bool.or_eq_true, beq_iff_eq] at hspacing
      unfold IsSpace
      tauto
    · rename_i hspacing
      split
      · exact spec_word more ‹_›
      · rename_i hword
        split
        · exact spec_number more ‹_›
        · rename_i hnumber
          have hfamily : Family.of c = .mark := by
            have hletter : ¬ (c.isAlpha || c == '_') = true := hword
            unfold Family.of
            rw [if_neg hletter, if_neg hnumber, if_neg hquote, if_neg hstring]
          have hspace : ¬ IsSpace c := by
            rintro (rfl | rfl | rfl | rfl)
            · exact hspacing rfl
            · exact hspacing rfl
            · exact hspacing rfl
            · exact hfeed (List.mem_cons_self ..)
          exact spec_mark more hfeed hfamily hspace hopens

end Front

end MiniLex
