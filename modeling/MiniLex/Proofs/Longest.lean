import MiniLex.Proofs.Lexeme
import MiniLex.Token.Front

/-!
# Longest lexemes

Which lexemes a text begins with, and which of them is the longest. Whether a lexeme is the longest
is decided by the few characters after it.

- `Stops`: the text does not carry on a run of characters.
- `Longest t w cs`: `w`, a lexeme of `t`, is the longest lexeme that `cs` begins with.
- `longest_word`, `longest_integer`, `longest_mantissa`, `longest_exponent`, `longest_char`,
  `longest_string`, `longest_mark`: what has to follow a lexeme of each shape for it to be the
  longest.
- `Barren`: the text begins with no lexeme.
-/

namespace MiniLex

/-! ## Runs of characters -/

/-- A text that does not carry on a run of the characters that `p` accepts. -/
def Stops (p : Char → Bool) (cs : List Char) : Prop :=
  ∀ c ∈ cs.head?, p c = false

section Runs

variable {p : Char → Bool} {w w' cs cs' : List Char}

@[simp] theorem stops_cons {c : Char} : Stops p (c :: cs) ↔ p c = false := by
  simp [Stops]

theorem stops_dropWhile (p : Char → Bool) (cs : List Char) : Stops p (cs.dropWhile p) := by
  intro c hc
  have := List.head?_dropWhile_not p cs
  rw [Option.mem_def.mp hc] at this
  simpa using this

theorem bne_of_not_mem {d : Char} (h : d ∉ w) : ∀ c ∈ w, (c != d) = true := by
  intro c hc
  have hne : c ≠ d := fun heq => h (heq ▸ hc)
  simpa using hne

theorem takeWhile_append_of_stops (hw : ∀ c ∈ w, p c = true) (hcs : Stops p cs) :
    (w ++ cs).takeWhile p = w := by
  rw [List.takeWhile_append_of_pos hw]
  cases cs with
  | nil => simp
  | cons c cs => simp [stops_cons.mp hcs]

theorem dropWhile_append_of_stops (hw : ∀ c ∈ w, p c = true) (hcs : Stops p cs) :
    (w ++ cs).dropWhile p = cs := by
  rw [List.dropWhile_append_of_pos hw]
  cases cs with
  | nil => rfl
  | cons c cs => simp [stops_cons.mp hcs]

/-- Two ways to cut a text after a run of characters are the same. -/
theorem append_inj_of_stops (hw : ∀ c ∈ w, p c = true) (hw' : ∀ c ∈ w', p c = true)
    (hcs : Stops p cs) (hcs' : Stops p cs') (h : w ++ cs = w' ++ cs') : w = w' ∧ cs = cs' := by
  constructor
  · rw [← takeWhile_append_of_stops hw hcs, h, takeWhile_append_of_stops hw' hcs']
  · rw [← dropWhile_append_of_stops hw hcs, h, dropWhile_append_of_stops hw' hcs']

/-- A run of characters that a text begins with is no longer than a run that the text stops. -/
theorem prefix_of_stops (hw : ∀ c ∈ w, p c = true) (hw' : ∀ c ∈ w', p c = true)
    (hcs : Stops p cs) (h : w' <+: w ++ cs) : w' <+: w := by
  obtain ⟨s, hs⟩ := h
  rw [← takeWhile_append_of_stops hw hcs, ← hs, List.takeWhile_append_of_pos hw']
  exact List.prefix_append ..

end Runs

/-- A text that does not carry on the head `e` of an exponent. -/
def EndsHead (e cs : List Char) : Prop :=
  ∀ d, cs.head? = some d → ¬ IsExponentHead (e ++ [d])

/-! ## Longest lexemes -/

/-- `w` is a lexeme of `t`, and the longest lexeme that `cs` begins with. -/
structure Longest (t : Token) (w cs : List Char) : Prop where
  lexeme : Lexeme t w
  begins : w <+: cs
  longest : ∀ t' w', Lexeme t' w' → w' <+: cs → w'.length ≤ w.length

/-- A text begins with one longest lexeme at most. -/
theorem Longest.unique {t t' : Token} {w w' cs : List Char} (h : Longest t w cs)
    (h' : Longest t' w' cs) : w = w' ∧ t = t' := by
  have hw : w = w' :=
    (List.prefix_of_prefix_length_le h.begins h'.begins (h'.longest t w h.lexeme h.begins)).eq_of_length_le
      (h.longest t' w' h'.lexeme h'.begins)
  subst hw
  exact ⟨rfl, h.lexeme.token_unique h'.lexeme⟩

/-! ### Words -/

theorem IsWord.all_part {w : List Char} (h : IsWord w) : ∀ c ∈ w, isWordPart c = true := by
  obtain ⟨c, cs, rfl, hc, hcs⟩ := h
  intro d hd
  rcases List.mem_cons.mp hd with rfl | hd
  · rcases hc with hc | rfl
    · simp [isWordPart, Char.isAlphanum, hc]
    · rfl
  · simpa [isWordPart] using hcs d hd

theorem longest_word {w cs : List Char} (hw : IsWord w) (hcs : Stops isWordPart cs) :
    Longest (Token.word (String.ofList w)) w (w ++ cs) := by
  refine ⟨.word hw, List.prefix_append .., fun t' w' h' hw' => ?_⟩
  obtain ⟨c, ds, rfl, hc⟩ := hw.head
  have hfamily := h'.family_of_begins hw'
  rw [hc] at hfamily
  exact (prefix_of_stops hw.all_part hfamily.1.all_part hcs hw').length_le

/-! ### Numbers -/

theorem stops_digit_point (cs : List Char) : Stops Char.isDigit ('.' :: cs) := by
  simp [Stops]

theorem longest_integer {w cs : List Char} (hw : IsInteger w) (hcs : Stops Char.isDigit cs)
    (hpoint : cs.head? ≠ some '.') : Longest (.spelled .intLiteral w) w (w ++ cs) := by
  refine ⟨.integer hw, List.prefix_append .., fun t' w' h' hw' => ?_⟩
  obtain ⟨c, ds, rfl, hc⟩ := hw.head
  have hfamily := h'.family_of_begins hw'
  rw [hc] at hfamily
  rcases hfamily with ⟨hint, -⟩ | ⟨hdouble, -⟩
  · exact (prefix_of_stops hw.2 hint.2 hcs hw').length_le
  · -- the point of a double would have to follow the digits
    obtain ⟨whole, s, hwhole, rfl⟩ : ∃ whole s, AllDigits whole ∧ w' = whole ++ '.' :: s := by
      rcases hdouble with
        ⟨whole, fraction, hwhole, -, rfl⟩ | ⟨m, e, ⟨whole, fraction, hwhole, -, rfl⟩, -, rfl⟩
      · exact ⟨whole, fraction, hwhole, rfl⟩
      · exact ⟨whole, fraction ++ e, hwhole, by simp⟩
    obtain ⟨s', hs'⟩ := hw'
    have hsplit := append_inj_of_stops hwhole hw.2 (stops_digit_point (s ++ s')) hcs (by simpa using hs')
    exact absurd (by rw [← hsplit.2]; rfl) hpoint

section Doubles

variable {m m' e e' x cs cs' : List Char}

theorem IsMantissa.prefix_of_stops (hm : IsMantissa m) (hm' : IsMantissa m')
    (hcs : Stops Char.isDigit cs) (h : m' <+: m ++ cs) : m' <+: m := by
  obtain ⟨whole, fraction, hwhole, hfraction, rfl⟩ := hm
  obtain ⟨whole', fraction', hwhole', hfraction', rfl⟩ := hm'
  obtain ⟨s, hs⟩ := h
  obtain ⟨rfl, htail⟩ := append_inj_of_stops hwhole' hwhole (stops_digit_point (fraction' ++ s))
    (stops_digit_point (fraction ++ cs)) (by simpa using hs)
  have hpre : fraction' <+: fraction ++ cs := ⟨s, (List.cons.inj htail).2⟩
  rw [List.prefix_append_right_inj, List.cons_prefix_cons]
  exact ⟨rfl, MiniLex.prefix_of_stops hfraction hfraction' hcs hpre⟩

/-- What follows a mantissa and begins with no digit tells where the mantissa ends. -/
theorem IsMantissa.prefix_split (hm : IsMantissa m) (hm' : IsMantissa m')
    (hcs : Stops Char.isDigit cs) (hne : x ≠ []) (hx : Stops Char.isDigit x)
    (h : m' ++ x <+: m ++ cs) : m' = m ∧ x <+: cs := by
  obtain ⟨whole, fraction, hwhole, hfraction, rfl⟩ := hm
  obtain ⟨whole', fraction', hwhole', hfraction', rfl⟩ := hm'
  obtain ⟨c, ds, rfl⟩ := List.exists_cons_of_ne_nil hne
  obtain ⟨s, hs⟩ := h
  obtain ⟨rfl, htail⟩ := append_inj_of_stops hwhole' hwhole
    (stops_digit_point (fraction' ++ (c :: ds ++ s))) (stops_digit_point (fraction ++ cs))
    (by simpa using hs)
  have hx' : Stops Char.isDigit (c :: ds ++ s) := by simpa using hx
  obtain ⟨rfl, rfl⟩ := append_inj_of_stops hfraction' hfraction hx' hcs (List.cons.inj htail).2
  exact ⟨rfl, List.prefix_append ..⟩

theorem IsExponentHead.stops (h : IsExponentHead e) (cs : List Char) :
    Stops Char.isDigit (e ++ cs) := by
  obtain ⟨letter, sign, rfl | rfl, -, rfl⟩ := h <;> simp [Stops]

theorem IsExponent.stops (h : IsExponent e) (cs : List Char) : Stops Char.isDigit (e ++ cs) := by
  obtain ⟨head, digits, hhead, -, rfl⟩ := h
  rw [List.append_assoc]
  exact hhead.stops _

theorem IsExponent.ne_nil (h : IsExponent e) : e ≠ [] := by
  obtain ⟨head, digits, ⟨letter, sign, -, -, rfl⟩, -, rfl⟩ := h
  simp

theorem EndsHead.ne_sign {letter d : Char} (h : EndsHead [letter] (d :: cs))
    (hletter : letter = 'e' ∨ letter = 'E') : d ≠ '+' ∧ d ≠ '-' :=
  ⟨fun hd => h d rfl ⟨letter, [d], hletter, by simp [hd], rfl⟩,
    fun hd => h d rfl ⟨letter, [d], hletter, by simp [hd], rfl⟩⟩

/-- Two ways to cut a text after as long a head as possible are the same. -/
theorem IsExponentHead.append_inj (he : IsExponentHead e) (he' : IsExponentHead e')
    (hcs : EndsHead e cs) (hcs' : EndsHead e' cs') (h : e ++ cs = e' ++ cs') : e = e' ∧ cs = cs' := by
  -- a sign that only one of the heads has would have to come after the other
  have hcases : ∀ {sign : List Char}, sign = [] ∨ sign = ['+'] ∨ sign = ['-'] →
      sign = [] ∨ ∃ d, sign = [d] ∧ (d = '+' ∨ d = '-') := by
    rintro sign (rfl | rfl | rfl) <;> simp
  obtain ⟨letter, sign, hletter, hsign, rfl⟩ := he
  obtain ⟨letter', sign', hletter', hsign', rfl⟩ := he'
  obtain ⟨rfl, htail⟩ := List.cons.inj h
  rcases hcases hsign with rfl | ⟨d, rfl, hd⟩ <;> rcases hcases hsign' with rfl | ⟨d', rfl, hd'⟩
  · exact ⟨rfl, htail⟩
  · obtain rfl : cs = d' :: cs' := htail
    have := hcs.ne_sign hletter
    exact absurd hd' (by simp [this.1, this.2])
  · obtain rfl : d :: cs = cs' := htail
    have := hcs'.ne_sign hletter
    exact absurd hd (by simp [this.1, this.2])
  · obtain ⟨rfl, rfl⟩ := List.cons.inj htail
    exact ⟨rfl, rfl⟩

/-- No digit carries on the head of an exponent. -/
theorem IsInteger.endsHead {w : List Char} (h : IsInteger w) (e cs : List Char) :
    EndsHead e (w ++ cs) := by
  obtain ⟨d, ds, rfl⟩ := List.exists_cons_of_ne_nil h.1
  have hd := h.2 d (List.mem_cons_self ..)
  rintro c hc ⟨letter, sign, hletter, hsign, heq⟩
  obtain rfl : d = c := by simpa using hc
  have hmem : d ∈ letter :: sign := by rw [← heq]; simp
  rcases hletter with rfl | rfl <;> rcases hsign with rfl | rfl | rfl <;>
    simp only [List.mem_cons, List.not_mem_nil, or_false] at hmem <;>
    rcases hmem with rfl | rfl <;> exact absurd hd (by decide)

theorem IsExponent.prefix_of_stops (he : IsExponent e) (he' : IsExponent e')
    (hcs : Stops Char.isDigit cs) (h : e' <+: e ++ cs) : e' <+: e := by
  obtain ⟨head, digits, hhead, hdigits, rfl⟩ := he
  obtain ⟨head', digits', hhead', hdigits', rfl⟩ := he'
  obtain ⟨s, hs⟩ := h
  obtain ⟨rfl, htail⟩ := hhead'.append_inj hhead (hdigits'.endsHead _ s) (hdigits.endsHead _ cs)
    (by simpa using hs)
  rw [List.prefix_append_right_inj]
  exact MiniLex.prefix_of_stops hdigits.2 hdigits'.2 hcs ⟨s, htail⟩

/-- The head of an exponent that no digits follow begins no exponent. -/
theorem IsExponentHead.no_exponent (he : IsExponentHead e) (hcs : Stops Char.isDigit cs)
    (hhead : EndsHead e cs) (he' : IsExponent e') : ¬ e' <+: e ++ cs := by
  obtain ⟨head', digits', hhead', hdigits', rfl⟩ := he'
  rintro ⟨s, hs⟩
  obtain ⟨rfl, rfl⟩ := hhead'.append_inj he (hdigits'.endsHead _ s) hhead (by simpa using hs)
  obtain ⟨d, ds, rfl⟩ := List.exists_cons_of_ne_nil hdigits'.1
  rw [List.cons_append, stops_cons, hdigits'.2 d (List.mem_cons_self ..)] at hcs
  cases hcs

/-- An integer that a text begins with is no longer than a mantissa that it begins with. -/
theorem IsMantissa.length_integer_le {w : List Char} (hm : IsMantissa m) (hw : IsInteger w)
    (h : w <+: m ++ cs) : w.length ≤ m.length := by
  obtain ⟨whole, fraction, hwhole, -, rfl⟩ := hm
  have hpre := MiniLex.prefix_of_stops hwhole hw.2 (stops_digit_point (fraction ++ cs))
    (by simpa using h)
  have := hpre.length_le
  rw [List.length_append]
  omega

theorem longest_mantissa (hm : IsMantissa m) (hcs : Stops Char.isDigit cs)
    (hexponent : ∀ e, IsExponent e → ¬ e <+: cs) :
    Longest (.spelled .doubleLiteral m) m (m ++ cs) := by
  refine ⟨.double (.inl hm), List.prefix_append .., fun t' w' h' hw' => ?_⟩
  obtain ⟨c, ds, hds, hc⟩ := hm.head
  have hfamily := h'.family_of_begins (show w' <+: c :: (ds ++ cs) by simpa [hds] using hw')
  rw [hc] at hfamily
  -- what else begins the text is an integer, a mantissa, or a mantissa with an exponent
  rcases hfamily with ⟨hint, -⟩ | ⟨hm' | ⟨m', e, hm', he, rfl⟩, -⟩
  · exact hm.length_integer_le hint hw'
  · exact (hm.prefix_of_stops hm' hcs hw').length_le
  · have hpre := hm.prefix_split hm' hcs he.ne_nil (by simpa using he.stops []) hw'
    exact absurd hpre.2 (hexponent e he)

theorem longest_exponent (hm : IsMantissa m) (he : IsExponent e) (hcs : Stops Char.isDigit cs) :
    Longest (.spelled .doubleLiteral (m ++ e)) (m ++ e) (m ++ e ++ cs) := by
  refine ⟨.double (.inr ⟨m, e, hm, he, rfl⟩), List.prefix_append .., fun t' w' h' hw' => ?_⟩
  obtain ⟨c, ds, hds, hc⟩ := hm.head
  have hfamily := h'.family_of_begins (show w' <+: c :: (ds ++ e ++ cs) by simpa [hds] using hw')
  rw [hc] at hfamily
  rw [List.append_assoc] at hw'
  have hstops := he.stops cs
  rw [List.length_append]
  rcases hfamily with ⟨hint, -⟩ | ⟨hm' | ⟨m', e', hm', he', rfl⟩, -⟩
  · have := hm.length_integer_le hint hw'
    omega
  · have := (hm.prefix_of_stops hm' hstops hw').length_le
    omega
  · obtain ⟨rfl, hpre⟩ := hm.prefix_split hm' hstops he'.ne_nil (by simpa using he'.stops []) hw'
    have := (he.prefix_of_stops he' hcs hpre).length_le
    rw [List.length_append]
    omega

end Doubles

/-! ### Literals between quotes -/

/-- A logical character tells where it ends. -/
theorem IsCharUnit.prefix_cases {unit unit' x cs : List Char} (hu : IsCharUnit unit)
    (hu' : IsCharUnit unit') (h : unit' ++ x <+: unit ++ cs) : unit' = unit ∧ x <+: cs := by
  cases hu with
  | plain hfeed hback =>
    cases hu' with
    | plain hfeed' hback' => simpa [List.cons_prefix_cons] using h
    | escaped hfeed' =>
      simp only [List.cons_append, List.cons_prefix_cons] at h
      exact absurd h.1.symm hback
  | escaped hfeed =>
    cases hu' with
    | plain hfeed' hback' =>
      simp only [List.cons_append, List.cons_prefix_cons] at h
      exact absurd h.1 hback'
    | escaped hfeed' => simpa [List.cons_prefix_cons] using h

theorem longest_char {unit cs : List Char} (hu : IsCharUnit unit) :
    Longest (.spelled .charLiteral ('\'' :: unit ++ ['\''])) ('\'' :: unit ++ ['\''])
      ('\'' :: unit ++ ['\''] ++ cs) := by
  refine ⟨.char ⟨unit, hu, rfl⟩, List.prefix_append .., fun t' w' h' hw' => ?_⟩
  obtain ⟨⟨unit', hu', rfl⟩, -⟩ : IsCharLiteral w' ∧ _ := h'.family_of_begins hw'
  rw [List.append_assoc, List.cons_append, List.cons_append, List.cons_prefix_cons] at hw'
  rw [(hu.prefix_cases hu' hw'.2).1]

/-- A string body tells where it ends, if a quote follows it. -/
theorem IsStringBody.prefix_unique {body body' x cs : List Char} (hb : IsStringBody body)
    (hb' : IsStringBody body') (h : body' ++ '"' :: x <+: body ++ '"' :: cs) :
    body' = body ∧ x <+: cs := by
  -- a body that goes on where the other is closed would have its next character be the quote
  induction hb generalizing body' with
  | nil =>
    cases hb' with
    | nil => simpa [List.cons_prefix_cons] using h
    | plain hquote hback hrest =>
      rw [List.cons_append, List.nil_append, List.cons_prefix_cons] at h
      exact absurd h.1 hquote
    | escaped hrest => simp [List.cons_prefix_cons] at h
  | @plain c ds hquote hback hrest ih =>
    cases hb' with
    | nil =>
      rw [List.nil_append, List.cons_append, List.cons_prefix_cons] at h
      exact absurd h.1.symm hquote
    | plain hquote' hback' hrest' =>
      simp only [List.cons_append, List.cons_prefix_cons] at h
      obtain ⟨rfl, hx⟩ := ih hrest' h.2
      exact ⟨by rw [h.1], hx⟩
    | escaped hrest' =>
      simp only [List.cons_append, List.cons_prefix_cons] at h
      exact absurd h.1.symm hback
  | @escaped c ds hrest ih =>
    cases hb' with
    | nil => simp [List.cons_prefix_cons] at h
    | plain hquote' hback' hrest' =>
      simp only [List.cons_append, List.cons_prefix_cons] at h
      exact absurd h.1 hback'
    | escaped hrest' =>
      simp only [List.cons_append, List.cons_prefix_cons] at h
      obtain ⟨-, hc, htail⟩ := h
      obtain ⟨rfl, hx⟩ := ih hrest' htail
      exact ⟨by rw [hc], hx⟩

theorem longest_string {body cs : List Char} (hb : IsStringBody body) :
    Longest (.spelled .stringLiteral ('"' :: body ++ ['"'])) ('"' :: body ++ ['"'])
      ('"' :: body ++ ['"'] ++ cs) := by
  refine ⟨.string ⟨body, hb, rfl⟩, List.prefix_append .., fun t' w' h' hw' => ?_⟩
  obtain ⟨⟨body', hb', rfl⟩, -⟩ : IsStringLiteral w' ∧ _ := h'.family_of_begins hw'
  simp only [List.append_assoc, List.cons_append, List.cons_prefix_cons, List.nil_append] at hw'
  rw [(hb.prefix_unique hb' hw'.2).1]

/-! ### Marks -/

theorem longest_mark {m : Mark} {cs : List Char}
    (hlong : ∀ m' : Mark, m'.text <+: m.text ++ cs → m'.text.length ≤ m.text.length) :
    Longest (.plain (.mark m)) m.text (m.text ++ cs) := by
  refine ⟨.mark m, List.prefix_append .., fun t' w' h' hw' => ?_⟩
  obtain ⟨c, ds, hds, hc⟩ := m.head
  have hfamily := h'.family_of_begins (show w' <+: c :: (ds ++ cs) by simpa [hds] using hw')
  rw [hc] at hfamily
  obtain ⟨m', rfl, -⟩ := hfamily
  exact hlong m' hw'

/-! ## Texts that begin with no lexeme -/

/-- A text that begins with no lexeme. -/
def Barren (cs : List Char) : Prop :=
  ∀ t w, Lexeme t w → ¬ w <+: cs

theorem Longest.not_barren {t : Token} {w cs : List Char} (h : Longest t w cs) : ¬ Barren cs :=
  fun hb => hb t w h.lexeme h.begins

theorem barren_nil : Barren [] := by
  intro t w h hw
  exact h.ne_nil (List.prefix_nil.mp hw)

/-- A character that no mark begins with, and that no other lexeme begins with either. -/
theorem barren_of_family {c : Char} {cs : List Char} (hc : Family.of c = .mark)
    (hmark : ∀ m : Mark, ¬ m.text <+: c :: cs) : Barren (c :: cs) := by
  intro t w h hw
  have hfamily := h.family_of_begins hw
  rw [hc] at hfamily
  obtain ⟨m, rfl, -⟩ := hfamily
  exact hmark m hw

/-- A text that begins with a quote begins with a lexeme only if the quote opens a character
literal that is closed. -/
theorem barren_quote {cs : List Char}
    (h : ∀ unit, IsCharUnit unit → ¬ unit ++ ['\''] <+: cs) : Barren ('\'' :: cs) := by
  intro t w hlexeme hw
  obtain ⟨⟨unit, hu, rfl⟩, -⟩ : IsCharLiteral w ∧ _ := hlexeme.family_of_begins hw
  rw [List.cons_append, List.cons_prefix_cons] at hw
  exact h unit hu hw.2

end MiniLex
