import MiniLex.Proofs.Outcomes

/-!
# How numbers are scanned

Digits without a decimal point after them are an integer. With a decimal point the longest double is what
counts, and whether the letter of an exponent comes after it: a double without an exponent that such a
letter follows is no token. It is dropped together with the letter and the sign after the letter, and
reported.

- `HasExponent w`: the double `w` is one with an exponent.
- `LongestDouble w cs`: `w` is the longest double that `cs` begins with.
- `Cursor.Drops c text w rest`: the look at a text drops the double `w` with the letter of an exponent.

Main statement: `Cursor.Seen.takes_number`.
-/

namespace MiniLex

/-! ## Doubles -/

/-- A mantissa with an exponent. -/
def HasExponent (w : List Char) : Prop :=
  ∃ m e, IsMantissa m ∧ IsExponent e ∧ w = m ++ e

/-- `w` is the longest double that `cs` begins with. -/
structure LongestDouble (w cs : List Char) : Prop where
  double : IsDouble w
  begins : w <+: cs
  longest : ∀ w', IsDouble w' → w' <+: cs → w'.length ≤ w.length

theorem HasExponent.not_isMantissa {w : List Char} (h : HasExponent w) : ¬ IsMantissa w := by
  obtain ⟨m, e, hm, he, rfl⟩ := h
  exact hm.not_isMantissa_append he

theorem Longest.longestDouble {w cs : List Char} (h : Longest (.spelled .doubleLiteral w) w cs)
    (hw : IsDouble w) : LongestDouble w cs := by
  refine ⟨hw, h.begins, fun w' hdouble hbegins => ?_⟩
  exact h.longest _ w' (.double hdouble) hbegins

/-- A text begins with one longest double at most. -/
theorem LongestDouble.unique {w w' cs : List Char} (h : LongestDouble w cs) (h' : LongestDouble w' cs) :
    w = w' := by
  have hle : w.length ≤ w'.length := h'.longest w h.double h.begins
  exact (List.prefix_of_prefix_length_le h.begins h'.begins hle).eq_of_length_le
    (h.longest w' h'.double h'.begins)

theorem IsExponentHead.opens {head : List Char} (h : IsExponentHead head) (cs : List Char) :
    OpensExponent (head ++ cs) := by
  obtain ⟨letter, sign, hletter, -, rfl⟩ := h
  simpa [OpensExponent] using hletter

/-- No line feed is in a number whose exponent has no digits. -/
theorem feed_not_mem_number {m head : List Char} (hm : IsMantissa m) (hhead : IsExponentHead head) :
    '\n' ∉ m ++ head := by
  intro hmem
  rcases List.mem_append.mp hmem with hmem | hmem
  · exact absurd (hm.mem hmem) (by decide)
  · exact absurd (hhead.mem hmem) (by decide)

namespace Cursor

/-! ## Looks at numbers -/

/-- The look drops the double `w` with the letter of an exponent that comes next, and with the sign after
the letter, if one comes. One diagnostic is reported: it is located on the first character that is left, and
shows it. -/
def Drops (c : Cursor) (text w rest : List Char) : Prop :=
  ∃ before head found more, canonical text = before ++ c.stream ∧ rest = head ++ found :: more ∧
    IsExponentHead head ∧ EndsHead head (found :: more) ∧
      c.Passes (w ++ head)
        [.between (before ++ (w ++ head)) (found :: more) (.malformedExponent (some found))] ∧
        c.turn.cursor.stream = found :: more

variable {text w rest : List Char} {c : Cursor}

/-- A double that is the longest lexeme is taken, unless the letter of an exponent cuts it off. -/
theorem Seen.takes_longest_double (h : Seen (LineRead.ofText text) c) (hs : c.stream = w ++ rest)
    (hw : IsDouble w) (hlongest : Longest (.spelled .doubleLiteral w) w (w ++ rest))
    (hexponent : IsMantissa w → ¬ OpensExponent rest) :
    c.Takes (.spelled .doubleLiteral w) w ∧ c.scan.cursor.stream = rest := by
  obtain ⟨d, ds, hds, hnumber⟩ := hw.head
  have hfits := hlongest.number_fits (by rw [hds]; rfl) hnumber hexponent
  exact h.takes_of_fits hs (.double hw) hfits

/-- A mantissa is dropped with the head of an exponent that no digits follow. -/
theorem Seen.drops_number (h : Seen (LineRead.ofText text) c) {head more : List Char}
    (hs : c.stream = w ++ (head ++ more)) (hw : IsMantissa w) (hhead : IsExponentHead head)
    (hdigits : Stops Char.isDigit more) (hends : EndsHead head more) : c.Drops text w (head ++ more) := by
  have hnumber : c.stream = w ++ head ++ more := by rw [hs, List.append_assoc]
  have hfits : (Segment.number (w ++ head)).Fits more := .number hw hhead hdigits hends
  -- the line feed that ends the line comes behind the number at the latest
  obtain ⟨_, hfollows⟩ := h.follows (LineRead.feedless_ofText text)
  obtain ⟨line, rs, -, -, hline⟩ :=
    hfollows.exists_rest hnumber (feed_not_mem_number hw hhead) hfits.text_ne_nil
  obtain ⟨found, more', rfl⟩ : ∃ found more', more = found :: more' :=
    List.exists_cons_of_ne_nil (by rw [hline]; simp)
  obtain ⟨before, hbefore, hpasses, hstream⟩ := h.passes_of_fits hnumber hfits rfl
  rw [Segment.reports_behind rfl] at hpasses
  exact ⟨before, head, found, more', hbefore, rfl, hhead, hends, hpasses, hstream⟩

/-- Digits that no decimal point follows are taken for an integer. -/
theorem Seen.takes_integer (h : Seen (LineRead.ofText text) c) (hs : c.stream = w ++ rest)
    (hw : IsInteger w) (hdigits : Stops Char.isDigit rest) (hpoint : rest.head? ≠ some '.') :
    c.Takes (.spelled .intLiteral w) w ∧ c.scan.cursor.stream = rest := by
  obtain ⟨d, ds, hds, hnumber⟩ := hw.head
  have hfits := (longest_integer hw hdigits hpoint).number_fits (by rw [hds]; rfl) hnumber
    fun hm => absurd (.inl hm) hw.not_isDouble
  exact h.takes_of_fits hs (.integer hw) hfits

/-- Digits that a decimal point follows begin a double. The longest is taken, or it is dropped with the
letter of an exponent that has no digits. -/
theorem Seen.takes_double (h : Seen (LineRead.ofText text) c) {whole tail : List Char}
    (hs : c.stream = whole ++ '.' :: tail) (hwhole : AllDigits whole) :
    ∃ w rest, c.stream = w ++ rest ∧ LongestDouble w c.stream ∧
      (HasExponent w ∨ ¬ OpensExponent rest →
        c.Takes (.spelled .doubleLiteral w) w ∧ c.scan.cursor.stream = rest) ∧
      (¬ HasExponent w → OpensExponent rest → c.Drops text w rest) := by
  -- the mantissa goes on for all the digits after the point
  obtain ⟨m, behind, hs, hm, hstops⟩ : ∃ m behind, c.stream = m ++ behind ∧ IsMantissa m ∧
      Stops Char.isDigit behind := by
    refine ⟨whole ++ '.' :: tail.takeWhile Char.isDigit, tail.dropWhile Char.isDigit, by simp [hs], ?_,
      stops_dropWhile _ _⟩
    exact ⟨whole, _, hwhole, fun d hd => List.mem_takeWhile_imp hd, rfl⟩
  have hspec := Front.spec_exponent behind
  generalize Front.exponent behind = exponent at hspec
  cases exponent with
  | absent =>
    have hopens : ¬ OpensExponent behind := hspec
    have hlongest := longest_mantissa hm hstops fun e he hbegins => hopens (he.opens hbegins)
    refine ⟨m, behind, hs, ?_, fun _ => ?_, fun _ hopen => absurd hopen hopens⟩
    · rw [hs]
      exact hlongest.longestDouble (.inl hm)
    · exact h.takes_longest_double hs (.inl hm) hlongest fun _ => hopens
  | complete e =>
    obtain ⟨rest, rfl, he, hrest⟩ := hspec
    have hexponent : HasExponent (m ++ e) := ⟨m, e, hm, he, rfl⟩
    have hlongest := longest_exponent hm he hrest
    rw [← List.append_assoc] at hs
    refine ⟨m ++ e, rest, hs, ?_, fun _ => ?_, fun hnone _ => absurd hexponent hnone⟩
    · rw [hs]
      exact hlongest.longestDouble (.inr hexponent)
    · exact h.takes_longest_double hs (.inr hexponent) hlongest fun hm' =>
        absurd hm' hexponent.not_isMantissa
  | broken head =>
    obtain ⟨more, rfl, hhead, hdigits, hends⟩ := hspec
    have hlongest := longest_mantissa hm hstops fun e he => hhead.no_exponent hdigits hends he
    refine ⟨m, head ++ more, hs, ?_, ?_, fun _ _ => h.drops_number hs hm hhead hdigits hends⟩
    · rw [hs]
      exact hlongest.longestDouble (.inl hm)
    · rintro (hexponent | hopens)
      · exact absurd hm hexponent.not_isMantissa
      · exact absurd (hhead.opens more) hopens

/-- Wherever the run of a scanner comes to a digit or a decimal point: digits that no decimal point follows
are an integer. Otherwise the longest double that comes next is taken, or, if it has no exponent and the
letter of one follows, dropped with the letter and its sign. -/
theorem Seen.takes_number (h : Seen (LineRead.ofText text) c) {d : Char} (hd : c.stream.head? = some d)
    (hnumber : d.isDigit = true ∨ d = '.') :
    let digits := c.stream.takeWhile Char.isDigit
    let behind := c.stream.dropWhile Char.isDigit
    (behind.head? ≠ some '.' →
        c.Takes (.spelled .intLiteral digits) digits ∧ c.scan.cursor.stream = behind) ∧
      (behind.head? = some '.' →
        ∃ w rest, c.stream = w ++ rest ∧ LongestDouble w c.stream ∧
          (HasExponent w ∨ ¬ OpensExponent rest →
            c.Takes (.spelled .doubleLiteral w) w ∧ c.scan.cursor.stream = rest) ∧
          (¬ HasExponent w → OpensExponent rest → c.Drops text w rest)) := by
  intro digits behind
  have hcut : c.stream = digits ++ behind := List.takeWhile_append_dropWhile.symm
  have hdigits : AllDigits digits := fun d hd => List.mem_takeWhile_imp hd
  constructor
  · intro hpoint
    have hne : digits ≠ [] := by
      intro hnil
      -- without digits the point itself would be behind them
      rw [hnil, List.nil_append] at hcut
      rw [← hcut, hd] at hpoint
      rcases hnumber with hdigit | rfl
      · obtain ⟨ds, hds⟩ := List.head?_eq_some_iff.mp hd
        simp [digits, hds, hdigit] at hnil
      · exact hpoint rfl
    exact h.takes_integer hcut ⟨hne, hdigits⟩ (stops_dropWhile _ _) hpoint
  · intro hpoint
    obtain ⟨tail, htail⟩ := List.head?_eq_some_iff.mp hpoint
    rw [htail] at hcut
    exact h.takes_double hcut hdigits

/-- An integer before a word, and a point whose exponent has a sign and no digits. -/
theorem Seen.takes_number_without_digits :
    let whole := ['4', '2', 'a']
    let point := ['.', 'e', '+', 'x']
    let c : Cursor := ⟨some [], whole, whole, 1, 1⟩
    let next : Cursor := ⟨some [], point, point, 1, 1⟩
    (Seen (LineRead.ofText whole) c ∧ c.stream.head? = some '4' ∧ '4'.isDigit = true ∧
        c.Takes (.spelled .intLiteral ['4', '2']) ['4', '2'] ∧ c.scan.cursor.stream = ['a', '\n']) ∧
      Seen (LineRead.ofText point) next ∧ next.stream.head? = some '.' ∧
        next.Drops point ['.'] ['e', '+', 'x', '\n'] := by
  intro whole point c next
  have hseen : Seen (LineRead.ofText whole) c := .first (by decide)
  have hnext : Seen (LineRead.ofText point) next := .first (by decide)
  have hinteger := (hseen.takes_number (d := '4') rfl (.inl (by decide))).1 (by decide)
  obtain ⟨w, rest, hs, hlongest, -, hdrops⟩ :=
    (hnext.takes_number (d := '.') rfl (.inr rfl)).2 (by decide)
  -- the point alone is the longest double, since no digits come after the sign
  have hm : IsMantissa ['.'] := ⟨[], [], by simp [AllDigits], by simp [AllDigits], rfl⟩
  have hhead : IsExponentHead ['e', '+'] := ⟨'e', ['+'], .inl rfl, .inr (.inl rfl), rfl⟩
  have hstops : Stops Char.isDigit ['x', '\n'] := stops_cons.mpr (by decide)
  have hends : EndsHead ['e', '+'] ['x', '\n'] := by
    rintro d - ⟨letter, sign, -, hsign, heq⟩
    obtain ⟨-, hlast⟩ := List.cons.inj heq
    rcases hsign with rfl | rfl | rfl <;> simp at hlast
  have hpoint : LongestDouble ['.'] next.stream :=
    (longest_mantissa hm (hhead.stops ['x', '\n']) fun e he =>
      hhead.no_exponent hstops hends he).longestDouble (.inl hm)
  obtain rfl : w = ['.'] := hlongest.unique hpoint
  obtain rfl : ['e', '+', 'x', '\n'] = rest := (List.cons.inj hs).2
  have hcuts := hdrops (fun hexponent => hexponent.not_isMantissa hm) (hhead.opens ['x', '\n'])
  exact ⟨⟨hseen, rfl, by decide, hinteger⟩, hnext, rfl, hcuts⟩

end Cursor

end MiniLex
