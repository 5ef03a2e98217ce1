import Mathlib
import MiniLex.Token.Basic

/-!
# The grammar of lexemes

What a token may look like in a source, said without any regard to how it is scanned.

- `IsWord`, `IsInteger`, `IsDouble`, `IsCharLiteral`, `IsStringLiteral`: the shapes of the texts that
  tokens carry.
- `Lexeme t w`: the text `w` is a lexeme of the token `t`.
- `Lexeme.family`: the first character of a lexeme tells which of the shapes it has. Main statement:
  a text is a lexeme of one token at most (`Lexeme.token_unique`).
-/

namespace MiniLex

/-! ## Shapes -/

/-- A text of digits only. -/
def AllDigits (w : List Char) : Prop :=
  ∀ c ∈ w, c.isDigit = true

/-- A letter or an underscore, and then letters, digits and underscores. -/
def IsWord (w : List Char) : Prop :=
  ∃ c cs, w = c :: cs ∧ (c.isAlpha = true ∨ c = '_') ∧ ∀ d ∈ cs, d.isAlphanum = true ∨ d = '_'

/-- One or more digits. -/
def IsInteger (w : List Char) : Prop :=
  w ≠ [] ∧ AllDigits w

/-- Digits around a decimal point, on either side none or more. -/
def IsMantissa (w : List Char) : Prop :=
  ∃ whole fraction, AllDigits whole ∧ AllDigits fraction ∧ w = whole ++ '.' :: fraction

/-- The letter of an exponent, with or without a sign after it. -/
def IsExponentHead (w : List Char) : Prop :=
  ∃ e sign, (e = 'e' ∨ e = 'E') ∧ (sign = [] ∨ sign = ['+'] ∨ sign = ['-']) ∧ w = e :: sign

/-- The letter of an exponent, a sign or none, and one or more digits. -/
def IsExponent (w : List Char) : Prop :=
  ∃ head digits, IsExponentHead head ∧ IsInteger digits ∧ w = head ++ digits

/-- A mantissa, with or without an exponent. -/
def IsDouble (w : List Char) : Prop :=
  IsMantissa w ∨ ∃ m e, IsMantissa m ∧ IsExponent e ∧ w = m ++ e

/-- One logical character: a backslash escapes the character after it, and a line feed is none. -/
inductive IsCharUnit : List Char → Prop where
  | plain {c : Char} (feed : c ≠ '\n') (backslash : c ≠ '\\') : IsCharUnit [c]
  | escaped {c : Char} (feed : c ≠ '\n') : IsCharUnit ['\\', c]

/-- One logical character between quotes. -/
def IsCharLiteral (w : List Char) : Prop :=
  ∃ unit, IsCharUnit unit ∧ w = '\'' :: unit ++ ['\'']

/-- What may stand between the quotes of a string literal: a backslash escapes the character after
it, and no other quote comes. -/
inductive IsStringBody : List Char → Prop where
  | nil : IsStringBody []
  | plain {c : Char} {cs : List Char} (quote : c ≠ '"') (backslash : c ≠ '\\')
      (rest : IsStringBody cs) : IsStringBody (c :: cs)
  | escaped {c : Char} {cs : List Char} (rest : IsStringBody cs) : IsStringBody ('\\' :: c :: cs)

/-- A string body between quotes. -/
def IsStringLiteral (w : List Char) : Prop :=
  ∃ body, IsStringBody body ∧ w = '"' :: body ++ ['"']

section Characters

variable {w : List Char} {c : Char}

theorem IsMantissa.mem (h : IsMantissa w) (hc : c ∈ w) : c.isDigit = true ∨ c = '.' := by
  obtain ⟨whole, fraction, hwhole, hfraction, rfl⟩ := h
  rcases List.mem_append.mp hc with hc | hc
  · exact .inl (hwhole c hc)
  · rcases List.mem_cons.mp hc with rfl | hc
    · exact .inr rfl
    · exact .inl (hfraction c hc)

theorem IsExponentHead.mem (h : IsExponentHead w) (hc : c ∈ w) : c ∈ ['e', 'E', '+', '-'] := by
  obtain ⟨letter, sign, hletter, hsign, rfl⟩ := h
  rcases List.mem_cons.mp hc with rfl | hc
  · rcases hletter with rfl | rfl <;> decide
  · rcases hsign with rfl | rfl | rfl
    · cases hc
    · rw [List.mem_singleton.mp hc]
      decide
    · rw [List.mem_singleton.mp hc]
      decide

theorem IsDouble.mem (h : IsDouble w) (hc : c ∈ w) :
    c.isDigit = true ∨ c ∈ ['.', 'e', 'E', '+', '-'] := by
  rcases h with hm | ⟨m, e, hm, ⟨head, digits, hhead, hdigits, rfl⟩, rfl⟩
  · exact (hm.mem hc).imp_right fun hpoint => by simp [hpoint]
  · rcases List.mem_append.mp hc with hc | hc
    · exact (hm.mem hc).imp_right fun hpoint => by simp [hpoint]
    · rcases List.mem_append.mp hc with hc | hc
      · exact .inr (List.mem_cons_of_mem _ (hhead.mem hc))
      · exact .inl (hdigits.2 c hc)

theorem IsCharUnit.feed_not_mem (h : IsCharUnit w) : '\n' ∉ w := by
  cases h with
  | plain feed _ => simpa using feed.symm
  | escaped feed => simpa using feed.symm

theorem IsCharLiteral.feed_not_mem (h : IsCharLiteral w) : '\n' ∉ w := by
  obtain ⟨unit, hunit, rfl⟩ := h
  simp [hunit.feed_not_mem]

end Characters

/-! ## Lexemes -/

/-- The text is a lexeme of the token. Tokens of a kind without a fixed text carry it. -/
inductive Lexeme : Token → List Char → Prop where
  | keyword (k : Keyword) : Lexeme (.plain (.keyword k)) k.text.toList
  | mark (m : Mark) : Lexeme (.plain (.mark m)) m.text
  | identifier {w : List Char} (word : IsWord w) (free : ∀ k : Keyword, k.text.toList ≠ w) :
      Lexeme (.spelled .identifier w) w
  | integer {w : List Char} (digits : IsInteger w) : Lexeme (.spelled .intLiteral w) w
  | double {w : List Char} (double : IsDouble w) : Lexeme (.spelled .doubleLiteral w) w
  | char {w : List Char} (literal : IsCharLiteral w) : Lexeme (.spelled .charLiteral w) w
  | string {w : List Char} (literal : IsStringLiteral w) : Lexeme (.spelled .stringLiteral w) w

namespace Keyword

theorem isWord_text (k : Keyword) : IsWord k.text.toList := by
  -- said of Booleans, each keyword is decided by computing
  have h : ∀ k : Keyword, ∃ c cs, k.text.toList = c :: cs ∧ (c.isAlpha || c == '_') = true ∧
      (cs.all fun d => d.isAlphanum || d == '_') = true := by
    intro k
    cases k <;> exact ⟨_, _, rfl, by decide, by decide⟩
  obtain ⟨c, cs, htext, hc, hcs⟩ := h k
  exact ⟨c, cs, htext, by simpa using hc, by simpa using hcs⟩

theorem ofText?_text (k : Keyword) : ofText? k.text = some k := by
  cases k <;> decide

theorem text_of_ofText? {w : String} {k : Keyword} (h : ofText? w = some k) : k.text = w := by
  simpa using List.find?_some h

end Keyword

namespace Lexeme

/-- A word is a lexeme of the token that it is made into. -/
theorem word {w : List Char} (hw : IsWord w) : Lexeme (Token.word (String.ofList w)) w := by
  cases hk : Keyword.ofText? (String.ofList w) with
  | some k =>
    have htext : k.text.toList = w := by rw [Keyword.text_of_ofText? hk, String.toList_ofList]
    simpa [Token.word, Kind.ofWord, hk, htext] using Lexeme.keyword k
  | none =>
    have hfree : ∀ k : Keyword, k.text.toList ≠ w := by
      rintro k rfl
      rw [String.ofList_toList, Keyword.ofText?_text] at hk
      cases hk
    simp only [Token.word, Kind.ofWord, hk]
    exact Lexeme.identifier hw hfree

end Lexeme

/-- A reserved word is made into its keyword. -/
theorem Token.word_text (k : Keyword) : Token.word k.text = .plain (.keyword k) := by
  simp [Token.word, Kind.ofWord, Keyword.ofText?_text]

/-- A word that is not reserved is made into an identifier. -/
theorem Token.word_of_free {w : List Char} (free : ∀ k : Keyword, k.text.toList ≠ w) :
    Token.word (String.ofList w) = .spelled .identifier w := by
  have hnone : Keyword.ofText? (String.ofList w) = none := by
    rw [Option.eq_none_iff_forall_ne_some]
    intro k hk
    exact free k (by rw [Keyword.text_of_ofText? hk, String.toList_ofList])
  simp [Token.word, Kind.ofWord, hnone, Token.spelled]

/-! ## First characters -/

theorem isAlpha_eq_false_of_isDigit {c : Char} (h : c.isDigit = true) : c.isAlpha = false := by
  simp only [Char.isDigit, Char.isAlpha, Char.isUpper, Char.isLower, ge_iff_le,
    UInt32.le_iff_toNat_le, Bool.and_eq_true, decide_eq_true_eq, Bool.or_eq_false_iff,
    Bool.and_eq_false_iff, decide_eq_false_iff_not] at h ⊢
  have h9 : '9'.val.toNat = 57 := rfl
  have hA : 'A'.val.toNat = 65 := rfl
  have ha : 'a'.val.toNat = 97 := rfl
  omega

/-- The families that lexemes fall into by their first character. -/
inductive Family where
  | word | number | char | string | mark
deriving DecidableEq

namespace Family

/-- The family of the lexemes that begin with a character. -/
def of (c : Char) : Family :=
  if c.isAlpha || c == '_' then .word
  else if c.isDigit || c == '.' then .number
  else if c = '\'' then .char
  else if c = '"' then .string
  else .mark

/-- The lexemes of a family, each with its token. -/
def Has : Family → Token → List Char → Prop
  | .word, t, w => IsWord w ∧ t = .word (String.ofList w)
  | .number, t, w =>
    (IsInteger w ∧ t = .spelled .intLiteral w) ∨ (IsDouble w ∧ t = .spelled .doubleLiteral w)
  | .char, t, w => IsCharLiteral w ∧ t = .spelled .charLiteral w
  | .string, t, w => IsStringLiteral w ∧ t = .spelled .stringLiteral w
  | .mark, t, w => ∃ m : Mark, w = m.text ∧ t = .plain (.mark m)

theorem of_digit {c : Char} (h : c.isDigit = true) : of c = .number := by
  have hne : c ≠ '_' := by
    rintro rfl
    exact absurd h (by decide)
  simp [of, h, isAlpha_eq_false_of_isDigit h, hne]

end Family

theorem IsWord.head {w : List Char} (h : IsWord w) : ∃ c cs, w = c :: cs ∧ Family.of c = .word := by
  obtain ⟨c, cs, rfl, hc, -⟩ := h
  exact ⟨c, cs, rfl, by simp [Family.of, hc]⟩

theorem IsInteger.head {w : List Char} (h : IsInteger w) :
    ∃ c cs, w = c :: cs ∧ Family.of c = .number := by
  obtain ⟨hne, hdigits⟩ := h
  obtain ⟨c, cs, rfl⟩ := List.exists_cons_of_ne_nil hne
  exact ⟨c, cs, rfl, Family.of_digit (hdigits c (List.mem_cons_self ..))⟩

theorem IsMantissa.head {w : List Char} (h : IsMantissa w) :
    ∃ c cs, w = c :: cs ∧ Family.of c = .number := by
  obtain ⟨whole, fraction, hwhole, -, rfl⟩ := h
  cases whole with
  | nil => exact ⟨'.', fraction, rfl, rfl⟩
  | cons c cs =>
    exact ⟨c, cs ++ '.' :: fraction, rfl, Family.of_digit (hwhole c (List.mem_cons_self ..))⟩

theorem IsDouble.head {w : List Char} (h : IsDouble w) :
    ∃ c cs, w = c :: cs ∧ Family.of c = .number := by
  rcases h with hm | ⟨m, e, hm, -, rfl⟩
  · exact hm.head
  · obtain ⟨c, cs, rfl, hc⟩ := hm.head
    exact ⟨c, cs ++ e, rfl, hc⟩

theorem Mark.head (m : Mark) : ∃ c cs, m.text = c :: cs ∧ Family.of c = .mark := by
  cases m <;> exact ⟨_, _, rfl, by decide⟩

namespace Lexeme

/-- The first character of a lexeme tells its family. -/
theorem family {t : Token} {w : List Char} (h : Lexeme t w) :
    ∃ c cs, w = c :: cs ∧ (Family.of c).Has t w := by
  cases h with
  | keyword k =>
    have hw := k.isWord_text
    obtain ⟨c, cs, hcs, hc⟩ := hw.head
    exact ⟨c, cs, hcs, by rw [hc]; exact ⟨hw, by rw [String.ofList_toList, Token.word_text]⟩⟩
  | mark m =>
    obtain ⟨c, cs, hcs, hc⟩ := m.head
    exact ⟨c, cs, hcs, by rw [hc]; exact ⟨m, rfl, rfl⟩⟩
  | identifier hw free =>
    obtain ⟨c, cs, hcs, hc⟩ := hw.head
    exact ⟨c, cs, hcs, by rw [hc]; exact ⟨hw, (Token.word_of_free free).symm⟩⟩
  | integer hw =>
    obtain ⟨c, cs, hcs, hc⟩ := hw.head
    exact ⟨c, cs, hcs, by rw [hc]; exact .inl ⟨hw, rfl⟩⟩
  | double hw =>
    obtain ⟨c, cs, hcs, hc⟩ := hw.head
    exact ⟨c, cs, hcs, by rw [hc]; exact .inr ⟨hw, rfl⟩⟩
  | char hw =>
    obtain ⟨unit, hunit, rfl⟩ := hw
    exact ⟨'\'', unit ++ ['\''], rfl, ⟨unit, hunit, rfl⟩, rfl⟩
  | string hw =>
    obtain ⟨body, hbody, rfl⟩ := hw
    exact ⟨'"', body ++ ['"'], rfl, ⟨body, hbody, rfl⟩, rfl⟩

theorem ne_nil {t : Token} {w : List Char} (h : Lexeme t w) : w ≠ [] := by
  obtain ⟨c, cs, rfl, -⟩ := h.family
  exact List.cons_ne_nil c cs

/-- A lexeme that a text begins with is of the family of the text's first character. -/
theorem family_of_begins {t : Token} {w cs : List Char} {c : Char} (h : Lexeme t w)
    (hw : w <+: c :: cs) : (Family.of c).Has t w := by
  obtain ⟨d, ds, rfl, hd⟩ := h.family
  rw [List.cons_prefix_cons] at hw
  exact hw.1 ▸ hd

end Lexeme

/-! ## Uniqueness -/

theorem IsDouble.point_mem {w : List Char} (h : IsDouble w) : '.' ∈ w := by
  rcases h with ⟨whole, fraction, -, -, rfl⟩ | ⟨m, e, ⟨whole, fraction, -, -, rfl⟩, -, rfl⟩ <;> simp

theorem IsInteger.not_isDouble {w : List Char} (h : IsInteger w) : ¬ IsDouble w := fun hw =>
  absurd (h.2 '.' hw.point_mem) (by decide)

theorem Mark.mem_all (m : Mark) : m ∈ all := by
  cases m <;> decide

theorem Mark.text_injective {m n : Mark} (h : m.text = n.text) : m = n := by
  have hall : ∀ m ∈ all, ∀ n ∈ all, m.text = n.text → m = n := by decide
  exact hall m m.mem_all n n.mem_all h

/-- A text is a lexeme of one token at most. -/
theorem Lexeme.token_unique {t t' : Token} {w : List Char} (h : Lexeme t w) (h' : Lexeme t' w) :
    t = t' := by
  -- both are of the family that the first character tells
  obtain ⟨c, cs, rfl, hc⟩ := h.family
  have hc' := h'.family_of_begins (List.prefix_refl _)
  cases hf : Family.of c with
  | word =>
    rw [hf] at hc hc'
    exact hc.2.trans hc'.2.symm
  | number =>
    rw [hf] at hc hc'
    rcases hc with ⟨hint, rfl⟩ | ⟨hdouble, rfl⟩ <;> rcases hc' with ⟨hint', rfl⟩ | ⟨hdouble', rfl⟩
    · rfl
    · exact absurd hdouble' hint.not_isDouble
    · exact absurd hdouble hint'.not_isDouble
    · rfl
  | char =>
    rw [hf] at hc hc'
    exact hc.2.trans hc'.2.symm
  | string =>
    rw [hf] at hc hc'
    exact hc.2.trans hc'.2.symm
  | mark =>
    rw [hf] at hc hc'
    obtain ⟨m, hm, rfl⟩ := hc
    obtain ⟨m', hm', rfl⟩ := hc'
    rw [Mark.text_injective (hm.symm.trans hm')]

end MiniLex
