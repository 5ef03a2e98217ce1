import MiniLex.Diagnostic.Basic
import MiniLex.Token.Basic

/-!
# What a line goes on with

A scan looks at the rest of a line and decides what it begins with. Only string literals and block
comments may go beyond the end of the line; everything else is decided, and measured, here.

- `Front`: what the rest of a line begins with, with its width in characters.
- `Exponent`: what follows the fraction of a number.
- `Front.of`: the decision.
-/

namespace MiniLex

/-! ## Classes of characters -/

/-- A character that a word may begin with: an ASCII letter or an underscore. -/
def isWordStart (c : Char) : Bool :=
  c.isAlpha || c == '_'

/-- A character that a word may go on with: an ASCII letter or digit, or an underscore. -/
def isWordPart (c : Char) : Bool :=
  c.isAlphanum || c == '_'

/-- A character that stands between tokens and means nothing. -/
def isSpacing (c : Char) : Bool :=
  c == ' ' || c == '\t' || c == '\r'

/-! ## Fronts -/

/-- What the rest of a line begins with. -/
inductive Front where
  /-- Nothing: the line feed is next. -/
  | lineEnd
  /-- One character of spacing. -/
  | spacing
  /-- A comment that takes up the rest of the line. -/
  | lineComment
  /-- The two characters that open a block comment. -/
  | blockComment
  /-- The quote that opens a string literal. -/
  | stringLiteral
  /-- A character that begins no token. -/
  | illegal (ch : Char)
  /-- A token, and the number of its characters. -/
  | token (t : Token) (width : Nat)
  /-- An unfinished lexeme of `width` characters. The cause is met at the character after it; the
  token, if any, is made all the same. -/
  | broken (t : Option Token) (width : Nat) (cause : Cause)
deriving DecidableEq

namespace Front

/-- The character that a text begins with, where a line feed ends every text. -/
def found (cs : List Char) : Option Char :=
  some (cs.headD '\n')

/-- The front of a text that begins with a word. -/
def word (cs : List Char) : Front :=
  let letters := cs.takeWhile isWordPart
  .token (Token.word (String.ofList letters)) letters.length

/-! ## Numbers -/

/-- What follows the fraction of a number. -/
inductive Exponent where
  /-- No exponent. -/
  | absent
  /-- An exponent with digits. -/
  | complete (text : List Char)
  /-- The letter and the sign, if there is one, of an exponent without digits. -/
  | broken (text : List Char)
deriving DecidableEq

/-- The sign that a text begins with. -/
def sign : List Char → List Char
  | c :: _ => if c = '+' ∨ c = '-' then [c] else []
  | [] => []

/-- The exponent that a text begins with. -/
def exponent : List Char → Exponent
  | [] => .absent
  | e :: cs =>
    if e = 'e' ∨ e = 'E' then
      let signed := sign cs
      let digits := (cs.drop signed.length).takeWhile Char.isDigit
      if digits = [] then .broken (e :: signed) else .complete (e :: (signed ++ digits))
    else .absent

/-- The front of a text that goes on with `cs` after the digits `whole` and a decimal point. -/
def double (whole cs : List Char) : Front :=
  let mantissa := whole ++ '.' :: cs.takeWhile Char.isDigit
  let tail := cs.dropWhile Char.isDigit
  match exponent tail with
  | .absent => .token (Token.spelled .doubleLiteral mantissa) mantissa.length
  | .complete text =>
    .token (Token.spelled .doubleLiteral (mantissa ++ text)) (mantissa ++ text).length
  | .broken text =>
    .broken none (mantissa ++ text).length (.malformedExponent (found (tail.drop text.length)))

/-- The front of a text that begins with a digit or a decimal point. -/
def number (cs : List Char) : Front :=
  let whole := cs.takeWhile Char.isDigit
  match cs.dropWhile Char.isDigit with
  | '.' :: tail => double whole tail
  | _ => .token (Token.spelled .intLiteral whole) whole.length

/-! ## Character literals -/

/-- The front of a quote followed by the logical character `unit` and then by `cs`. A literal that
is not closed is closed by its token. -/
def closeChar (unit cs : List Char) : Front :=
  let t := Token.spelled .charLiteral ('\'' :: unit ++ ['\''])
  match cs with
  | '\'' :: _ => .token t (unit.length + 2)
  | _ => .broken (some t) (unit.length + 1) (.expectedCharacter '\'' (found cs))

/-- The front of a quote followed by `cs`. A line that ends before the logical character is complete
leaves no literal. -/
def charLiteral : List Char → Front
  | [] => .broken none 1 (.expectedCharacter '\'' (some '\n'))
  | ['\\'] => .broken none 2 (.expectedCharacter '\'' (some '\n'))
  | '\\' :: payload :: cs => closeChar ['\\', payload] cs
  | c :: cs => closeChar [c] cs

/-! ## Marks -/

/-- The front of a text that begins with a mark, with half of a mark that must be doubled, or with
no token at all. -/
def mark (c : Char) (cs : List Char) : Front :=
  match Mark.longest? (c :: cs) with
  | some m => .token (Token.plain (.mark m)) m.text.length
  | none =>
    if c = '&' ∨ c = '|' then .broken none 1 (.expectedCharacter c (found cs)) else .illegal c

/-! ## The decision -/

/-- What the rest of a line begins with. -/
def of : List Char → Front
  | [] => .lineEnd
  | '/' :: '*' :: _ => .blockComment
  | '/' :: '/' :: _ => .lineComment
  | '"' :: _ => .stringLiteral
  | '\'' :: cs => charLiteral cs
  | c :: cs =>
    if isSpacing c then .spacing
    else if isWordStart c then word (c :: cs)
    else if c.isDigit || c == '.' then number (c :: cs)
    else mark c cs

/-! ## Widths -/

/-- The number of characters of the line that a front shows to belong together. -/
def width : Front → Nat
  | .lineEnd => 0
  | .spacing | .stringLiteral | .illegal _ => 1
  | .lineComment | .blockComment => 2
  | .token _ width => width
  | .broken _ width _ => width

theorem width_word_pos {c : Char} {cs : List Char} (h : isWordStart c = true) :
    0 < (word (c :: cs)).width := by
  have : isWordPart c = true := by
    simp only [isWordStart, isWordPart, Char.isAlphanum, Bool.or_eq_true] at h ⊢
    exact h.imp_left Or.inl
  simp [word, width, this]

theorem width_double_pos (whole cs : List Char) : 0 < (double whole cs).width := by
  simp only [double]
  split <;> simp only [width, List.length_append, List.length_cons] <;> omega

theorem width_number_pos {c : Char} {cs : List Char} (h : (c.isDigit || c == '.') = true) :
    0 < (number (c :: cs)).width := by
  simp only [number]
  split
  · exact width_double_pos _ _
  · rename_i hdot
    by_cases hd : c.isDigit
    · simp [width, hd]
    · simp only [hd, Bool.false_or, beq_iff_eq] at h
      exact absurd (by simp [h]) (hdot cs)

theorem width_closeChar_pos (unit cs : List Char) : 0 < (closeChar unit cs).width := by
  simp only [closeChar]
  split <;> simp [width]

theorem width_charLiteral_pos (cs : List Char) : 0 < (charLiteral cs).width := by
  simp only [charLiteral]
  split
  · simp [width]
  · simp [width]
  · exact width_closeChar_pos _ _
  · exact width_closeChar_pos _ _

theorem width_mark_pos (c : Char) (cs : List Char) : 0 < (mark c cs).width := by
  simp only [mark]
  split
  · rename_i m _
    cases m <;> simp [width, Mark.text]
  · split <;> simp [width]

/-- A text that is not empty begins with at least one character. -/
theorem width_pos {cs : List Char} (h : cs ≠ []) : 0 < (of cs).width := by
  unfold of
  split
  · exact absurd rfl h
  · simp [width]
  · simp [width]
  · simp [width]
  · exact width_charLiteral_pos _
  · split
    · simp [width]
    · split
      · exact width_word_pos ‹_›
      · split
        · exact width_number_pos ‹_›
        · exact width_mark_pos _ _

end Front

end MiniLex
