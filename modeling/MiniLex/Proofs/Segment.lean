import Mathlib
import MiniLex.Diagnostic.Basic
import MiniLex.Proofs.Longest

/-!
# Segments

The characters of a source fall into segments, each of which is passed over in one go: blanks,
comments, tokens, and what is reported and dropped. What the segments are is said here without any
regard to how a source is scanned.

- `Segment`, `Segment.text`: the seven types of segment, each with its characters.
- `Segment.Fits s rest`: a segment that is what it is when `rest` comes after it.
- `Tiles segs cs`: the segments make up all of `cs`, without gap or overlap; `TilesTo rest segs cs`:
  they make up what comes before `rest`.
- `Segment.reports`, `reportsOf`, `reportsTo`: the diagnostics that segments give rise to.

Main statement: a text is made up of segments in one way at most (`Segment.Fits.unique`,
`Tiles.unique`).
-/

namespace MiniLex

/-- A piece of a source. -/
inductive Segment where
  /-- One character between tokens that means nothing. -/
  | blank (c : Char)
  /-- A comment, a line comment with the line feed that ends it. -/
  | comment (text : List Char)
  /-- The text of a token. -/
  | token (t : Token) (text : List Char)
  /-- A character that begins nothing. -/
  | illegal (c : Char)
  /-- One half of a mark that must be doubled. -/
  | lone (c : Char)
  /-- A number with an exponent that has no digits. -/
  | number (text : List Char)
  /-- The beginning of a character literal that the end of the line cuts off. -/
  | opener (text : List Char)
deriving DecidableEq

/-- The characters that may stand between tokens. -/
def IsSpace (c : Char) : Prop :=
  c = ' ' ∨ c = '\t' ∨ c = '\r' ∨ c = '\n'

/-- A block comment ends at the first star and slash after those that open it, a line comment at the
end of its line. -/
inductive IsComment : List Char → Prop where
  | block {body : List Char} (inner : ¬ ['*', '/'] <:+: body) :
      IsComment ('/' :: '*' :: body ++ ['*', '/'])
  | line {body : List Char} (feed : '\n' ∉ body) : IsComment ('/' :: '/' :: body ++ ['\n'])

/-- A text at which a comment opens. -/
def OpensComment (cs : List Char) : Prop :=
  ['/', '*'] <+: cs ∨ ['/', '/'] <+: cs

/-- A text that goes on with the letter of an exponent. -/
def OpensExponent (cs : List Char) : Prop :=
  cs.head? = some 'e' ∨ cs.head? = some 'E'

/-- A text whose longest lexeme is a double without an exponent, which the letter of an exponent
follows all the same. -/
def CutsExponent (cs : List Char) : Prop :=
  ∃ m rest, IsMantissa m ∧ Longest (.spelled .doubleLiteral m) m cs ∧ cs = m ++ rest ∧
    OpensExponent rest

/-- A character that begins no lexeme and is no space. -/
def IsIllegal (c : Char) : Prop :=
  ¬ IsSpace c ∧ ∀ t w, Lexeme t w → w.head? ≠ some c

namespace Segment

/-- The characters of a segment. -/
def text : Segment → List Char
  | .blank c | .illegal c | .lone c => [c]
  | .comment text | .token _ text | .number text | .opener text => text

/-- The token of a segment. -/
def token? : Segment → Option Token
  | .token t _ => some t
  | _ => none

/-- What a segment is, given what comes after it. -/
inductive Fits : Segment → List Char → Prop where
  | blank {c : Char} {rest : List Char} (space : IsSpace c) : Fits (.blank c) rest
  | comment {text rest : List Char} (comment : IsComment text) : Fits (.comment text) rest
  | token {t : Token} {text rest : List Char} (longest : Longest t text (text ++ rest))
      (comment : ¬ OpensComment (text ++ rest)) (exponent : ¬ (IsMantissa text ∧ OpensExponent rest)) :
      Fits (.token t text) rest
  | unclosed {unit rest : List Char} (logical : IsCharUnit unit) (quote : rest.head? ≠ some '\'') :
      Fits (.token (.spelled .charLiteral ('\'' :: unit ++ ['\''])) ('\'' :: unit)) rest
  | illegal {c : Char} {rest : List Char} (illegal : IsIllegal c) : Fits (.illegal c) rest
  | lone {c : Char} {rest : List Char} (half : c = '&' ∨ c = '|') (single : rest.head? ≠ some c) :
      Fits (.lone c) rest
  | number {m e rest : List Char} (mantissa : IsMantissa m) (head : IsExponentHead e)
      (digits : Stops Char.isDigit rest) (sign : EndsHead e rest) :
      Fits (.number (m ++ e)) rest
  | opener {text rest : List Char} (opener : text = ['\''] ∨ text = ['\'', '\\'])
      (feed : rest.head? = some '\n') : Fits (.opener text) rest

end Segment

/-- The segments make up the text in order, without gap or overlap. -/
inductive Tiles : List Segment → List Char → Prop where
  | nil : Tiles [] []
  | cons {s : Segment} {segs : List Segment} {rest : List Char} (fits : s.Fits rest)
      (tiles : Tiles segs rest) : Tiles (s :: segs) (s.text ++ rest)

/-- The segments make up the text in order, up to `rest`. -/
inductive TilesTo (rest : List Char) : List Segment → List Char → Prop where
  | nil : TilesTo rest [] rest
  | cons {s : Segment} {segs : List Segment} {cs : List Char} (fits : s.Fits cs)
      (tiles : TilesTo rest segs cs) : TilesTo rest (s :: segs) (s.text ++ cs)

/-! ## What segments report -/

/-- The characters of the last line of a text. -/
def lastLine (cs : List Char) : List Char :=
  cs.rtakeWhile (· != '\n')

/-- The place after a text. -/
def Position.after (before : List Char) : Position :=
  ⟨before.count '\n' + 1, (lastLine before).length + 1⟩

/-- A diagnostic located on the first character of `rest`, which comes after `before`. -/
def Diagnostic.between (before rest : List Char) (cause : Cause) : Diagnostic :=
  ⟨cause, .after before, String.ofList (lastLine before ++ rest.takeWhile (· != '\n'))⟩

namespace Segment

/-- What is wrong with a segment, and after how many of its characters that is met, given what comes
after the segment. A token is wrong if its text is not all of its lexeme. -/
def fault (rest : List Char) : Segment → Option (Nat × Cause)
  | .blank _ | .comment _ => none
  | .token t text =>
    if t.lexeme? = some text then none
    else some (text.length, .expectedCharacter '\'' rest.head?)
  | .illegal c => some (0, .illegalCharacter c)
  | .lone c => some (1, .expectedCharacter c rest.head?)
  | .number text => some (text.length, .malformedExponent rest.head?)
  | .opener text => some (text.length, .expectedCharacter '\'' rest.head?)

/-- The diagnostics of a segment between `before` and `rest`. -/
def reports (before rest : List Char) (s : Segment) : List Diagnostic :=
  match s.fault rest with
  | none => []
  | some (n, cause) => [.between (before ++ s.text.take n) (s.text.drop n ++ rest) cause]

/-- What is wrong only behind the last character of a segment is located on the character that comes next. -/
theorem reports_behind {s : Segment} {rest : List Char} {cause : Cause}
    (h : s.fault rest = some (s.text.length, cause)) (before : List Char) :
    s.reports before rest = [.between (before ++ s.text) rest cause] := by
  rw [reports, h]
  show [Diagnostic.between (before ++ s.text.take s.text.length) (s.text.drop s.text.length ++ rest) cause] = _
  rw [List.take_length, List.drop_length, List.nil_append]

end Segment

/-- The diagnostics of the segments that come after `before`. -/
def reportsOf (before : List Char) : List Segment → List Diagnostic
  | [] => []
  | s :: segs => s.reports before (segs.flatMap Segment.text) ++ reportsOf (before ++ s.text) segs

/-- The diagnostics of the segments that come after `before` and up to `rest`. -/
def reportsTo (rest before : List Char) : List Segment → List Diagnostic
  | [] => []
  | s :: segs =>
    s.reports before (segs.flatMap Segment.text ++ rest) ++ reportsTo rest (before ++ s.text) segs

theorem reportsTo_nil (before : List Char) (segs : List Segment) :
    reportsTo [] before segs = reportsOf before segs := by
  induction segs generalizing before with
  | nil => rfl
  | cons s segs ih => rw [reportsTo, reportsOf, ih, List.append_nil]

/-! ## Texts at which segments begin -/

theorem Mark.not_prefix_of_head {c : Char} {cs : List Char} (h : ∀ m ∈ Mark.all, m.text.head? ≠ some c)
    (m : Mark) : ¬ m.text <+: c :: cs := by
  intro hm
  obtain ⟨d, ds, hds, -⟩ := m.head
  rw [hds, List.cons_prefix_cons] at hm
  exact h m m.mem_all (by rw [hds, hm.1]; rfl)

theorem IsSpace.barren {c : Char} (h : IsSpace c) (cs : List Char) : Barren (c :: cs) := by
  rcases h with rfl | rfl | rfl | rfl <;>
    exact barren_of_family (by decide) (Mark.not_prefix_of_head (by decide))

theorem IsIllegal.barren {c : Char} (h : IsIllegal c) (cs : List Char) : Barren (c :: cs) := by
  intro t w hlexeme hw
  obtain ⟨d, ds, rfl, -⟩ := hlexeme.family
  rw [List.cons_prefix_cons] at hw
  exact h.2 t _ hlexeme (by rw [hw.1]; rfl)

theorem barren_lone {c : Char} {cs : List Char} (h : c = '&' ∨ c = '|') (hcs : cs.head? ≠ some c) :
    Barren (c :: cs) := by
  have hdouble : ∀ m ∈ Mark.all, m.text.head? = some c → m.text = [c, c] := by
    rcases h with rfl | rfl <;> decide
  refine barren_of_family (by rcases h with rfl | rfl <;> decide) fun m hm => ?_
  obtain ⟨d, ds, hds, -⟩ := m.head
  have hd : m.text.head? = some c := by
    rw [hds, List.cons_prefix_cons] at hm
    rw [hds, hm.1]
    rfl
  rw [hdouble m m.mem_all hd, List.cons_prefix_cons] at hm
  obtain ⟨s, hs⟩ := hm.2
  exact hcs (by rw [← hs]; rfl)

theorem barren_unclosed {unit cs : List Char} (hu : IsCharUnit unit) (hcs : cs.head? ≠ some '\'') :
    Barren ('\'' :: unit ++ cs) := by
  refine barren_quote fun unit' hu' h => ?_
  obtain ⟨-, s, hs⟩ := hu.prefix_cases hu' h
  exact hcs (by rw [← hs]; rfl)

theorem barren_opener {text cs : List Char} (h : text = ['\''] ∨ text = ['\'', '\\'])
    (hcs : cs.head? = some '\n') : Barren (text ++ cs) := by
  obtain ⟨ds, rfl⟩ := List.head?_eq_some_iff.mp hcs
  rcases h with rfl | rfl
  · refine barren_quote fun unit hu h => ?_
    cases hu with
    | plain hfeed _ => exact hfeed (List.cons_prefix_cons.mp h).1
    | escaped _ => exact absurd (List.cons_prefix_cons.mp h).1 (by decide)
  · refine barren_quote fun unit hu h => ?_
    cases hu with
    | plain _ hback => exact hback (List.cons_prefix_cons.mp h).1
    | escaped hfeed => exact hfeed (List.cons_prefix_cons.mp (List.cons_prefix_cons.mp h).2).1

theorem cutsExponent_number {m e cs : List Char} (hm : IsMantissa m) (he : IsExponentHead e)
    (hdigits : Stops Char.isDigit cs) (hhead : EndsHead e cs) : CutsExponent (m ++ e ++ cs) := by
  refine ⟨m, e ++ cs, hm, ?_, by simp, ?_⟩
  · rw [List.append_assoc]
    exact longest_mantissa hm (he.stops cs) fun x hx => he.no_exponent hdigits hhead hx
  · obtain ⟨letter, sign, hletter, -, rfl⟩ := he
    simpa [OpensExponent] using hletter

/-! ## Uniqueness -/

/-- The types of segment. -/
inductive Segment.Role where
  | blank | comment | token | illegal | lone | number | opener
deriving DecidableEq

/-- The type of a segment. -/
def Segment.role : Segment → Role
  | .blank _ => .blank
  | .comment _ => .comment
  | .token _ _ => .token
  | .illegal _ => .illegal
  | .lone _ => .lone
  | .number _ => .number
  | .opener _ => .opener

open Classical in
/-- The type of the segment that a text begins with. -/
noncomputable def Segment.Role.of (cs : List Char) : Role :=
  if ∃ c, cs.head? = some c ∧ IsSpace c then .blank
  else if OpensComment cs then .comment
  else if CutsExponent cs then .number
  else if ¬ Barren cs then .token
  else if cs.head? = some '\'' then
    if ['\'', '\n'] <+: cs ∨ ['\'', '\\', '\n'] <+: cs then .opener else .token
  else if cs.head? = some '&' ∨ cs.head? = some '|' then .lone
  else .illegal

theorem not_space_of_lexeme {t : Token} {w cs : List Char} (h : Lexeme t w) (hw : w <+: cs) :
    ¬ ∃ c, cs.head? = some c ∧ IsSpace c := by
  rintro ⟨c, hc, hspace⟩
  obtain ⟨ds, rfl⟩ := List.head?_eq_some_iff.mp hc
  exact hspace.barren ds t w h hw

theorem IsComment.opens {text : List Char} (h : IsComment text) (rest : List Char) :
    OpensComment (text ++ rest) := by
  cases h with
  | block _ => exact .inl (by simp [List.cons_prefix_cons])
  | line _ => exact .inr (by simp [List.cons_prefix_cons])

theorem OpensComment.head {cs : List Char} (h : OpensComment cs) : cs.head? = some '/' := by
  rcases h with ⟨s, rfl⟩ | ⟨s, rfl⟩ <;> rfl

theorem CutsExponent.not_barren {cs : List Char} (h : CutsExponent cs) : ¬ Barren cs := by
  obtain ⟨m, rest, -, hlongest, -⟩ := h
  exact hlongest.not_barren

theorem CutsExponent.not_opensComment {cs : List Char} (h : CutsExponent cs) : ¬ OpensComment cs := by
  obtain ⟨m, rest, hm, -, rfl, -⟩ := h
  obtain ⟨c, ds, rfl, hc⟩ := hm.head
  intro hopens
  obtain rfl : c = '/' := by simpa using hopens.head
  exact absurd hc (by decide)

/-- The longest lexeme of a text tells whether the letter of an exponent cuts it off. -/
theorem Longest.not_cutsExponent {t : Token} {w rest : List Char} (h : Longest t w (w ++ rest))
    (hexponent : ¬ (IsMantissa w ∧ OpensExponent rest)) : ¬ CutsExponent (w ++ rest) := by
  rintro ⟨m, rest', hm, hlongest, heq, hopens⟩
  obtain ⟨rfl, -⟩ := h.unique hlongest
  rw [List.append_cancel_left_eq] at heq
  exact hexponent ⟨hm, heq ▸ hopens⟩

theorem IsIllegal.ne {c d : Char} {t : Token} {ds : List Char} (h : IsIllegal c)
    (hd : Lexeme t (d :: ds)) : c ≠ d := by
  rintro rfl
  exact h.2 t _ hd rfl

/-- An illegal character opens no comment, no literal and no doubled mark. -/
theorem IsIllegal.ne_openers {c : Char} (h : IsIllegal c) :
    c ≠ '/' ∧ c ≠ '\'' ∧ c ≠ '&' ∧ c ≠ '|' :=
  ⟨h.ne (.mark .divide), h.ne (.char ⟨['a'], .plain (by decide) (by decide), rfl⟩),
    h.ne (.mark .and), h.ne (.mark .or)⟩

/-- The first two characters tell the type of a segment that begins a text without a lexeme, if they
open no comment and are no space. -/
theorem Segment.Role.of_barren {c : Char} {cs : List Char} (hb : Barren (c :: cs))
    (hspace : ¬ IsSpace c) (hslash : c ≠ '/') :
    Role.of (c :: cs) =
      if c = '\'' then if ['\n'] <+: cs ∨ ['\\', '\n'] <+: cs then .opener else .token
      else if c = '&' ∨ c = '|' then .lone else .illegal := by
  have hopens : ¬ OpensComment (c :: cs) := fun h => hslash (by simpa using h.head)
  have hcut : ¬ CutsExponent (c :: cs) := fun h => h.not_barren hb
  by_cases hquote : c = '\''
  · subst hquote
    simp [Role.of, hspace, hopens, hcut, hb, List.cons_prefix_cons]
  · simp [Role.of, hspace, hopens, hcut, hb, hquote]

namespace Segment.Fits

open Segment.Role

/-- The type of a segment is that of the text that the segment begins. -/
theorem role_eq {s : Segment} {rest : List Char} (h : s.Fits rest) :
    s.role = Role.of (s.text ++ rest) := by
  have hquote : ¬ IsSpace '\'' := by unfold IsSpace; decide
  cases h with
  | blank space => simp [role, Role.of, text, space]
  | @comment w _ comment =>
    have hopens := comment.opens rest
    have hspace : ¬ IsSpace '/' := by unfold IsSpace; decide
    simp [role, Role.of, text, hopens, hopens.head, hspace, -List.head?_append]
  | @token t w _ longest comment exponent =>
    have hspace := not_space_of_lexeme longest.lexeme longest.begins
    have hcut := longest.not_cutsExponent exponent
    simp [role, Role.of, text, hspace, comment, hcut, longest.not_barren, -List.head?_append]
  | @unclosed unit _ logical quote =>
    -- a logical character after the quote is what tells it from an opener
    have hcut : ¬ (['\n'] <+: unit ++ rest ∨ ['\\', '\n'] <+: unit ++ rest) := by
      cases logical with
      | plain hfeed hback => simp [List.cons_prefix_cons, hfeed.symm, hback.symm]
      | escaped hfeed => simp [List.cons_prefix_cons, hfeed.symm]
    have hb : Barren ('\'' :: (unit ++ rest)) := barren_unclosed logical quote
    have hrole := Role.of_barren hb hquote (by decide)
    rw [if_pos rfl, if_neg hcut] at hrole
    exact hrole.symm
  | illegal illegal =>
    obtain ⟨hslash, hquote, hand, hor⟩ := illegal.ne_openers
    have hrole := Role.of_barren (illegal.barren rest) illegal.1 hslash
    rw [if_neg hquote, if_neg (not_or.mpr ⟨hand, hor⟩)] at hrole
    exact hrole.symm
  | @lone c _ half single =>
    have hspace : ¬ IsSpace c := by rcases half with rfl | rfl <;> (unfold IsSpace; decide)
    have hquote : c ≠ '\'' := by rcases half with rfl | rfl <;> decide
    have hslash : c ≠ '/' := by rcases half with rfl | rfl <;> decide
    have hrole := Role.of_barren (barren_lone half single) hspace hslash
    rw [if_neg hquote, if_pos half] at hrole
    exact hrole.symm
  | @number m e _ mantissa head digits sign =>
    have hcuts := cutsExponent_number mantissa head digits sign
    obtain ⟨m', rest', -, hlongest, -⟩ := id hcuts
    have hspace := not_space_of_lexeme hlongest.lexeme hlongest.begins
    have hopens := hcuts.not_opensComment
    simp [role, Role.of, text, hspace, hopens, hcuts, -List.head?_append, -List.append_assoc]
  | opener opener feed =>
    have hb := barren_opener opener feed
    obtain ⟨ds, rfl⟩ := List.head?_eq_some_iff.mp feed
    rcases opener with rfl | rfl
    · have hrole := Role.of_barren hb hquote (by decide)
      rw [if_pos rfl, if_pos (.inl (List.prefix_append ..))] at hrole
      exact hrole.symm
    · have hrole := Role.of_barren hb hquote (by decide)
      rw [if_pos rfl, if_pos (.inr ⟨ds, rfl⟩)] at hrole
      exact hrole.symm

end Segment.Fits

/-- A text without a star and slash is cut off by the first star and slash after it. -/
theorem closed_unique {body body' rest rest' : List Char} (hb : ¬ ['*', '/'] <:+: body)
    (hb' : ¬ ['*', '/'] <:+: body') (h : body ++ '*' :: '/' :: rest = body' ++ '*' :: '/' :: rest') :
    body = body' := by
  -- what the longer body has beyond the other begins with a star, and then a slash
  have key : ∀ {b b' s r r' : List Char}, ¬ ['*', '/'] <:+: b' → b' = b ++ s →
      '*' :: '/' :: r = s ++ '*' :: '/' :: r' → b = b' := by
    rintro b b' s r r' hb' rfl hs
    match s, hs with
    | [], _ => simp
    | [c], hs => simp at hs
    | c :: d :: s, hs =>
      simp only [List.cons_append, List.cons.injEq] at hs
      obtain ⟨rfl, rfl, -⟩ := hs
      exact absurd ⟨b, s, by simp⟩ hb'
  rcases List.append_eq_append_iff.mp h with ⟨s, hs, hr⟩ | ⟨s, hs, hr⟩
  · exact key hb' hs hr
  · exact (key hb hs hr).symm

theorem IsComment.unique {w w' rest rest' : List Char} (h : IsComment w) (h' : IsComment w')
    (heq : w ++ rest = w' ++ rest') : w = w' := by
  cases h with
  | @block body inner =>
    cases h' with
    | @block body' inner' =>
      have heq : body ++ '*' :: '/' :: rest = body' ++ '*' :: '/' :: rest' := by simpa using heq
      rw [closed_unique inner inner' heq]
    | line _ => simp at heq
  | @line body feed =>
    cases h' with
    | block _ => simp at heq
    | @line body' feed' =>
      have heq : body ++ '\n' :: rest = body' ++ '\n' :: rest' := by simpa using heq
      rw [(append_inj_of_stops (bne_of_not_mem feed) (bne_of_not_mem feed') (by simp) (by simp) heq).1]

namespace Segment.Fits

/-- A text begins with one segment at most. -/
theorem unique {s s' : Segment} {rest rest' : List Char} (h : s.Fits rest) (h' : s'.Fits rest')
    (heq : s.text ++ rest = s'.text ++ rest') : s = s' ∧ rest = rest' := by
  have hrole : s.role = s'.role := by rw [h.role_eq, h'.role_eq, heq]
  suffices hs : s = s' by
    subst hs
    exact ⟨rfl, List.append_cancel_left heq⟩
  -- both are of one type, so that each has only its like to be compared with
  cases h with
  | blank space =>
    cases h' <;> cases hrole
    rw [(List.cons.inj heq).1]
  | comment comment =>
    cases h' <;> cases hrole
    rename_i comment'
    rw [comment.unique comment' heq]
  | token longest _ _ =>
    cases h' <;> cases hrole
    · rename_i longest' _ _
      have heq : _ ++ rest = _ ++ rest' := heq
      obtain ⟨rfl, rfl⟩ := longest.unique (heq ▸ longest')
      rfl
    · rename_i logical quote
      exact absurd (barren_unclosed logical quote) (heq ▸ longest.not_barren)
  | @unclosed unit _ logical quote =>
    cases h' <;> cases hrole
    · rename_i longest _ _
      exact absurd (barren_unclosed logical quote) (heq ▸ longest.not_barren)
    · rename_i unit' logical' quote'
      have heq : '\'' :: (unit ++ rest) = '\'' :: (unit' ++ rest') := heq
      have hpre : unit' ++ rest' <+: unit ++ rest := (List.cons.inj heq).2 ▸ List.prefix_refl _
      rw [(logical.prefix_cases logical' hpre).1]
  | illegal _ =>
    cases h' <;> cases hrole
    rw [(List.cons.inj heq).1]
  | lone _ _ =>
    cases h' <;> cases hrole
    rw [(List.cons.inj heq).1]
  | @number m e _ mantissa head digits sign =>
    cases h' <;> cases hrole
    rename_i m' e' mantissa' head' digits' sign'
    have heq : m ++ (e ++ rest) = m' ++ (e' ++ rest') := by simpa [text] using heq
    have hlongest := longest_mantissa mantissa (head.stops rest) fun x hx => head.no_exponent digits sign hx
    have hlongest' :=
      longest_mantissa mantissa' (head'.stops rest') fun x hx => head'.no_exponent digits' sign' hx
    obtain ⟨rfl, -⟩ := hlongest.unique (heq ▸ hlongest')
    rw [(head.append_inj head' sign sign' (List.append_cancel_left heq)).1]
  | opener opener feed =>
    cases h' <;> cases hrole
    rename_i opener' feed'
    obtain ⟨ds, rfl⟩ := List.head?_eq_some_iff.mp feed
    obtain ⟨ds', rfl⟩ := List.head?_eq_some_iff.mp feed'
    rcases opener with rfl | rfl <;> rcases opener' with rfl | rfl
    · rfl
    · simp [text] at heq
    · simp [text] at heq
    · rfl

theorem text_ne_nil {s : Segment} {rest : List Char} (h : s.Fits rest) : s.text ≠ [] := by
  cases h with
  | blank _ | illegal _ | lone _ _ => exact List.cons_ne_nil _ _
  | comment comment => cases comment <;> exact List.cons_ne_nil _ _
  | token longest _ _ => exact longest.lexeme.ne_nil
  | unclosed _ _ => exact List.cons_ne_nil _ _
  | number mantissa _ _ _ =>
    obtain ⟨c, cs, rfl, -⟩ := mantissa.head
    exact List.cons_ne_nil _ _
  | opener opener _ => rcases opener with rfl | rfl <;> exact List.cons_ne_nil _ _

end Segment.Fits

namespace Tiles

theorem flatMap_text {segs : List Segment} {cs : List Char} (h : Tiles segs cs) :
    segs.flatMap Segment.text = cs := by
  induction h with
  | nil => rfl
  | cons _ _ ih => rw [List.flatMap_cons, ih]

/-- A text is made up of segments in one way at most. -/
theorem unique {segs segs' : List Segment} {cs : List Char} (h : Tiles segs cs)
    (h' : Tiles segs' cs) : segs = segs' := by
  induction h generalizing segs' with
  | nil =>
    generalize hcs : [] = cs at h'
    cases h' with
    | nil => rfl
    | cons fits' _ => exact absurd (List.append_eq_nil_iff.mp hcs.symm).1 fits'.text_ne_nil
  | @cons s segs rest fits tiles ih =>
    generalize hcs : s.text ++ rest = cs at h'
    cases h' with
    | nil => exact absurd (List.append_eq_nil_iff.mp hcs).1 fits.text_ne_nil
    | cons fits' tiles' =>
      obtain ⟨rfl, rfl⟩ := fits.unique fits' hcs
      rw [ih tiles']

theorem tilesTo {segs : List Segment} {cs : List Char} (h : Tiles segs cs) : TilesTo [] segs cs := by
  induction h with
  | nil => exact .nil
  | cons fits _ ih => exact .cons fits ih

end Tiles

theorem TilesTo.flatMap_text_append {rest : List Char} {segs : List Segment} {cs : List Char}
    (h : TilesTo rest segs cs) : segs.flatMap Segment.text ++ rest = cs := by
  induction h with
  | nil => rfl
  | cons _ _ ih => rw [List.flatMap_cons, List.append_assoc, ih]

end MiniLex
