import MiniLex.Proofs.Run

/-!
# The longest lexeme is taken

Wherever the run of a scanner looks at a text, it takes the longest lexeme that comes next. A comment
goes before any lexeme, and a number whose exponent has no digits is no lexeme but dropped.

- `Cursor.Takes t w`: a scan takes the text `w` for the token `t`.
- `Cursor.RecoversChar t`: the token of a character literal that is not closed.

Main statement: `Cursor.Seen.takes_longest`, where also all tokens are told that come from a text
without a lexeme.
-/

namespace MiniLex

/-! ## Lexemes and their tokens -/

/-- A token carries its lexeme, unless its kind has a fixed text. -/
theorem Lexeme.spelling_eq {t : Token} {w : List Char} (h : Lexeme t w) :
    t.spelling = if t.kind.carriesSpelling then some (String.ofList w) else none := by
  cases h <;> rfl

/-- The token of a lexeme is a keyword's if the lexeme is the text of the keyword. -/
theorem Lexeme.kind_eq_keyword_iff {t : Token} {w : List Char} (h : Lexeme t w) (k : Keyword) :
    t.kind = .keyword k ↔ w = k.text.toList := by
  constructor
  · intro hkind
    cases h with
    | keyword k' => rw [Kind.keyword.inj hkind]
    | mark _ | identifier _ _ | integer _ | double _ | char _ | string _ => cases hkind
  · rintro rfl
    rw [h.token_unique (.keyword k)]
    rfl

/-- A segment that begins a text with a lexeme is the longest lexeme of the text. -/
theorem Segment.Fits.longest {s : Segment} {rest : List Char} (h : s.Fits rest)
    (hlexeme : ¬ Barren (s.text ++ rest)) (hopens : ¬ OpensComment (s.text ++ rest))
    (hcuts : ¬ CutsExponent (s.text ++ rest)) :
    ∃ t w, s = .token t w ∧ Longest t w (w ++ rest) := by
  cases h with
  | blank space => exact absurd (space.barren rest) hlexeme
  | comment comment => exact absurd (comment.opens rest) hopens
  | token longest _ _ => exact ⟨_, _, rfl, longest⟩
  | unclosed logical quote => exact absurd (barren_unclosed logical quote) hlexeme
  | illegal illegal => exact absurd (illegal.barren rest) hlexeme
  | lone half single => exact absurd (barren_lone half single) hlexeme
  | number mantissa head digits sign =>
    exact absurd (cutsExponent_number mantissa head digits sign) hcuts
  | opener opener feed => exact absurd (barren_opener opener feed) hlexeme

/-- A text that is not closed begins with no lexeme, but for the slash of a comment. -/
theorem Unterminated.barren {cs : List Char} (h : Unterminated cs) (hopens : ¬ OpensComment cs) :
    Barren cs := by
  cases h with
  | comment _ => exact absurd (.inl ⟨_, rfl⟩) hopens
  | @string cs quote =>
    intro t w hlexeme hw
    obtain ⟨⟨body, hbody, rfl⟩, -⟩ : IsStringLiteral w ∧ _ := hlexeme.family_of_begins hw
    obtain ⟨rest, hrest⟩ := hw
    refine quote body rest hbody ?_
    simpa using hrest.symm

namespace Cursor

/-! ## What a scan takes -/

/-- A scan takes the text `w` for the token `t`. -/
structure Takes (c : Cursor) (t : Token) (w : List Char) : Prop where
  answer : c.scan.answer = .ok t
  quiet : c.scan.notes.filterMap Note.diagnostic? = []
  stream : c.stream = w ++ c.scan.cursor.stream
  /-- The cursor afterwards is on the character right after the text. -/
  lookahead : c.scan.cursor.lookahead = (c.stream.drop w.length).head?
  spelling : t.spelling = if t.kind.carriesSpelling then some (String.ofList w) else none
  keyword : ∀ k, t.kind = .keyword k ↔ w = k.text.toList

/-- The token is that of a character literal which comes next and is not closed. -/
def RecoversChar (c : Cursor) (t : Token) : Prop :=
  ∃ unit rest, IsCharUnit unit ∧ c.stream = '\'' :: unit ++ rest ∧ rest.head? ≠ some '\'' ∧
    t = .spelled .charLiteral ('\'' :: unit ++ ['\''])

/-- A look that comes to the token of a lexeme behind it, and reports nothing, is all that the scan needs. -/
theorem Takes.of_turn {c : Cursor} {t : Token} {w rest : List Char} (hlexeme : Lexeme t w)
    (hanswer : c.turn.answer = some (.ok t)) (hreported : c.turn.reported = []) (hs : c.stream = w ++ rest)
    (hrest : c.turn.cursor.stream = rest) : c.Takes t w := by
  have hscan := scan_of_answer hanswer
  constructor
  · rw [hscan]
  · rw [hscan]
    exact hreported
  · rw [hscan, hs, hrest]
  · rw [hscan, hs, List.drop_left, lookahead_eq_head?, hrest]
  · exact hlexeme.spelling_eq
  · exact hlexeme.kind_eq_keyword_iff

section Looks

variable {reads : List LineRead} {before : List Char} {c : Cursor}

/-- A scan takes the segment that comes next for its token, if the segment is all of the token's lexeme. -/
theorem Follows.takes_of_fits (hreads : Feedless reads) (hfail : Unfailing reads) (h : c.Follows reads before)
    {t : Token} {w rest : List Char} (hs : c.stream = w ++ rest) (hlexeme : Lexeme t w)
    (hfits : (Segment.token t w).Fits rest) : c.Takes t w := by
  obtain ⟨hanswer, hreported, hrest, -⟩ := h.turn_of_fits hreads hfail hs hfits
  rw [hlexeme.reports] at hreported
  exact .of_turn hlexeme hanswer hreported hs hrest

/-- A look at a lexeme takes the longest. -/
theorem Follows.takes (hreads : Feedless reads) (hfail : Unfailing reads) (h : c.Follows reads before)
    (hlexeme : ¬ Barren c.stream) (hopens : ¬ OpensComment c.stream) (hcuts : ¬ CutsExponent c.stream) :
    ∃ t w, Longest t w c.stream ∧ c.Takes t w := by
  have hturned := h.turned hreads
  generalize c.turn = turn at hturned
  cases hturned with
  | ended exhausted =>
    rw [stream_of_exhausted exhausted] at hlexeme
    exact absurd barren_nil hlexeme
  | passed stream fits _ _ =>
    rw [stream] at hlexeme hopens hcuts
    -- the segment that was passed is the token of the longest lexeme
    obtain ⟨t, w, rfl, hlongest⟩ := fits.longest hlexeme hopens hcuts
    refine ⟨t, w, ?_, h.takes_of_fits hreads hfail stream hlongest.lexeme fits⟩
    rw [stream]
    exact hlongest
  | unterminated opened _ _ => exact absurd (opened.barren hopens) hlexeme
  | interrupted failed _ _ =>
    obtain ⟨message, hmessage, -⟩ := failed
    exact absurd hmessage (hfail message)

/-- A look at a text without a lexeme comes to the end of the source, or closes a character
literal, if it comes to a token at all. -/
theorem Follows.answer_of_barren (hreads : Feedless reads) (hfail : Unfailing reads)
    (h : c.Follows reads before) (hbarren : Barren c.stream) (t : Token) :
    c.turn.answer = some (.ok t) ↔ (c.stream = [] ∧ t = .eof) ∨ c.RecoversChar t := by
  constructor
  · intro hanswer
    have hturned := h.turned hreads
    generalize c.turn = turn at hturned hanswer
    cases hturned with
    | ended exhausted =>
      cases hanswer
      exact .inl ⟨stream_of_exhausted exhausted, rfl⟩
    | @passed s _ next stream fits _ _ =>
      obtain ⟨t', ht', heq⟩ := Option.map_eq_some_iff.mp hanswer
      obtain rfl := Except.ok.inj heq
      rw [stream] at hbarren
      cases fits with
      | token longest _ _ => exact absurd hbarren longest.not_barren
      | unclosed logical quote =>
        cases ht'
        exact .inr ⟨_, _, logical, stream, quote, rfl⟩
      | blank _ | comment _ | illegal _ | lone _ _ | number _ _ _ _ | opener _ _ => cases ht'
    | unterminated _ _ _ | interrupted _ _ _ => cases hanswer
  · rintro (⟨hnil, rfl⟩ | ⟨unit, rest, hunit, hstream, hquote, rfl⟩)
    · rw [turn, if_pos (stream_eq_nil_iff.mp hnil)]
    · exact (h.turn_of_fits hreads hfail hstream (.unclosed hunit hquote)).1

end Looks

/-- Wherever the run of a scanner looks at a text: if a lexeme comes next, no comment does and no
exponent without digits cuts off the longest lexeme, then the scan takes the longest lexeme. If no
lexeme comes next, the look comes to a token only at the end, or by closing a character literal. -/
theorem Seen.takes_longest {text : List Char} {c : Cursor} (h : Seen (LineRead.ofText text) c) :
    ((∃ t w, Lexeme t w ∧ w <+: c.stream) → ¬ OpensComment c.stream → ¬ CutsExponent c.stream →
        ∃ t w, Longest t w c.stream ∧ c.Takes t w) ∧
      ((∀ t w, Lexeme t w → ¬ w <+: c.stream) →
        ∀ t, c.turn.answer = some (.ok t) ↔ (c.stream = [] ∧ t = .eof) ∨ c.RecoversChar t) := by
  have hreads := LineRead.feedless_ofText text
  have hfail := LineRead.unfailing_ofText text
  obtain ⟨before, hfollows⟩ := h.follows hreads
  constructor
  · rintro ⟨t, w, hlexeme, hw⟩ hopens hcuts
    exact hfollows.takes hreads hfail (fun hbarren => hbarren t w hlexeme hw) hopens hcuts
  · intro hbarren
    exact hfollows.answer_of_barren hreads hfail hbarren

/-- A mark of two characters, and then a character literal that is not closed. -/
theorem Seen.takes_longest_mark_then_char :
    let text := ">='a".toList
    let c : Cursor := ⟨some [], text, text, 1, 1⟩
    let next : Cursor := ⟨some [], text, ['\'', 'a'], 1, 3⟩
    (Seen (LineRead.ofText text) c ∧ (∃ t w, Lexeme t w ∧ w <+: c.stream) ∧ ¬ OpensComment c.stream ∧
        ¬ CutsExponent c.stream ∧ ∃ t w, Longest t w c.stream ∧ c.Takes t w) ∧
      Seen (LineRead.ofText text) next ∧ (∀ t w, Lexeme t w → ¬ w <+: next.stream) ∧
        ∀ t, next.turn.answer = some (.ok t) ↔ (next.stream = [] ∧ t = .eof) ∨ next.RecoversChar t := by
  intro text c next
  have hseen : Seen (LineRead.ofText text) c := .first (by decide)
  have hnext : Seen (LineRead.ofText text) next := by
    have hturn : c.turn.cursor = next := by decide
    exact hturn ▸ hseen.turn
  have hlexeme : ∃ t w, Lexeme t w ∧ w <+: c.stream :=
    ⟨_, _, .mark .greater, ['=', '\'', 'a', '\n'], rfl⟩
  have hopens : ¬ OpensComment c.stream := fun h => absurd h.head (by decide)
  have hcuts : ¬ CutsExponent c.stream := by
    rintro ⟨m, rest, hm, -, heq, -⟩
    obtain ⟨d, ds, rfl, hd⟩ := hm.head
    obtain rfl : '>' = d := (List.cons.inj heq).1
    exact absurd hd (by decide)
  have hunit : IsCharUnit ['a'] := .plain (by decide) (by decide)
  have hbarren : Barren ('\'' :: ['a'] ++ ['\n']) := barren_unclosed hunit (by decide)
  exact ⟨⟨hseen, hlexeme, hopens, hcuts, hseen.takes_longest.1 hlexeme hopens hcuts⟩, hnext, hbarren,
    hnext.takes_longest.2 hbarren⟩

end Cursor

end MiniLex
