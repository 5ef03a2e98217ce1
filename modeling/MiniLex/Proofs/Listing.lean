import MiniLex.Proofs.Output
import MiniLex.Proofs.Segmentation

/-!
# Listings of tokens

A token is printed as the name of its kind, with its spelling in parentheses if it carries one. Nothing in a
spelling is escaped, not even the line feeds of a string literal, and yet a listing can be read in one way
only: names are made of letters, and a spelling before a parenthesis is the longest lexeme there.

- `Token.listing`: what is printed of tokens, which is what the program writes to its standard output
  (`Program.stdout_scan`).
- `Kind.name_injective`, `Kind.isAlpha_of_mem_name`: the names of kinds.
- `Lexeme.spelling_append_inj`: the spellings of lexemes are prefix-free before a parenthesis.
- `Lexeme.display_append_inj`: so are the lines of tokens.

Main statement: `tokenize_of_listing`.
-/

namespace MiniLex

/-- What is printed of tokens, each with a line feed after it, but for the end of the source. -/
def Token.listing (ts : List Token) : String :=
  String.join ((ts.filter fun t => !t.isEof).map fun t => t.display ++ "\n")

/-! ## The program -/

/-- The tokens of replies that come to tokens, but for the end of the source. -/
theorem Reply.filterMap_token?_of_tokens {replies : List Reply} {ts : List Token}
    (h : Reply.tokens replies = .ok ts) :
    replies.filterMap Reply.token? = ts.filter fun t => !t.isEof := by
  induction replies generalizing ts with
  | nil =>
    obtain rfl := Except.ok.inj h
    rfl
  | cons reply replies ih =>
    rw [Reply.tokens] at h
    cases hanswer : reply.answer with
    | none =>
      rw [hanswer] at h
      rw [List.filterMap_cons_none (by rw [Reply.token?, hanswer])]
      exact ih h
    | some answer =>
      rw [hanswer] at h
      cases answer with
      | error d => cases h
      | ok t =>
        cases hlater : Reply.tokens replies with
        | error d => simp [hlater, Except.map] at h
        | ok ts' =>
          obtain rfl : t :: ts' = ts := by simpa [hlater, Except.map] using h
          have htoken : reply.token? = if t.isEof then none else some t := by rw [Reply.token?, hanswer]
          cases ht : t.isEof with
          | true => simp [htoken, ht, ih hlater]
          | false => simp [htoken, ht, ih hlater]

/-- The program prints the listing of the tokens of a file, if scanning it comes to tokens. -/
theorem Program.stdout_scan (filter : Log.Filter) {settings : CommandLine.Settings}
    (hquiet : settings.quiet = false) {events : List ReadEvent} {ts : List Token}
    (h : (tokenizeReads (LineRead.ofEvents events)).result = .ok ts) :
    (scan filter settings (.ok events)).stdout = Token.listing ts := by
  have hstdout := (toldBy_scan filter settings (.ok events)).stdout
  unfold tokenizeReads at h
  cases hs : Scanner.ofReads (LineRead.ofEvents events) with
  | error d =>
    rw [hs] at h
    cases h
  | ok s =>
    rw [hs] at h
    have hharvest : Harvest.ofOpened settings.file (.ok events) = Session.harvest s := by
      rw [Harvest.ofOpened, Scanner.ofOpened, hs]
    rw [hstdout, hquiet, hharvest, Session.harvest_eq, Token.listing, ← Reply.filterMap_token?_of_tokens h]
    rfl

/-! ## Names -/

namespace Kind

theorem ofName?_name (k : Kind) : ofName? k.name = some k := by
  cases k with
  | eof | identifier | intLiteral | charLiteral | stringLiteral | doubleLiteral => decide +kernel
  | keyword w => cases w <;> decide +kernel
  | mark m => cases m <;> decide +kernel

theorem name_injective : Function.Injective name := by
  intro k k' h
  have hname := ofName?_name k
  rw [h, ofName?_name] at hname
  exact (Option.some.inj hname).symm

theorem isAlpha_of_mem_name (k : Kind) : ∀ c ∈ k.name.toList, c.isAlpha = true := by
  refine List.all_eq_true.mp ?_
  cases k with
  | eof | identifier | intLiteral | charLiteral | stringLiteral | doubleLiteral => decide +kernel
  | keyword w => cases w <;> decide +kernel
  | mark m => cases m <;> decide +kernel

end Kind

/-! ## Spellings -/

section Spellings

variable {t t' : Token} {w w' cs cs' : List Char}

theorem Stops.isDigit (h : Stops isWordPart cs) : Stops Char.isDigit cs := by
  intro c hc
  have hpart := h c hc
  cases hdigit : c.isDigit with
  | false => rfl
  | true => simp [isWordPart, Char.isAlphanum, hdigit] at hpart

theorem IsExponent.not_prefix (h : IsExponent w) (hcs : Stops isWordPart cs) : ¬ w <+: cs := by
  obtain ⟨head, digits, ⟨letter, sign, hletter, -, rfl⟩, -, rfl⟩ := h
  rintro ⟨rest, rfl⟩
  have hpart : isWordPart letter = false := hcs letter rfl
  rcases hletter with rfl | rfl <;> exact absurd hpart (by decide)

/-- A spelling is the longest lexeme, if neither a word nor a number goes on after it. -/
theorem Lexeme.longest_of_spelled (h : Lexeme t w) (hspelled : t.kind.carriesSpelling = true)
    (hparts : Stops isWordPart cs) (hpoint : cs.head? ≠ some '.') : Longest t w (w ++ cs) := by
  cases h with
  | keyword k => cases hspelled
  | mark m => cases hspelled
  | identifier word free =>
    have hlongest := longest_word word hparts
    rwa [Token.word_of_free free] at hlongest
  | integer digits => exact longest_integer digits hparts.isDigit hpoint
  | double double =>
    rcases double with hm | ⟨m, e, hm, he, rfl⟩
    · exact longest_mantissa hm hparts.isDigit fun e he => he.not_prefix hparts
    · exact longest_exponent hm he hparts.isDigit
  | char literal =>
    obtain ⟨unit, hunit, rfl⟩ := literal
    exact longest_char hunit
  | string literal =>
    obtain ⟨body, hbody, rfl⟩ := literal
    exact longest_string hbody

/-- A spelling before a parenthesis tells where it ends, even if it holds parentheses itself. -/
theorem Lexeme.spelling_append_inj (h : Lexeme t w) (h' : Lexeme t' w')
    (hspelled : t.kind.carriesSpelling = true) (hspelled' : t'.kind.carriesSpelling = true)
    (heq : w ++ ')' :: cs = w' ++ ')' :: cs') : t = t' ∧ cs = cs' := by
  have hparts : ∀ ds, Stops isWordPart (')' :: ds) := fun ds => stops_cons.mpr (by decide)
  have hlongest : Longest t w (w ++ ')' :: cs) := h.longest_of_spelled hspelled (hparts cs) (by simp)
  have hlongest' : Longest t' w' (w' ++ ')' :: cs') := h'.longest_of_spelled hspelled' (hparts cs') (by simp)
  rw [← heq] at hlongest'
  obtain ⟨rfl, rfl⟩ := hlongest.unique hlongest'
  exact ⟨rfl, (List.cons.inj (List.append_cancel_left heq)).2⟩

end Spellings

/-! ## Lines -/

section Lines

variable {t t' : Token} {w w' cs cs' : List Char}

theorem Lexeme.toList_display (h : Lexeme t w) :
    t.display.toList = t.kind.name.toList ++
      if t.kind.carriesSpelling then ' ' :: '(' :: w ++ [')'] else [] := by
  cases h <;> simp [Token.display, Token.plain, Token.spelled, Kind.carriesSpelling]

theorem Lexeme.eq_plain (h : Lexeme t w) (hplain : t.kind.carriesSpelling = false) : t = .plain t.kind := by
  cases h with
  | keyword _ | mark _ => rfl
  | identifier _ _ | integer _ | double _ | char _ | string _ => cases hplain

/-- A printed token with the line feed after it tells which token it is, and where it ends. -/
theorem Lexeme.display_append_inj (h : Lexeme t w) (h' : Lexeme t' w')
    (heq : t.display.toList ++ '\n' :: cs = t'.display.toList ++ '\n' :: cs') : t = t' ∧ cs = cs' := by
  -- what comes after a name begins with a blank or is the line feed
  have hstops : ∀ (spelled : Bool) (v ds : List Char),
      Stops Char.isAlpha ((if spelled then ' ' :: '(' :: v ++ [')'] else []) ++ '\n' :: ds) := by
    intro spelled v ds
    cases spelled <;> exact stops_cons.mpr (by decide)
  rw [h.toList_display, h'.toList_display, List.append_assoc, List.append_assoc] at heq
  obtain ⟨hname, htail⟩ := append_inj_of_stops t.kind.isAlpha_of_mem_name t'.kind.isAlpha_of_mem_name
    (hstops _ w cs) (hstops _ w' cs') heq
  have hkind : t.kind = t'.kind := Kind.name_injective (String.toList_injective hname)
  cases hspelled : t.kind.carriesSpelling with
  | true =>
    have hspelled' : t'.kind.carriesSpelling = true := hkind ▸ hspelled
    have hclosed : w ++ ')' :: '\n' :: cs = w' ++ ')' :: '\n' :: cs' := by
      simpa [hspelled, hspelled'] using htail
    obtain ⟨rfl, hrest⟩ := h.spelling_append_inj h' hspelled hspelled' hclosed
    exact ⟨rfl, (List.cons.inj hrest).2⟩
  | false =>
    have hspelled' : t'.kind.carriesSpelling = false := hkind ▸ hspelled
    rw [hspelled, hspelled'] at htail
    refine ⟨?_, (List.cons.inj htail).2⟩
    rw [h.eq_plain hspelled, h'.eq_plain hspelled', hkind]

/-- The lines of lexemes tell the lexemes. -/
theorem listing_inj {ts ts' : List Token} (h : ∀ t ∈ ts, ∃ w, Lexeme t w) (h' : ∀ t ∈ ts', ∃ w, Lexeme t w)
    (heq : ts.flatMap (fun t => t.display.toList ++ ['\n']) =
      ts'.flatMap fun t => t.display.toList ++ ['\n']) : ts = ts' := by
  induction ts generalizing ts' with
  | nil =>
    cases ts' with
    | nil => rfl
    | cons t' ts' => simp at heq
  | cons t ts ih =>
    cases ts' with
    | nil => simp at heq
    | cons t' ts' =>
      rw [List.forall_mem_cons] at h h'
      obtain ⟨⟨w, hw⟩, hlater⟩ := h
      obtain ⟨⟨w', hw'⟩, hlater'⟩ := h'
      have hlines : t.display.toList ++ '\n' :: ts.flatMap (fun t => t.display.toList ++ ['\n']) =
          t'.display.toList ++ '\n' :: ts'.flatMap fun t => t.display.toList ++ ['\n'] := by
        simpa using heq
      obtain ⟨rfl, hrest⟩ := hw.display_append_inj hw' hlines
      rw [ih hlater hlater' hrest]

end Lines

/-! ## Listings -/

/-- The token of a segment has a lexeme, also if the segment is not closed. -/
theorem Segment.Fits.exists_lexeme {s : Segment} {rest : List Char} (h : s.Fits rest) {t : Token}
    (ht : s.token? = some t) : ∃ w, Lexeme t w := by
  cases h with
  | token longest _ _ =>
    obtain rfl := Option.some.inj ht
    exact ⟨_, longest.lexeme⟩
  | @unclosed unit _ logical _ =>
    obtain rfl := Option.some.inj ht
    exact ⟨_, .char ⟨unit, logical, rfl⟩⟩
  | blank _ | comment _ | illegal _ | lone _ _ | number _ _ _ _ | opener _ _ => cases ht

/-- The tokens of a text are those of lexemes, and then the end of the source. -/
theorem exists_lexemes_of_tokenize {text : List Char} {ts : List Token}
    (h : (tokenize text).result = .ok ts) :
    ∃ front, ts = front ++ [.eof] ∧ (∀ t ∈ front, ∃ w, Lexeme t w) ∧
      (Token.listing ts).toList = front.flatMap fun t => t.display.toList ++ ['\n'] := by
  obtain ⟨segs, htiles⟩ := tiles_of_tokenize h
  rw [tokenize_of_tiles htiles] at h
  have hfits : ∀ t ∈ segs.filterMap Segment.token?, (∃ w, Lexeme t w) ∧ t.isEof = false := by
    intro t ht
    obtain ⟨s, hs, htoken⟩ := List.mem_filterMap.mp ht
    obtain ⟨rest, hfits⟩ := htiles.exists_fits hs
    exact ⟨hfits.exists_lexeme htoken, hfits.not_isEof htoken⟩
  obtain rfl := Except.ok.inj h
  refine ⟨_, rfl, fun t ht => (hfits t ht).1, ?_⟩
  have hfilter : (segs.filterMap Segment.token?).filter (fun t => !t.isEof) = segs.filterMap Segment.token? := by
    rw [List.filter_eq_self]
    exact fun t ht => by rw [(hfits t ht).2]; rfl
  rw [Token.listing, List.filter_append, hfilter, String.toList_join]
  simp [Token.isEof, Token.eof, Token.plain, List.flatMap_map]

/-- Two texts that are scanned to tokens and have the same printed have the same tokens, whatever their
string literals hold. -/
theorem tokenize_of_listing {text text' : List Char} {ts ts' : List Token}
    (h : (tokenize text).result = .ok ts) (h' : (tokenize text').result = .ok ts')
    (hlisting : Token.listing ts = Token.listing ts') : ts = ts' := by
  obtain ⟨front, rfl, hfront, hlines⟩ := exists_lexemes_of_tokenize h
  obtain ⟨front', rfl, hfront', hlines'⟩ := exists_lexemes_of_tokenize h'
  rw [hlisting] at hlines
  rw [listing_inj hfront hfront' (hlines.symm.trans hlines')]

/-- A string literal that holds what looks like the end of one printed token and the next one. The character
literal after it is closed in one of the texts only. -/
theorem tokenize_of_listing_two_layouts :
    let text := "\"x)\nIdentifier (y\" 'a".toList
    let text' := "\"x)\nIdentifier (y\" // a comment\n'a'".toList
    let ts : List Token :=
      [.spelled .stringLiteral "\"x)\nIdentifier (y\"".toList, .spelled .charLiteral "'a'".toList, .eof]
    let ts' : List Token :=
      [⟨.stringLiteral, some "\"x)\nIdentifier (y\""⟩, ⟨.charLiteral, some "'a'"⟩, ⟨.eof, none⟩]
    (tokenize text).result = .ok ts ∧ (tokenize text').result = .ok ts' ∧
      Token.listing ts = "StringLiteral (\"x)\nIdentifier (y\")\nCharLiteral ('a')\n" ∧
        Token.listing ts = Token.listing ts' ∧ ts = ts' := by
  intro text text' ts ts'
  have h : (tokenize text).result = .ok ts := by decide +kernel
  have h' : (tokenize text').result = .ok ts' := by decide +kernel
  have hlisting : Token.listing ts = Token.listing ts' := by decide +kernel
  exact ⟨h, h', by decide +kernel, hlisting, tokenize_of_listing h h' hlisting⟩

end MiniLex
