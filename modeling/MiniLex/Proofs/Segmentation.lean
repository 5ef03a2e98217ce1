import MiniLex.Proofs.Run

/-!
# The segments of a text

A text that is scanned without failure falls into segments: every character, as it is scanned,
belongs to exactly one of them. The tokens are those of the segments that have one, and the
diagnostics are those of the segments that something is wrong with.

- `Token.ReadFrom t w`: what the text of a token has to do with the token.
- `Tokenized.SegmentedBy`: the segments of a text account for all that scanning it came to.
- `tokenize_of_tiles`: whatever text is made up of segments is scanned to what they say.

Main statement: `tokenize_segmentedBy`.
-/

namespace MiniLex

/-! ## The text of a token -/

/-- `w` is the text that the token `t` was read from. -/
inductive Token.ReadFrom : Token → List Char → Prop where
  /-- A kind with a fixed text has that text. -/
  | fixed {k : Kind} {w : List Char} (text : k.fixedText? = some w) : ReadFrom (.plain k) w
  /-- Any other kind carries the text. -/
  | spelled {k : Kind} {w : List Char} (carries : k.carriesSpelling = true) :
      ReadFrom (.spelled k w) w
  /-- A character literal that is not closed is closed by its token. -/
  | unclosed {unit : List Char} (logical : IsCharUnit unit) :
      ReadFrom (.spelled .charLiteral ('\'' :: unit ++ ['\''])) ('\'' :: unit)

/-- A lexeme is what its token is read from. -/
theorem Lexeme.readFrom {t : Token} {w : List Char} (h : Lexeme t w) : t.ReadFrom w := by
  cases h with
  | keyword k => exact .fixed rfl
  | mark m => exact .fixed rfl
  | identifier _ _ | integer _ | double _ | char _ | string _ => exact .spelled rfl

theorem Segment.Fits.readFrom {t : Token} {w rest : List Char} (h : (Segment.token t w).Fits rest) :
    t.ReadFrom w := by
  cases h with
  | token longest _ _ => exact longest.lexeme.readFrom
  | unclosed logical _ => exact .unclosed logical

namespace Tiles

/-- Every segment is what it is because of the text after it. -/
theorem exists_fits {segs : List Segment} {cs : List Char} (h : Tiles segs cs) {s : Segment}
    (hs : s ∈ segs) : ∃ rest, s.Fits rest := by
  induction h with
  | nil => cases hs
  | cons fits _ ih =>
    rcases List.mem_cons.mp hs with rfl | hs
    · exact ⟨_, fits⟩
    · exact ih hs

end Tiles

/-! ## Texts -/

/-- The segments `segs` of the characters `cs` account for all that scanning them came to. -/
structure Tokenized.SegmentedBy (r : Tokenized) (cs : List Char) (segs : List Segment) : Prop where
  /-- The segments make up the characters, without gap or overlap. -/
  tiles : Tiles segs cs
  /-- No other segments do. -/
  unique : ∀ segs', Tiles segs' cs → segs' = segs
  nonempty : ∀ s ∈ segs, s.text ≠ []
  /-- The tokens are those of the segments, and the end of the source. -/
  tokens : r.result = .ok (segs.filterMap Segment.token? ++ [.eof])
  proper : ∀ t ∈ segs.filterMap Segment.token?, t.isEof = false
  readFrom : ∀ t w, .token t w ∈ segs → t.ReadFrom w
  /-- The diagnostics are those of the segments. -/
  reported : r.reported = reportsOf [] segs

/-- The first character of a text can always be reached. -/
theorem exists_first (text : List Char) :
    ∃ c, (Cursor.start (LineRead.ofText text)).advance = .ok c ∧
      c.Follows (LineRead.ofText text) [] ∧ c.stream = canonical text := by
  have hreads := LineRead.feedless_ofText text
  have hfail := LineRead.unfailing_ofText text
  unfold canonical
  generalize LineRead.ofText text = reads at hreads hfail
  obtain ⟨c, hc⟩ : ∃ c, (Cursor.start reads).advance = .ok c := by
    match reads, hfail with
    | [], _ => exact ⟨_, rfl⟩
    | .line line :: reads, _ => exact ⟨_, rfl⟩
    | .failed message :: reads, hfail => exact absurd (List.mem_cons_self ..) (hfail message)
  have hfollows := Cursor.Follows.of_start hreads hc
  exact ⟨c, hc, hfollows, hfollows.stream.symm⟩

/-- A text that is made up of segments is scanned to what they say. -/
theorem tokenize_of_tiles {text : List Char} {segs : List Segment} (h : Tiles segs (canonical text)) :
    tokenize text = ⟨.ok (segs.filterMap Segment.token? ++ [.eof]), reportsOf [] segs⟩ := by
  obtain ⟨c, hc, hfollows, hstream⟩ := exists_first text
  rw [tokenize, tokenizeReads_of_ok hc]
  rw [← hstream] at h
  exact hfollows.tokenized_of_tiles (LineRead.feedless_ofText text) (LineRead.unfailing_ofText text) h

/-- Segments make up a text, up to what is not closed, if anything is. -/
theorem exists_tilesTo (text : List Char) :
    ∃ segs tail, TilesTo tail segs (canonical text) ∧ (tail = [] ∨ Unterminated tail) := by
  obtain ⟨c, hc, hfollows, hstream⟩ := exists_first text
  rw [← hstream]
  exact hfollows.exists_tilesTo (LineRead.feedless_ofText text) (LineRead.unfailing_ofText text)

/-- What is left of a text of so many lines comes to, if it is nothing or not closed. -/
def Tokenized.atEnd (lines : Nat) (tail : List Char) : Tokenized :=
  ⟨if tail = [] then .ok [.eof] else .error ⟨.readPastEnd, ⟨lines, 1⟩, ""⟩, []⟩

/-- A text that is made up of segments, up to what is not closed, is scanned to what they say. -/
theorem tokenize_of_tilesTo {text tail : List Char} {segs : List Segment}
    (h : TilesTo tail segs (canonical text)) (htail : tail = [] ∨ Unterminated tail) :
    tokenize text =
      (Tokenized.atEnd ((canonical text).count '\n') tail).after (reportsTo tail [] segs)
        (segs.filterMap Segment.token?) := by
  have hreads := LineRead.feedless_ofText text
  have hfail := LineRead.unfailing_ofText text
  obtain ⟨c, hc, hfollows, hstream⟩ := exists_first text
  rw [← hstream] at h
  obtain ⟨next, hnext, hlast, hrun⟩ := hfollows.tokenized_of_tilesTo hreads hfail h
  rw [tokenize, tokenizeReads_of_ok hc, hrun]
  congr 1
  rcases htail with rfl | hopen
  · rw [Cursor.tokenized_of_nil hnext]
    rfl
  · have hne : tail ≠ [] := by
      rintro rfl
      cases hopen
    rw [hlast.tokenized_of_unterminated hreads hfail (hnext ▸ hopen), Tokenized.atEnd, if_neg hne]
    rfl

/-- A text that is scanned to tokens is made up of segments. -/
theorem tiles_of_tokenize {text : List Char} {ts : List Token} (h : (tokenize text).result = .ok ts) :
    ∃ segs, Tiles segs (canonical text) := by
  obtain ⟨c, hc, hfollows, hstream⟩ := exists_first text
  rw [tokenize, tokenizeReads_of_ok hc] at h
  rw [← hstream]
  exact hfollows.tiles_of_tokenized (LineRead.feedless_ofText text) h

/-- If scanning a text comes to tokens, then the text falls into segments, in one way only, and they
account for the tokens and the diagnostics. -/
theorem tokenize_segmentedBy {text : List Char} {ts : List Token}
    (h : (tokenize text).result = .ok ts) :
    ∃ segs, (tokenize text).SegmentedBy (canonical text) segs := by
  obtain ⟨segs, htiles⟩ := tiles_of_tokenize h
  have hresult := tokenize_of_tiles htiles
  refine ⟨segs, ?_⟩
  constructor
  · exact htiles
  · exact fun segs' h' => h'.unique htiles
  · intro s hs
    obtain ⟨rest, hfits⟩ := htiles.exists_fits hs
    exact hfits.text_ne_nil
  · rw [hresult]
  · intro t ht
    obtain ⟨s, hs, htoken⟩ := List.mem_filterMap.mp ht
    obtain ⟨rest, hfits⟩ := htiles.exists_fits hs
    exact hfits.not_isEof htoken
  · intro t w hs
    obtain ⟨rest, hfits⟩ := htiles.exists_fits hs
    exact hfits.readFrom
  · rw [hresult]

/-- A text with segments of all types. -/
theorem tokenize_segmentedBy_three_lines :
    let text := "x/**/&\r\n7.5e+$'a\n'".toList
    let ts := [.spelled .identifier ['x'], .spelled .charLiteral ['\'', 'a', '\''], .eof]
    (tokenize text).result = .ok ts ∧ ∃ segs, (tokenize text).SegmentedBy (canonical text) segs := by
  have h : (tokenize "x/**/&\r\n7.5e+$'a\n'".toList).result =
      .ok [.spelled .identifier ['x'], .spelled .charLiteral ['\'', 'a', '\''], .eof] := by
    decide +kernel
  exact ⟨h, tokenize_segmentedBy h⟩

end MiniLex
