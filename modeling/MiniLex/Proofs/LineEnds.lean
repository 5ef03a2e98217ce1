import MiniLex.Proofs.Bytes

/-!
# Line ends

A line may end in a line feed or in a carriage return and a line feed, and the last line may lack its
end. None of this makes a difference to what is scanned.

- `Returned text text'`: some line feeds of the text are given a carriage return.
- `Reended text text'`: besides that, a last line without an end may be given one.
- `lineTexts`: the texts of the complete lines of a text, and what comes after them.
- `Returned.lineTexts_eq`: carriage returns before line feeds make no difference to them.

Main statement: `tokenize_reended`.
-/

namespace MiniLex

/-! ## Other line ends -/

/-- Some line feeds of the text are given a carriage return. -/
inductive Returned : List Char → List Char → Prop where
  | nil : Returned [] []
  | keep {c : Char} {cs cs' : List Char} (rest : Returned cs cs') : Returned (c :: cs) (c :: cs')
  | feed {cs cs' : List Char} (rest : Returned cs cs') : Returned ('\n' :: cs) ('\r' :: '\n' :: cs')

/-- Some line feeds of the text are given a carriage return. If the text has a last line without an end,
which is not taken for the beginning of one, that line may be given either end. -/
inductive Reended (text : List Char) : List Char → Prop where
  | returned {text' : List Char} (returned : Returned text text') : Reended text text'
  | ended {text' lineEnd : List Char} (returned : Returned text text') (nonempty : text ≠ [])
      (last : text.getLast? ≠ some '\n' ∧ text.getLast? ≠ some '\r')
      (either : lineEnd = ['\n'] ∨ lineEnd = ['\r', '\n']) : Reended text (text' ++ lineEnd)

/-- A line feed that comes first is not a new one. -/
theorem Returned.head?_eq_feed {cs cs' : List Char} (h : Returned cs cs') (hfeed : cs'.head? = some '\n') :
    cs.head? = some '\n' := by
  cases h with
  | nil => exact hfeed
  | keep _ => exact hfeed
  | feed _ => rfl

theorem Returned.getLast?_eq {cs cs' : List Char} (h : Returned cs cs') : cs'.getLast? = cs.getLast? := by
  induction h with
  | nil => rfl
  | keep _ ih => rw [List.getLast?_cons, List.getLast?_cons, ih]
  | feed _ ih =>
    rw [List.getLast?_cons, List.getLast?_cons, List.getLast?_cons, ih]
    rfl

/-! ## Texts of lines -/

/-- The texts of the complete lines of a text, and what comes after the last line feed. -/
def lineTexts (text : List Char) : List (List Char) × List Char :=
  ((splitLines '\n' text).1.map lineText, (splitLines '\n' text).2)

theorem LineRead.ofText_of_lineTexts (text : List Char) :
    ofText text = (lineTexts text).1.map .line ++
      if (lineTexts text).2 = [] then [] else [.line (lineText (lineTexts text).2)] := by
  simp only [ofText, lineTexts, List.map_map]
  rfl

theorem lineTexts_feed (cs : List Char) : lineTexts ('\n' :: cs) = ([] :: (lineTexts cs).1, (lineTexts cs).2) := by
  simp [lineTexts, splitLines, lineText]

theorem lineTexts_return_feed (cs : List Char) :
    lineTexts ('\r' :: '\n' :: cs) = ([] :: (lineTexts cs).1, (lineTexts cs).2) := by
  simp [lineTexts, splitLines, lineText]

/-- A character that neither ends a line nor belongs to its end is one more of the first line. -/
theorem lineTexts_cons {c : Char} {cs : List Char} (hfeed : c ≠ '\n')
    (hreturn : ¬ (c = '\r' ∧ cs.head? = some '\n')) :
    lineTexts (c :: cs) =
      match (lineTexts cs).1 with
      | [] => ([], c :: (lineTexts cs).2)
      | line :: lines => ((c :: line) :: lines, (lineTexts cs).2) := by
  obtain ⟨hflatten, -, -⟩ := splitLines_spec '\n' cs
  simp only [lineTexts, splitLines, if_neg hfeed]
  cases hlines : (splitLines '\n' cs).1 with
  | nil => rfl
  | cons line lines =>
    have htext : lineText (c :: line) = c :: lineText line := by
      refine lineText.eq_4 c line (fun hc _ => hfeed hc) fun hc hline => hreturn ⟨hc, ?_⟩
      rw [← hflatten, hlines, hline]
      rfl
    rw [List.map_cons, List.map_cons, htext]

/-- Carriage returns before line feeds make no difference to the lines of a text that has none. -/
theorem Returned.lineTexts_eq {text text' : List Char} (h : Returned text text')
    (hpair : ¬ ['\r', '\n'] <:+: text) : lineTexts text' = lineTexts text := by
  induction h with
  | nil => rfl
  | @feed cs cs' rest ih =>
    rw [List.infix_cons_iff, not_or] at hpair
    rw [lineTexts_return_feed, lineTexts_feed, ih hpair.2]
  | @keep c cs cs' rest ih =>
    rw [List.infix_cons_iff, not_or, List.cons_prefix_cons, List.singleton_prefix_iff_head?_eq_some] at hpair
    have hreturn : ¬ (c = '\r' ∧ cs.head? = some '\n') := fun h => hpair.1 ⟨h.1.symm, h.2⟩
    by_cases hc : c = '\n'
    · rw [hc, lineTexts_feed, lineTexts_feed, ih hpair.2]
    · rw [lineTexts_cons hc hreturn, lineTexts_cons hc fun h => hreturn ⟨h.1, rest.head?_eq_feed h.2⟩, ih hpair.2]

/-! ## The last line -/

section LastLine

variable {lineEnd : List Char} (hend : lineEnd = ['\n'] ∨ lineEnd = ['\r', '\n'])
include hend

theorem lineText_append_lineEnd {body : List Char} (hbody : '\n' ∉ body) (hlast : body.getLast? ≠ some '\r') :
    lineText (body ++ lineEnd) = body := by
  induction body with
  | nil => rcases hend with rfl | rfl <;> rfl
  | cons c body ih =>
    rw [List.mem_cons, not_or] at hbody
    have hreturn : c = '\r' → body ++ lineEnd ≠ ['\n'] := by
      rintro rfl heq
      cases body with
      | nil => exact hlast rfl
      | cons d body => rcases hend with rfl | rfl <;> simp at heq
    have hlast' : body.getLast? ≠ some '\r' := by
      cases body with
      | nil => simp
      | cons d body => rwa [List.getLast?_cons_cons] at hlast
    rw [List.cons_append, lineText.eq_4 c _ (fun hc _ => hbody.1 hc.symm) hreturn, ih hbody.2 hlast']

/-- A last line is read as the same line with its end and without. -/
theorem LineRead.ofText_append_lineEnd {text : List Char} (hne : text ≠ [])
    (hlast : text.getLast? ≠ some '\n' ∧ text.getLast? ≠ some '\r') : ofText (text ++ lineEnd) = ofText text := by
  obtain ⟨hflatten, hfeed, -⟩ := splitLines_spec '\n' text
  have hopen : (splitLines '\n' text).2 ≠ [] := by
    rw [ne_eq, ← CompleteLines.iff_splitLines]
    exact not_or.mpr ⟨hne, hlast.1⟩
  have hreturn : (splitLines '\n' text).2.getLast? ≠ some '\r' := by
    rw [← hflatten, List.getLast?_append_of_ne_nil _ hopen] at hlast
    exact hlast.2
  have hline : splitLines '\n' ((splitLines '\n' text).2 ++ lineEnd) =
      ([(splitLines '\n' text).2 ++ lineEnd], []) := by
    rcases hend with rfl | rfl
    · exact splitLines_line hfeed []
    · have hfeed' : '\n' ∉ (splitLines '\n' text).2 ++ ['\r'] := by simpa using hfeed
      simpa [splitLines] using splitLines_line hfeed' []
  simp only [ofText, splitLines_append '\n' text lineEnd, hline, if_neg hopen, List.map_append, List.map_cons,
    List.map_nil, lineText_append_lineEnd hend hfeed hreturn, lineText_of_feedless hfeed, if_true,
    List.append_nil]

end LastLine

/-! ## Texts -/

/-- A text with other line ends is read as the same lines. -/
theorem Reended.ofText_eq {text text' : List Char} (h : Reended text text') (hpair : ¬ ['\r', '\n'] <:+: text) :
    LineRead.ofText text' = LineRead.ofText text := by
  have hreturned : ∀ {text'}, Returned text text' → LineRead.ofText text' = LineRead.ofText text := by
    intro text' h
    rw [LineRead.ofText_of_lineTexts, LineRead.ofText_of_lineTexts, h.lineTexts_eq hpair]
  cases h with
  | returned returned => exact hreturned returned
  | @ended text' lineEnd returned nonempty last either =>
    rw [← returned.getLast?_eq] at last
    have hne : text' ≠ [] := by
      rintro rfl
      exact nonempty (List.getLast?_eq_none_iff.mp returned.getLast?_eq.symm)
    rw [LineRead.ofText_append_lineEnd either hne last, hreturned returned]

/-- Line ends make no difference. If no carriage return stands directly before a line feed of a text, then
the text with any of its line feeds given one, and with or without an end of its last line, is scanned to
the same tokens and the same diagnostics, or it fails in the same way. However their bytes arrive, the
scanners of the two texts are the same, so that they also answer all calls in the same way. -/
theorem tokenize_reended {text text' : List Char} (hpair : ¬ ['\r', '\n'] <:+: text) (h : Reended text text') :
    tokenize text' = tokenize text ∧
      ∀ events events', Delivers events (Utf8.encode text) → Delivers events' (Utf8.encode text') →
        Scanner.ofReads (LineRead.ofEvents events') = Scanner.ofReads (LineRead.ofEvents events) := by
  have hreads := h.ofText_eq hpair
  refine ⟨congrArg tokenizeReads hreads, fun events events' hevents hevents' => ?_⟩
  rw [LineRead.ofEvents_of_delivers hevents, LineRead.ofEvents_of_delivers hevents', Utf8.decode_encode,
    Utf8.decode_encode, hreads]

/-- A string literal goes over a line end that is given a carriage return, another carriage return stands
within a line, and the last line is given an end. The bytes arrive in two pieces, cut within a line end. -/
theorem tokenize_reended_three_lines :
    let text := ['"', 'a', '\n', 'b', '"', '\n', '&', '\r', 'c']
    let text' := ['"', 'a', '\r', '\n', 'b', '"', '\n', '&', '\r', 'c'] ++ ['\r', '\n']
    let events : List ReadEvent := [.chunk [0x22, 0x61, 0x0A, 0x62, 0x22, 0x0A, 0x26, 0x0D, 0x63], .ended]
    let events' : List ReadEvent :=
      [.chunk [0x22, 0x61, 0x0D], .interrupted, .chunk [0x0A, 0x62, 0x22, 0x0A, 0x26, 0x0D, 0x63, 0x0D, 0x0A]]
    (¬ ['\r', '\n'] <:+: text ∧ Reended text text' ∧ Delivers events (Utf8.encode text) ∧
        Delivers events' (Utf8.encode text')) ∧
      tokenize text' = tokenize text ∧
        Scanner.ofReads (LineRead.ofEvents events') = Scanner.ofReads (LineRead.ofEvents events) := by
  intro text text' events events'
  have hpair : ¬ ['\r', '\n'] <:+: text := by decide
  have hreturned : Returned text ['"', 'a', '\r', '\n', 'b', '"', '\n', '&', '\r', 'c'] :=
    .keep (.keep (.feed (.keep (.keep (.keep (.keep (.keep (.keep .nil))))))))
  have h : Reended text text' := .ended hreturned (by decide) (by decide) (.inr rfl)
  have hevents : Delivers events (Utf8.encode text) := by
    have hencode : Utf8.encode text = [0x22, 0x61, 0x0A, 0x62, 0x22, 0x0A, 0x26, 0x0D, 0x63] := by decide
    rw [hencode]
    exact .chunk (.ended .nil)
  have hevents' : Delivers events' (Utf8.encode text') := by
    have hencode : Utf8.encode text' =
        [0x22, 0x61, 0x0D, 0x0A, 0x62, 0x22, 0x0A, 0x26, 0x0D, 0x63, 0x0D, 0x0A] := by decide
    rw [hencode]
    exact .chunk (.interrupted (.chunk .nil))
  obtain ⟨hsame, hscanners⟩ := tokenize_reended hpair h
  exact ⟨⟨hpair, h, hevents, hevents'⟩, hsame, hscanners events events' hevents hevents'⟩

end MiniLex
