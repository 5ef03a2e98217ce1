import MiniLex.Proofs.Order
import MiniLex.Proofs.Segmentation

/-!
# Illegal characters and blanks

A text is scanned in the same way when each of its illegal characters is replaced by a space.

- `blanked marked p cs`: the text `cs`, which stands at `p`, with a space for each marked character.
- `Segment.Fits.blanked`: a segment stays what it is when illegal characters after it are replaced.
- `Marked`: exactly the illegal segments are marked; `TilesTo.blanked`: then the replaced characters are
  made up of the same segments, with blanks for the illegal ones.
- `Diagnostic.blanked`: a diagnostic in which what is replaced is named by a space.
- `illegalAt ds`: marks the characters that the diagnostics name as illegal; what segments report marks
  exactly the illegal ones (`TilesTo.marked`).

Main statement: `tokenize_blanked`.
-/

namespace MiniLex

/-! ## Replaced characters -/

/-- The place after a character at `p`. -/
def Position.past (p : Position) (c : Char) : Position :=
  if c = '\n' then ⟨p.line + 1, 1⟩ else ⟨p.line, p.column + 1⟩

/-- The text that stands at `p`, with a space for each character that is marked at its place. -/
def blanked (marked : Position → Char → Bool) : Position → List Char → List Char
  | _, [] => []
  | p, c :: cs => (if marked p c then ' ' else c) :: blanked marked (p.past c) cs

namespace Position

theorem after_concat (before : List Char) (c : Char) : after (before ++ [c]) = (after before).past c := by
  by_cases hc : c = '\n'
  · subst hc
    simp [after, past, lastLine_concat_feed]
  · simp [after, past, lastLine_concat hc, hc, List.count_append]

theorem after_append (before w : List Char) : after (before ++ w) = w.foldl past (after before) := by
  induction w generalizing before with
  | nil => rw [List.append_nil, List.foldl_nil]
  | cons c w ih => rw [List.append_cons, ih, after_concat, List.foldl_cons]

/-- On a line, each character is one column further on. -/
theorem foldl_past {w : List Char} (hw : '\n' ∉ w) (p : Position) :
    w.foldl past p = ⟨p.line, p.column + w.length⟩ := by
  induction w generalizing p with
  | nil => rfl
  | cons c w ih =>
    rw [List.mem_cons, not_or] at hw
    rw [List.foldl_cons, past, if_neg (Ne.symm hw.1), ih hw.2, List.length_cons, Nat.add_assoc,
      Nat.add_comm 1]

theorem foldl_past_lastLine (cs : List Char) :
    (lastLine cs).foldl past ⟨cs.count '\n' + 1, 1⟩ = after cs := by
  rw [foldl_past (feed_not_mem_lastLine cs), after, Nat.add_comm 1]

end Position

section Blanks

variable {marked : Position → Char → Bool}

theorem blanked_append (p : Position) (w cs : List Char) :
    blanked marked p (w ++ cs) = blanked marked p w ++ blanked marked (w.foldl Position.past p) cs := by
  induction w generalizing p with
  | nil => rfl
  | cons c w ih => rw [List.cons_append, blanked, ih, blanked, List.cons_append, List.foldl_cons]

theorem blanked_after_append (before w cs : List Char) :
    blanked marked (.after before) (w ++ cs) =
      blanked marked (.after before) w ++ blanked marked (.after (before ++ w)) cs := by
  rw [blanked_append, Position.after_append]

theorem head?_blanked (p : Position) (cs : List Char) :
    (blanked marked p cs).head? = cs.head?.map fun c => if marked p c then ' ' else c := by
  cases cs <;> rfl

theorem length_blanked (p : Position) (cs : List Char) : (blanked marked p cs).length = cs.length := by
  induction cs generalizing p with
  | nil => rfl
  | cons c cs ih => rw [blanked, List.length_cons, ih, List.length_cons]

/-- Nothing is replaced where nothing is marked. -/
theorem blanked_eq_self {before w : List Char}
    (h : ∀ u c v, w = u ++ c :: v → marked (.after (before ++ u)) c = false) :
    blanked marked (.after before) w = w := by
  induction w generalizing before with
  | nil => rfl
  | cons c w ih =>
    have hc : marked (.after before) c = false := by simpa using h [] c w rfl
    rw [blanked, hc, ← Position.after_concat, ih]
    · rfl
    · intro u d v heq
      rw [List.append_assoc]
      exact h (c :: u) d v (by rw [heq, List.cons_append])

/-- A text without a space that begins the replaced characters begins the characters. -/
theorem prefix_of_prefix_blanked {p : Position} {w cs : List Char} (h : w <+: blanked marked p cs)
    (hspace : ' ' ∉ w) : w <+: cs := by
  induction cs generalizing p w with
  | nil => exact h
  | cons c cs ih =>
    cases w with
    | nil => exact List.nil_prefix
    | cons d w =>
      rw [blanked, List.cons_prefix_cons] at h
      rw [List.mem_cons, not_or] at hspace
      rw [List.cons_prefix_cons]
      refine ⟨?_, ih h.2 hspace.2⟩
      by_cases hc : marked p c = true
      · rw [if_pos hc] at h
        exact absurd h.1.symm hspace.1
      · rw [if_neg hc] at h
        exact h.1

theorem prefix_of_prefix_append_blanked {p : Position} {w v cs : List Char}
    (h : w <+: v ++ blanked marked p cs) (hspace : ' ' ∉ w) : w <+: v ++ cs := by
  rcases List.prefix_or_prefix_of_prefix h (List.prefix_append v _) with hshort | ⟨x, rfl⟩
  · exact hshort.trans (List.prefix_append ..)
  · rw [List.prefix_append_right_inj] at h ⊢
    exact prefix_of_prefix_blanked h fun hmem => hspace (List.mem_append_right _ hmem)

theorem head?_of_head?_blanked {p : Position} {cs : List Char} {c : Char}
    (h : (blanked marked p cs).head? = some c) (hc : c ≠ ' ') : cs.head? = some c := by
  have hprefix : [c] <+: blanked marked p cs := List.singleton_prefix_iff_head?_eq_some.mpr h
  refine List.singleton_prefix_iff_head?_eq_some.mp (prefix_of_prefix_blanked hprefix ?_)
  simpa using hc.symm

/-! ### Lines -/

variable (hmarked : ∀ p c, marked p c = true → IsIllegal c)
include hmarked

theorem blanked_cons_of_space {c : Char} (hc : IsSpace c) (p : Position) (cs : List Char) :
    blanked marked p (c :: cs) = c :: blanked marked (p.past c) cs := by
  have hnot : ¬ marked p c = true := fun h => (hmarked p c h).1 hc
  rw [blanked, if_neg hnot]

theorem blanked_feed (p : Position) (cs : List Char) :
    blanked marked p ('\n' :: cs) = '\n' :: blanked marked (p.past '\n') cs :=
  blanked_cons_of_space hmarked (by simp [IsSpace]) p cs

omit hmarked in
/-- No line feed is put in the place of another character. -/
theorem blanked_cons_ne {c : Char} (hc : c ≠ '\n') (p : Position) (cs : List Char) :
    ∃ d, d ≠ '\n' ∧ blanked marked p (c :: cs) = d :: blanked marked (p.past c) cs := by
  refine ⟨_, ?_, rfl⟩
  split
  · decide
  · exact hc

theorem count_blanked (p : Position) (cs : List Char) : (blanked marked p cs).count '\n' = cs.count '\n' := by
  induction cs generalizing p with
  | nil => rfl
  | cons c cs ih =>
    by_cases hc : c = '\n'
    · subst hc
      rw [blanked_feed hmarked, List.count_cons_self, List.count_cons_self, ih]
    · obtain ⟨d, hd, heq⟩ := blanked_cons_ne hc p cs
      rw [heq, List.count_cons_of_ne hd, List.count_cons_of_ne hc, ih]

theorem takeWhile_blanked (p : Position) (cs : List Char) :
    (blanked marked p cs).takeWhile (· != '\n') = blanked marked p (cs.takeWhile (· != '\n')) := by
  induction cs generalizing p with
  | nil => rfl
  | cons c cs ih =>
    by_cases hc : c = '\n'
    · subst hc
      rw [blanked_feed hmarked]
      rfl
    · obtain ⟨d, hd, heq⟩ := blanked_cons_ne hc p cs
      rw [heq, List.takeWhile_cons_of_pos (by simpa using hd), List.takeWhile_cons_of_pos (by simpa using hc),
        ih]
      rw [blanked] at heq ⊢
      rw [(List.cons.inj heq).1]

/-- The last line is replaced as a line of its own. -/
theorem lastLine_blanked (cs : List Char) :
    lastLine (blanked marked (.after []) cs) = blanked marked ⟨cs.count '\n' + 1, 1⟩ (lastLine cs) := by
  induction cs using List.reverseRecOn with
  | nil => rfl
  | append_singleton cs c ih =>
    rw [blanked_after_append, List.nil_append]
    by_cases hc : c = '\n'
    · subst hc
      rw [blanked_feed hmarked, blanked, lastLine_concat_feed, lastLine_concat_feed]
      rfl
    · obtain ⟨d, hd, heq⟩ : ∃ d, d ≠ '\n' ∧ blanked marked (.after cs) [c] = [d] := blanked_cons_ne hc _ []
      have hcount : (cs ++ [c]).count '\n' = cs.count '\n' := by
        rw [List.count_append, List.count_singleton, if_neg (by simpa using hc), Nat.add_zero]
      rw [hcount, lastLine_concat hc, blanked_append, Position.foldl_past_lastLine, heq, lastLine_concat hd,
        ih]

/-- Replaced characters take as much room as the characters. -/
theorem after_blanked (cs : List Char) : Position.after (blanked marked (.after []) cs) = .after cs := by
  rw [Position.after, lastLine_blanked hmarked, length_blanked, count_blanked hmarked]
  rfl

/-! ### Texts -/

theorem dropReturns_blanked (p : Position) (cs : List Char) :
    dropReturns (blanked marked p cs) = blanked marked p (dropReturns cs) := by
  fun_induction dropReturns cs generalizing p with
  | case1 => rfl
  | case2 cs ih =>
    have hplace : (p.past '\r').past '\n' = p.past '\n' := rfl
    rw [blanked_cons_of_space hmarked (by simp [IsSpace]), blanked_feed hmarked, blanked_feed hmarked, hplace, ← ih]
    rfl
  | case3 c cs hpair ih =>
    by_cases hc : c = '\r'
    · -- what comes next is no line feed, and none is put there
      subst hc
      have hhead : (blanked marked (p.past '\r') cs).head? ≠ some '\n' := by
        intro hhead
        obtain ⟨ds, rfl⟩ := List.head?_eq_some_iff.mp (head?_of_head?_blanked hhead (by decide))
        exact hpair ds rfl rfl
      have hspace : IsSpace '\r' := by simp [IsSpace]
      rw [blanked_cons_of_space hmarked hspace, blanked_cons_of_space hmarked hspace,
        dropReturns_cons (.inr hhead), ih]
    · have hne : (if marked p c then ' ' else c) ≠ '\r' := by
        split
        · decide
        · exact hc
      rw [blanked, blanked, dropReturns_cons (.inl hne), ih]

theorem completeLines_blanked (p : Position) (cs : List Char) :
    CompleteLines (blanked marked p cs) ↔ CompleteLines cs := by
  induction cs using List.reverseRecOn generalizing p with
  | nil => rfl
  | append_singleton cs c _ =>
    rw [blanked_append]
    by_cases hc : c = '\n'
    · subst hc
      rw [blanked_feed hmarked]
      simp [CompleteLines, blanked]
    · obtain ⟨d, hd, heq⟩ : ∃ d, d ≠ '\n' ∧ blanked marked (cs.foldl Position.past p) [c] = [d] :=
        blanked_cons_ne hc _ []
      rw [heq]
      simp [CompleteLines, hc, hd]

/-- Characters of a text may be replaced before the carriage returns are dropped or after. -/
theorem canonical_blanked (p : Position) (text : List Char) :
    canonical (blanked marked p text) = blanked marked p (canonical text) := by
  rw [canonical_eq, canonical_eq, dropReturns_blanked hmarked, blanked_append]
  by_cases h : CompleteLines text
  · rw [if_pos h, if_pos ((completeLines_blanked hmarked p text).mpr h)]
    rfl
  · rw [if_neg h, if_neg (h ∘ (completeLines_blanked hmarked p text).mp), blanked_feed hmarked]
    rfl

end Blanks

/-! ## Segments -/

section Segments

variable {marked : Position → Char → Bool} {rest : List Char}

/-- Only literals hold spaces. -/
theorem Family.Has.space_not_mem {f : Family} {t : Token} {w : List Char} (h : f.Has t w)
    (hchar : f ≠ .char) (hstring : f ≠ .string) : ' ' ∉ w := by
  cases f with
  | word =>
    intro hmem
    exact absurd (h.1.all_part ' ' hmem) (by decide)
  | number =>
    intro hmem
    rcases h with ⟨hinteger, -⟩ | ⟨hdouble, -⟩
    · exact absurd (hinteger.2 ' ' hmem) (by decide)
    · exact absurd (hdouble.mem hmem) (by decide)
  | mark =>
    obtain ⟨m, rfl, -⟩ := h
    have hall : ∀ m ∈ Mark.all, ' ' ∉ m.text := by decide
    exact hall m m.mem_all
  | char => exact absurd rfl hchar
  | string => exact absurd rfl hstring

/-- What is the longest lexeme stays the longest when characters after it are replaced. -/
theorem Longest.blanked {t : Token} {w : List Char} (h : Longest t w (w ++ rest)) (p : Position) :
    Longest t w (w ++ MiniLex.blanked marked p rest) := by
  refine ⟨h.lexeme, List.prefix_append .., fun t' w' h' hw' => ?_⟩
  obtain ⟨c, ds, rfl, hc⟩ := h.lexeme.family
  have hfamily := h'.family_of_begins hw'
  cases hf : Family.of c with
  | word | number | mark =>
    rw [hf] at hfamily
    have hspace := hfamily.space_not_mem (by decide) (by decide)
    exact h.longest t' w' h' (prefix_of_prefix_append_blanked hw' hspace)
  | char =>
    -- a literal tells where it ends, whatever comes after it
    rw [hf] at hc
    obtain ⟨⟨unit, hunit, heq⟩, -⟩ := hc
    rw [heq] at hw' ⊢
    exact (longest_char hunit).longest t' w' h' hw'
  | string =>
    rw [hf] at hc
    obtain ⟨⟨body, hbody, heq⟩, -⟩ := hc
    rw [heq] at hw' ⊢
    exact (longest_string hbody).longest t' w' h' hw'

namespace Segment

/-- A blank in the place of an illegal character, and otherwise the segment. -/
def blanked : Segment → Segment
  | .illegal _ => .blank ' '
  | s => s

theorem token?_blanked (s : Segment) : s.blanked.token? = s.token? := by
  cases s <;> rfl

theorem illegal_or_ne (s : Segment) : (∃ c, s = .illegal c) ∨ ∀ c, s ≠ .illegal c := by
  cases s with
  | illegal c => exact .inl ⟨c, rfl⟩
  | blank _ | comment _ | token _ _ | lone _ | number _ | opener _ => exact .inr fun c => by simp

theorem blanked_of_ne {s : Segment} (hs : ∀ c, s ≠ .illegal c) : s.blanked = s := by
  cases s with
  | illegal c => exact absurd rfl (hs c)
  | blank _ | comment _ | token _ _ | lone _ | number _ | opener _ => rfl

/-- A segment that is not illegal is one whatever illegal characters after it are replaced. -/
theorem Fits.blanked (hmarked : ∀ p c, marked p c = true → IsIllegal c) {s : Segment} (h : s.Fits rest)
    (hs : ∀ c, s ≠ .illegal c) (p : Position) : s.Fits (MiniLex.blanked marked p rest) := by
  have hhead : ∀ c, c ≠ ' ' → (MiniLex.blanked marked p rest).head? = some c → rest.head? = some c :=
    fun c hc h => head?_of_head?_blanked h hc
  cases h with
  | blank space => exact .blank space
  | comment comment => exact .comment comment
  | token longest comment exponent =>
    refine .token (longest.blanked p) (fun hopens => comment ?_) fun hcut => exponent ⟨hcut.1, ?_⟩
    · exact hopens.imp (prefix_of_prefix_append_blanked · (by decide))
        (prefix_of_prefix_append_blanked · (by decide))
    · exact hcut.2.imp (hhead 'e' (by decide)) (hhead 'E' (by decide))
  | unclosed logical quote => exact .unclosed logical fun h => quote (hhead '\'' (by decide) h)
  | @illegal c _ illegal => exact absurd rfl (hs c)
  | @lone c _ half single =>
    have hc : c ≠ ' ' := by rcases half with rfl | rfl <;> decide
    exact .lone half fun h => single (hhead c hc h)
  | @number m e _ mantissa head digits sign =>
    -- a space is neither a digit nor a sign
    refine .number mantissa head (fun c hc => ?_) fun c hc => ?_
    · by_cases hspace : c = ' '
      · rw [hspace]
        decide
      · exact digits c (hhead c hspace hc)
    · by_cases hspace : c = ' '
      · subst hspace
        intro hcarried
        exact absurd (hcarried.mem (c := ' ') (by simp)) (by decide)
      · exact sign c (hhead c hspace hc)
  | opener opener feed =>
    obtain ⟨ds, rfl⟩ := List.head?_eq_some_iff.mp feed
    exact .opener opener (by rw [blanked_feed hmarked]; rfl)

end Segment

/-! ## Diagnostics -/

/-- The cause with another character for the one that was found. -/
def Cause.mapFound (f : Char → Char) : Cause → Cause
  | .expectedCharacter expected found => .expectedCharacter expected (found.map f)
  | .malformedExponent found => .malformedExponent (found.map f)
  | cause => cause

namespace Diagnostic

/-- The diagnostic with a space for each marked character that it names: the one that was found, and
those of the line. -/
def blanked (marked : Position → Char → Bool) (d : Diagnostic) : Diagnostic :=
  ⟨d.cause.mapFound fun c => if marked d.position c then ' ' else c, d.position,
    String.ofList (MiniLex.blanked marked ⟨d.position.line, 1⟩ d.sourceLine.toList)⟩

/-- Whether the diagnostic tells of an illegal character. -/
def isIllegal (d : Diagnostic) : Bool :=
  match d.cause with
  | .illegalCharacter _ => true
  | _ => false

/-- A diagnostic about replaced characters. -/
theorem between_blanked (hmarked : ∀ p c, marked p c = true → IsIllegal c) (before rest : List Char)
    (cause : Cause) :
    between (MiniLex.blanked marked (.after []) before) (MiniLex.blanked marked (.after before) rest)
        (cause.mapFound fun c => if marked (.after before) c then ' ' else c) =
      (between before rest cause).blanked marked := by
  have hplace := Position.foldl_past_lastLine before
  rw [between, between, blanked, after_blanked hmarked, lastLine_blanked hmarked, takeWhile_blanked hmarked,
    String.toList_ofList, ← hplace, ← blanked_append, hplace]
  rfl

end Diagnostic

namespace Segment

/-- A segment tells of an illegal character only if it is one. -/
theorem eq_illegal_of_reports {s : Segment} {before : List Char} {d : Diagnostic} {c : Char}
    (hd : d ∈ s.reports before rest) (hc : d.cause = .illegalCharacter c) :
    s = .illegal c ∧ d.position = .after before := by
  unfold reports at hd
  split at hd
  · cases hd
  rename_i n cause hfault
  obtain rfl := List.mem_singleton.mp hd
  obtain rfl : cause = .illegalCharacter c := hc
  rcases fault_cases hfault with ⟨ch, rfl, rfl, hch⟩ | ⟨-, ⟨expected, hcause⟩ | hcause⟩
  · obtain rfl := Cause.illegalCharacter.inj hch
    exact ⟨rfl, by simp [Diagnostic.between]⟩
  · cases hcause
  · cases hcause

theorem fault_blanked {s : Segment} (hs : ∀ c, s ≠ .illegal c) (p : Position) :
    s.fault (MiniLex.blanked marked p rest) =
      (s.fault rest).map fun f => (f.1, f.2.mapFound fun c => if marked p c then ' ' else c) := by
  cases s with
  | illegal c => exact absurd rfl (hs c)
  | token t text =>
    simp only [fault]
    split
    · rfl
    · rw [head?_blanked]
      rfl
  | blank _ | comment _ => rfl
  | lone _ | number _ | opener _ =>
    simp only [fault, head?_blanked]
    rfl

/-- What is reported of a segment when illegal characters are replaced, of which it may be one. -/
theorem reports_blanked (hmarked : ∀ p c, marked p c = true → IsIllegal c) {s : Segment}
    {before : List Char} (hs : MiniLex.blanked marked (.after before) s.text = s.blanked.text) :
    s.blanked.reports (MiniLex.blanked marked (.after []) before)
        (MiniLex.blanked marked (.after (before ++ s.text)) rest) =
      ((s.reports before rest).filter fun d => !d.isIllegal).map (Diagnostic.blanked marked) := by
  rcases s.illegal_or_ne with ⟨c, rfl⟩ | hne
  · rfl
  rw [blanked_of_ne hne] at hs ⊢
  simp only [reports, fault_blanked hne]
  cases hfault : s.fault rest with
  | none => rfl
  | some f =>
    obtain ⟨n, cause⟩ := f
    rcases fault_cases hfault with ⟨c, hc, -, -⟩ | ⟨rfl, hcause⟩
    · exact absurd hc (hne c)
    have hlegal : (Diagnostic.between (before ++ s.text) rest cause).isIllegal = false := by
      rcases hcause with ⟨expected, rfl⟩ | rfl <;> rfl
    have hbetween := Diagnostic.between_blanked hmarked (before ++ s.text) rest cause
    rw [blanked_after_append, List.nil_append, hs] at hbetween
    simp [hlegal, hbetween]

end Segment

/-! ## Segments that are marked -/

/-- Of the segments that come after `before` and up to `tail`, exactly the illegal ones are marked. -/
inductive Marked (marked : Position → Char → Bool) (tail : List Char) : List Char → List Segment → Prop where
  | nil {before : List Char} (unmarked : blanked marked (.after before) tail = tail) :
      Marked marked tail before []
  | cons {before : List Char} {s : Segment} {segs : List Segment}
      (text : blanked marked (.after before) s.text = s.blanked.text)
      (later : Marked marked tail (before ++ s.text) segs) : Marked marked tail before (s :: segs)

/-- If exactly the illegal segments are marked, the replaced characters are made up of the others and of
blanks, and what is reported of them is all that tells of no illegal character. -/
theorem TilesTo.blanked (hmarked : ∀ p c, marked p c = true → IsIllegal c) {tail cs before : List Char}
    {segs : List Segment} (h : TilesTo tail segs cs) (hsegs : Marked marked tail before segs) :
    TilesTo tail (segs.map Segment.blanked) (MiniLex.blanked marked (.after before) cs) ∧
      reportsTo tail (MiniLex.blanked marked (.after []) before) (segs.map Segment.blanked) =
        ((reportsTo tail before segs).filter fun d => !d.isIllegal).map (Diagnostic.blanked marked) := by
  induction h generalizing before with
  | nil =>
    cases hsegs with
    | nil unmarked =>
      rw [unmarked]
      exact ⟨.nil, rfl⟩
  | @cons s segs cs fits tiles ih =>
    cases hsegs with
    | cons text later =>
      obtain ⟨htiles, hreports⟩ := ih later
      have hbefore : MiniLex.blanked marked (.after []) (before ++ s.text) =
          MiniLex.blanked marked (.after []) before ++ s.blanked.text := by
        rw [blanked_after_append, List.nil_append, text]
      have hfits : s.blanked.Fits (MiniLex.blanked marked (.after (before ++ s.text)) cs) := by
        rcases s.illegal_or_ne with ⟨c, rfl⟩ | hne
        · exact .blank (.inl rfl)
        · rw [Segment.blanked_of_ne hne]
          exact fits.blanked hmarked hne _
      constructor
      · rw [blanked_after_append, text]
        exact .cons hfits htiles
      · rw [List.map_cons, reportsTo, reportsTo, htiles.flatMap_text_append, tiles.flatMap_text_append,
          Segment.reports_blanked hmarked text, ← hbefore, hreports, List.filter_append, List.map_append]

end Segments

/-! ## Characters that are reported -/

/-- Whether the diagnostics tell that the character at a place is illegal. -/
def illegalAt (ds : List Diagnostic) (p : Position) (c : Char) : Bool :=
  ds.any fun d => d.position = p ∧ d.cause = .illegalCharacter c

theorem illegalAt_iff {ds : List Diagnostic} {p : Position} {c : Char} :
    illegalAt ds p c = true ↔ ∃ d ∈ ds, d.position = p ∧ d.cause = .illegalCharacter c := by
  simp [illegalAt]

section Reported

variable {tail cs before : List Char} {segs : List Segment}

/-- What segments report as illegal is illegal. -/
theorem TilesTo.isIllegal (h : TilesTo tail segs cs) {d : Diagnostic} {c : Char}
    (hd : d ∈ reportsTo tail before segs) (hc : d.cause = .illegalCharacter c) : IsIllegal c := by
  induction h generalizing before with
  | nil => cases hd
  | @cons s segs cs fits tiles ih =>
    rw [reportsTo, List.mem_append] at hd
    rcases hd with hd | hd
    · obtain ⟨rfl, -⟩ := Segment.eq_illegal_of_reports hd hc
      cases fits with
      | illegal illegal => exact illegal
    · exact ih hd

/-- The characters that are told to be illegal are located before what comes after `before`. -/
def ToldBehind (first : List Diagnostic) (before : List Char) : Prop :=
  ∀ d ∈ first, ∀ c, d.cause = .illegalCharacter c → d.position.key < (Position.after before).key

variable {first later : List Diagnostic}

/-- No character further on is at the place of one that was told of further back. -/
theorem ToldBehind.not_met (h : ToldBehind first before) {d : Diagnostic} (hd : d ∈ first)
    (u : List Char) (c : Char) : ¬ (d.position = .after (before ++ u) ∧ d.cause = .illegalCharacter c) := by
  rintro ⟨hplace, hc⟩
  have hlt := (h d hd c hc).trans_le (Position.key_after_le before u)
  exact hlt.ne (congrArg Position.key hplace)

/-- After a segment, what was reported of it is behind, too. -/
theorem ToldBehind.append_reports (h : ToldBehind first before) {s : Segment} (hs : s.text ≠ [])
    (rest : List Char) : ToldBehind (first ++ s.reports before rest) (before ++ s.text) := by
  intro d hd c hc
  have hbehind := Position.key_after_lt hs before
  rcases List.mem_append.mp hd with hd | hd
  · exact (h d hd c hc).trans hbehind
  · rwa [(Segment.eq_illegal_of_reports hd hc).2]

/-- What is reported of a segment marks its character if it is illegal, and nothing within it otherwise;
nor does anything that was reported before or is reported later. -/
theorem ToldBehind.blanked_text (h : ToldBehind first before) {rest : List Char} (s : Segment)
    (hlater : ∀ d ∈ later, d.Ahead (before ++ s.text) rest) :
    MiniLex.blanked (illegalAt (first ++ (s.reports before rest ++ later))) (.after before) s.text =
      s.blanked.text := by
  rcases s.illegal_or_ne with ⟨c, rfl⟩ | hne
  · -- the character of the segment is reported
    have hmarked : illegalAt (first ++ ((Segment.illegal c).reports before rest ++ later)) (.after before) c =
        true := by
      refine illegalAt_iff.mpr ⟨_, List.mem_append_right _ (List.mem_append_left _ (List.mem_singleton_self _)), ?_⟩
      simp [Diagnostic.between]
    show MiniLex.blanked _ _ [c] = [' ']
    rw [MiniLex.blanked, if_pos hmarked]
    rfl
  · -- nothing within the segment is reported as illegal
    rw [Segment.blanked_of_ne hne]
    refine blanked_eq_self fun u c v heq => Bool.eq_false_iff.mpr fun hmarked => ?_
    obtain ⟨d, hd, hplace, hc⟩ := illegalAt_iff.mp hmarked
    rcases List.mem_append.mp hd with hd | hd
    · exact h.not_met hd u c ⟨hplace, hc⟩
    rcases List.mem_append.mp hd with hd | hd
    · exact hne c (Segment.eq_illegal_of_reports hd hc).1
    · have hahead := (hlater d hd).key_le
      have hwithin := Position.key_after_lt (List.cons_ne_nil c v) (before ++ u)
      rw [hplace] at hahead
      rw [List.append_assoc, ← heq] at hwithin
      exact hahead.not_gt hwithin

/-- What segments report marks exactly the illegal ones, also together with what was reported further
back. -/
theorem TilesTo.marked (h : TilesTo tail segs cs) (hfirst : ToldBehind first before) :
    Marked (illegalAt (first ++ reportsTo tail before segs)) tail before segs := by
  induction h generalizing before first with
  | nil =>
    refine .nil (blanked_eq_self fun u c v _ => Bool.eq_false_iff.mpr fun hmarked => ?_)
    obtain ⟨d, hd, hdc⟩ := illegalAt_iff.mp hmarked
    rw [reportsTo, List.append_nil] at hd
    exact hfirst.not_met hd u c hdc
  | @cons s segs cs fits tiles ih =>
    have hlater := ih (hfirst.append_reports fits.text_ne_nil (segs.flatMap Segment.text ++ tail))
    rw [List.append_assoc] at hlater
    exact .cons (hfirst.blanked_text s (tiles.flatMap_text_append ▸ tiles.ahead _)) hlater

end Reported

/-! ## Texts -/

/-- If each character of a text that is reported as illegal is replaced by a space, the text is scanned to
the same tokens, or it fails in the same way. What is reported then are the other diagnostics of the text,
at the same places and with the same causes; only where they name a character that is replaced, they name
the space. -/
theorem tokenize_blanked (text : List Char) :
    let r := tokenize text
    let marked := illegalAt r.reported
    tokenize (blanked marked ⟨1, 1⟩ text) =
      ⟨r.result, (r.reported.filter fun d => !d.isIllegal).map (Diagnostic.blanked marked)⟩ := by
  intro r marked
  obtain ⟨segs, tail, htiles, htail⟩ := exists_tilesTo text
  have hr : r = _ := tokenize_of_tilesTo htiles htail
  have hreported : r.reported = reportsTo tail [] segs := by
    rw [hr]
    exact List.append_nil _
  have hmarked : ∀ p c, marked p c = true → IsIllegal c := by
    intro p c hpc
    obtain ⟨d, hd, -, hc⟩ := illegalAt_iff.mp hpc
    rw [hreported] at hd
    exact htiles.isIllegal hd hc
  have hsegs : Marked marked tail [] segs := by
    have hnothing : ToldBehind [] [] := fun d hd => absurd hd List.not_mem_nil
    have hsegs := htiles.marked hnothing
    rwa [List.nil_append, ← hreported] at hsegs
  obtain ⟨htiles', hreports⟩ := htiles.blanked hmarked hsegs
  have hcanonical := canonical_blanked hmarked (.after []) text
  rw [← hcanonical] at htiles'
  have hcount := count_blanked hmarked (.after []) (canonical text)
  rw [← hcanonical] at hcount
  have htokens : (segs.map Segment.blanked).filterMap Segment.token? = segs.filterMap Segment.token? := by
    rw [List.filterMap_map]
    exact List.filterMap_congr fun s _ => s.token?_blanked
  show tokenize (blanked marked (.after []) text) = _
  rw [tokenize_of_tilesTo htiles' htail, htokens, hcount, hreported, ← hreports, hr]
  exact congrArg (Tokenized.mk _) (List.append_nil _)

/-- Two characters are reported, one of them after an exponent without digits; the one within the literal is
not. -/
example :
    let text := "1.e#$\r\n\"#\"".toList
    blanked (illegalAt (tokenize text).reported) ⟨1, 1⟩ text = "1.e  \r\n\"#\"".toList := by
  decide +kernel

end MiniLex
