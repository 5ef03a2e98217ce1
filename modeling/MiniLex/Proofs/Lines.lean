import MiniLex.Proofs.Segment
import MiniLex.Proofs.Utf8
import MiniLex.Source.Reads

/-!
# Lines and line feeds

A source is read by lines, and a line that was read holds no line feed. The line feeds in what the
source delivers are those that end its lines, so that they tell which line a character is on.

- `Feedless`: no line of the reads holds a line feed. It holds of all reads of bytes and of texts
  (`feedless_ofEvents`, `feedless_ofText`).
- `delivered`: all characters that line reads deliver; `canonical`: those of a text.
- `getElem?_texts`: the line that a character which was delivered is on.
- `CompleteLines`: a text that is empty or ends in a line feed; `lineCount`: the number of lines.
- `canonical_eq`: the characters of a text, without the carriage returns before line feeds.
-/

namespace MiniLex

/-! ## Complete lines -/

/-- Lines cut at each `feed`: none is lost, and each complete line has its feed at the end only. -/
theorem splitLines_spec {α : Type} [DecidableEq α] (feed : α) (as : List α) :
    (splitLines feed as).1.flatten ++ (splitLines feed as).2 = as ∧ feed ∉ (splitLines feed as).2 ∧
      ∀ line ∈ (splitLines feed as).1, ∃ body, feed ∉ body ∧ line = body ++ [feed] := by
  induction as with
  | nil => simp [splitLines]
  | cons a as ih =>
    obtain ⟨hflatten, hlast, hlines⟩ := ih
    simp only [splitLines]
    split
    · -- a feed ends a line of its own
      rename_i ha
      refine ⟨by simp [hflatten], hlast, ?_⟩
      rintro line (_ | ⟨_, hline⟩)
      · exact ⟨[], by simp, by simp [ha]⟩
      · exact hlines line hline
    · rename_i ha
      split
      · -- no line is complete: the element is one more of the open line
        rename_i hnil
        rw [hnil] at hflatten
        refine ⟨by simpa using hflatten, ?_, by simp⟩
        rw [List.mem_cons, not_or]
        exact ⟨Ne.symm ha, hlast⟩
      · -- the element is one more of the first complete line
        rename_i line lines hcons
        rw [hcons] at hflatten hlines
        refine ⟨by simpa using hflatten, hlast, ?_⟩
        rintro line' (_ | ⟨_, hline'⟩)
        · obtain ⟨body, hbody, rfl⟩ := hlines line (List.mem_cons_self ..)
          refine ⟨a :: body, ?_, rfl⟩
          rw [List.mem_cons, not_or]
          exact ⟨Ne.symm ha, hbody⟩
        · exact hlines line' (List.mem_cons_of_mem _ hline')

/-- Each feed completes one line. -/
theorem length_splitLines {α : Type} [DecidableEq α] (feed : α) (as : List α) :
    (splitLines feed as).1.length = as.count feed := by
  induction as with
  | nil => rfl
  | cons a as ih =>
    simp only [splitLines]
    split
    · rename_i ha
      rw [ha, List.count_cons_self, ← ih, List.length_cons]
    · rename_i ha
      rw [List.count_cons_of_ne ha, ← ih]
      split
      · rename_i hnil
        rw [hnil]
      · rename_i hcons
        rw [hcons, List.length_cons, List.length_cons]

/-- Lines are cut in a sequence as in its two parts, if what is left over of the first goes before
the second. -/
theorem splitLines_append {α : Type} [DecidableEq α] (feed : α) (as bs : List α) :
    splitLines feed (as ++ bs) =
      ((splitLines feed as).1 ++ (splitLines feed ((splitLines feed as).2 ++ bs)).1,
        (splitLines feed ((splitLines feed as).2 ++ bs)).2) := by
  induction as with
  | nil => rfl
  | cons a as ih =>
    simp only [List.cons_append, splitLines, ih]
    by_cases ha : a = feed
    · simp only [if_pos ha, List.cons_append]
    · simp only [if_neg ha]
      cases (splitLines feed as).1 with
      | nil => simp only [List.nil_append, List.cons_append, splitLines, if_neg ha]
      | cons line lines => rfl

theorem splitLines_of_not_mem {α : Type} [DecidableEq α] {feed : α} {as : List α} (h : feed ∉ as) :
    splitLines feed as = ([], as) := by
  induction as with
  | nil => rfl
  | cons a as ih =>
    rw [List.mem_cons, not_or] at h
    simp only [splitLines, ih h.2, if_neg (Ne.symm h.1)]

theorem splitLines_line {α : Type} [DecidableEq α] {feed : α} {body : List α} (h : feed ∉ body)
    (as : List α) :
    splitLines feed (body ++ feed :: as) =
      ((body ++ [feed]) :: (splitLines feed as).1, (splitLines feed as).2) := by
  induction body with
  | nil => simp only [List.nil_append, splitLines, if_true]
  | cons a body ih =>
    rw [List.mem_cons, not_or] at h
    simp only [List.cons_append, splitLines, ih h.2, if_neg (Ne.symm h.1)]

theorem flatten_line_append {α : Type} (feed : α) (body : List α) (lines : List (List α)) (last : List α) :
    ((body ++ [feed]) :: lines).flatten ++ last = body ++ feed :: (lines.flatten ++ last) := by
  simp

/-- Lines that are put together are cut where they were put together. -/
theorem splitLines_flatten {α : Type} [DecidableEq α] {feed : α} {lines : List (List α)} {last : List α}
    (hlines : ∀ line ∈ lines, ∃ body, feed ∉ body ∧ line = body ++ [feed]) (hlast : feed ∉ last) :
    splitLines feed (lines.flatten ++ last) = (lines, last) := by
  induction lines with
  | nil => exact splitLines_of_not_mem hlast
  | cons line lines ih =>
    obtain ⟨body, hbody, rfl⟩ := hlines line (List.mem_cons_self ..)
    have htail := ih fun line hline => hlines line (List.mem_cons_of_mem _ hline)
    rw [flatten_line_append, splitLines_line hbody, htail]

theorem lineText_of_feedless {cs : List Char} (h : '\n' ∉ cs) : lineText cs = cs := by
  fun_induction lineText cs with
  | case1 => rfl
  | case2 => simp at h
  | case3 => simp at h
  | case4 c cs _ _ ih =>
    rw [List.mem_cons, not_or] at h
    rw [ih h.2]

theorem lineText_cons {c : Char} {cs : List Char} (hreturn : ¬ (c = '\r' ∧ cs = [])) :
    lineText (c :: (cs ++ ['\n'])) = c :: lineText (cs ++ ['\n']) := by
  refine lineText.eq_4 c _ (by simp) fun hc hcs => hreturn ⟨hc, ?_⟩
  simpa using hcs

theorem feed_not_mem_lineText {cs : List Char} (h : '\n' ∉ cs) : '\n' ∉ lineText (cs ++ ['\n']) := by
  induction cs with
  | nil => simp [lineText]
  | cons c cs ih =>
    rw [List.mem_cons, not_or] at h
    by_cases hreturn : c = '\r' ∧ cs = []
    · obtain ⟨rfl, rfl⟩ := hreturn
      simp [lineText]
    · rw [List.cons_append, lineText_cons hreturn, List.mem_cons, not_or]
      exact ⟨h.1, ih h.2⟩

/-! ## Line reads without line feeds -/

/-- No line of the reads holds a line feed. -/
def Feedless (reads : List LineRead) : Prop :=
  ∀ text, .line text ∈ reads → '\n' ∉ text

/-- No read of the reads fails. -/
def Unfailing (reads : List LineRead) : Prop :=
  ∀ message, .failed message ∉ reads

namespace LineRead

theorem feedless_ofBytes {bytes body : List UInt8} (hbody : 0x0A ∉ body)
    (h : bytes = body ∨ bytes = body ++ [0x0A]) : Feedless [ofBytes bytes] := by
  intro text htext
  obtain rfl : text = lineText (Utf8.decode bytes) := by simpa [ofBytes] using htext
  rcases h with rfl | rfl
  · have hfeed := Utf8.feed_not_mem_decodeFrom Utf8.sound_none hbody
    rw [Utf8.decode, lineText_of_feedless hfeed]
    exact hfeed
  · obtain ⟨cs, hcs, heq⟩ := Utf8.decodeFrom_line Utf8.sound_none hbody
    rw [Utf8.decode, heq]
    exact feed_not_mem_lineText hcs

theorem feedless_ofHeld {held : List UInt8} (hheld : 0x0A ∉ held) (events : List ReadEvent) :
    Feedless (ofHeld held events) := by
  -- what is held back after each event has no line feed either
  induction events generalizing held with
  | nil =>
    intro text htext
    by_cases hnil : held = []
    · simp [ofHeld, hnil] at htext
    · rw [ofHeld, if_neg hnil] at htext
      exact feedless_ofBytes hheld (.inl rfl) text htext
  | cons event events ih =>
    cases event with
    | chunk bytes =>
      obtain ⟨-, hlast, hlines⟩ := splitLines_spec 0x0A (held ++ bytes)
      intro text htext
      rw [ofHeld, List.mem_append] at htext
      rcases htext with htext | htext
      · obtain ⟨line, hline, heq⟩ := List.mem_map.mp htext
        obtain ⟨body, hbody, rfl⟩ := hlines line hline
        exact feedless_ofBytes hbody (.inr rfl) text (List.mem_singleton.mpr heq.symm)
      · exact ih hlast text htext
    | interrupted => exact ih hheld
    | failed message =>
      intro text htext
      rw [ofHeld, List.mem_cons] at htext
      rcases htext with htext | htext
      · cases htext
      · exact ih List.not_mem_nil text htext
    | ended =>
      intro text htext
      by_cases hnil : held = []
      · simp [ofHeld, hnil] at htext
      · rw [ofHeld, if_neg hnil, List.mem_cons] at htext
        rcases htext with htext | htext
        · exact feedless_ofBytes hheld (.inl rfl) text (List.mem_singleton.mpr htext)
        · exact ih List.not_mem_nil text htext

theorem feedless_ofEvents (events : List ReadEvent) : Feedless (ofEvents events) :=
  feedless_ofHeld List.not_mem_nil events

theorem feedless_ofText (text : List Char) : Feedless (ofText text) := by
  obtain ⟨-, hlast, hlines⟩ := splitLines_spec '\n' text
  intro line hline
  rw [ofText, List.mem_append] at hline
  rcases hline with hline | hline
  · obtain ⟨cs, hcs, heq⟩ := List.mem_map.mp hline
    obtain ⟨body, hbody, rfl⟩ := hlines cs hcs
    rw [← LineRead.line.inj heq]
    exact feed_not_mem_lineText hbody
  · split at hline
    · cases hline
    · rw [List.mem_singleton, LineRead.line.injEq, lineText_of_feedless hlast] at hline
      rw [hline]
      exact hlast

theorem unfailing_ofText (text : List Char) : Unfailing (ofText text) := by
  intro message h
  rw [ofText, List.mem_append] at h
  rcases h with h | h
  · obtain ⟨cs, -, heq⟩ := List.mem_map.mp h
    cases heq
  · split at h
    · cases h
    · rw [List.mem_singleton] at h
      cases h

/-- The text of the line, if one was read. -/
def text? : LineRead → Option (List Char)
  | .line text => some text
  | .failed _ => none

end LineRead

/-- The texts of the lines that were read. -/
def texts (reads : List LineRead) : List (List Char) :=
  reads.filterMap LineRead.text?

/-- All characters that line reads deliver. -/
def delivered (reads : List LineRead) : List Char :=
  reads.flatMap LineRead.stream

/-- The characters of a text as they are scanned: the text of each line, and one line feed after
it. -/
def canonical (text : List Char) : List Char :=
  delivered (LineRead.ofText text)

/-! ## The line of a character -/

theorem feed_not_mem_lastLine (cs : List Char) : '\n' ∉ lastLine cs := by
  intro hmem
  have hne := List.mem_rtakeWhile_imp hmem
  simp at hne

theorem lastLine_concat {c : Char} (h : c ≠ '\n') (cs : List Char) :
    lastLine (cs ++ [c]) = lastLine cs ++ [c] :=
  List.rtakeWhile_concat_pos _ _ _ (by simpa using h)

theorem lastLine_concat_feed (cs : List Char) : lastLine (cs ++ ['\n']) = [] :=
  List.rtakeWhile_concat_neg _ _ _ (by simp)

theorem lastLine_append {ds : List Char} (h : '\n' ∉ ds) (cs : List Char) :
    lastLine (cs ++ ds) = lastLine cs ++ ds := by
  induction ds generalizing cs with
  | nil => simp
  | cons d ds ih =>
    rw [List.mem_cons, not_or] at h
    rw [List.append_cons, ih h.2, lastLine_concat (Ne.symm h.1), ← List.append_cons]

theorem lastLine_append_cons_feed (cs ds : List Char) :
    lastLine (cs ++ '\n' :: ds) = lastLine ds := by
  induction ds using List.reverseRecOn with
  | nil => exact lastLine_concat_feed cs
  | append_singleton ds d ih =>
    rw [← List.cons_append, ← List.append_assoc]
    by_cases hd : d = '\n'
    · subst hd
      rw [lastLine_concat_feed, lastLine_concat_feed]
    · rw [lastLine_concat hd, lastLine_concat hd, ih]

/-- The line feeds before a character tell which of the lines that were read it is on. -/
theorem getElem?_texts {reads : List LineRead} (hreads : Feedless reads) {before rest more : List Char}
    (hrest : '\n' ∉ rest) (h : delivered reads = before ++ rest ++ '\n' :: more) :
    (texts reads)[before.count '\n']? = some (lastLine before ++ rest) := by
  induction reads generalizing before with
  | nil => simp [delivered] at h
  | cons read reads ih =>
    have htail : Feedless reads := fun text htext => hreads text (List.mem_cons_of_mem _ htext)
    cases read with
    | failed message => exact ih htail (by simpa [delivered, LineRead.stream] using h)
    | line text =>
      have htext : '\n' ∉ text := hreads text (List.mem_cons_self ..)
      have h : text ++ '\n' :: delivered reads = before ++ rest ++ '\n' :: more := by
        simpa [delivered, LineRead.stream] using h
      by_cases hmem : '\n' ∈ before
      · -- the first line of the reads is the first line of `before`
        obtain ⟨first, before', rfl, hfirst⟩ := List.eq_append_cons_of_mem hmem
        have h : text ++ '\n' :: delivered reads = first ++ '\n' :: (before' ++ rest ++ '\n' :: more) := by
          simpa using h
        obtain ⟨-, htail'⟩ := append_inj_of_stops (bne_of_not_mem htext) (bne_of_not_mem hfirst)
          (by simp) (by simp) h
        have hcount : (first ++ '\n' :: before').count '\n' = before'.count '\n' + 1 := by
          rw [List.count_append, List.count_eq_zero.mpr hfirst, List.count_cons_self, Nat.zero_add]
        rw [hcount, lastLine_append_cons_feed]
        exact ih htail (List.cons.inj htail').2
      · have hline : '\n' ∉ before ++ rest := by
          rw [List.mem_append, not_or]
          exact ⟨hmem, hrest⟩
        obtain ⟨rfl, -⟩ := append_inj_of_stops (bne_of_not_mem htext) (bne_of_not_mem hline)
          (by simp) (by simp) h
        have hlast := lastLine_append hmem []
        rw [List.nil_append] at hlast
        rw [List.count_eq_zero.mpr hmem, hlast]
        rfl

theorem length_texts_eq_count {reads : List LineRead} (hreads : Feedless reads) :
    (texts reads).length = (delivered reads).count '\n' := by
  induction reads with
  | nil => rfl
  | cons read reads ih =>
    have htail : Feedless reads := fun text htext => hreads text (List.mem_cons_of_mem _ htext)
    cases read with
    | failed message => exact ih htail
    | line text =>
      have htext : '\n' ∉ text := hreads text (List.mem_cons_self ..)
      have hcount : (delivered (.line text :: reads)).count '\n' = (delivered reads).count '\n' + 1 := by
        simp [delivered, LineRead.stream, List.count_append, List.count_eq_zero.mpr htext]
      rw [hcount, ← ih htail]
      rfl

/-! ## Complete lines -/

/-- A text that is empty or ends in a line feed. -/
def CompleteLines (cs : List Char) : Prop :=
  cs = [] ∨ cs.getLast? = some '\n'

instance (cs : List Char) : Decidable (CompleteLines cs) :=
  inferInstanceAs (Decidable (_ ∨ _))

namespace CompleteLines

variable {cs ds : List Char}

theorem feed_mem (h : CompleteLines cs) (hne : cs ≠ []) : '\n' ∈ cs :=
  List.mem_of_getLast? (h.resolve_left hne)

theorem append (h : CompleteLines cs) (h' : CompleteLines ds) : CompleteLines (cs ++ ds) := by
  rcases h' with rfl | hlast
  · rwa [List.append_nil]
  · right
    rw [List.getLast?_append, hlast]
    rfl

theorem of_append (h : CompleteLines (cs ++ ds)) : CompleteLines ds := by
  by_cases hds : ds = []
  · exact .inl hds
  · right
    have hlast := h.resolve_left (by simp [hds])
    rwa [List.getLast?_append_of_ne_nil _ hds] at hlast

/-- What comes after complete lines begins a line of its own. -/
theorem lastLine_append (h : CompleteLines cs) (ds : List Char) : lastLine (cs ++ ds) = lastLine ds := by
  rcases h with rfl | hlast
  · rfl
  · obtain ⟨body, rfl⟩ := List.getLast?_eq_some_iff.mp hlast
    rw [List.append_assoc]
    exact lastLine_append_cons_feed body ds

/-- Only complete lines leave nothing over when they are cut. -/
theorem iff_splitLines : CompleteLines cs ↔ (splitLines '\n' cs).2 = [] := by
  obtain ⟨hflatten, hlast, hlines⟩ := splitLines_spec '\n' cs
  constructor
  · intro h
    rw [← hflatten] at h
    by_contra hne
    exact hlast (h.of_append.feed_mem hne)
  · intro hnil
    rw [hnil, List.append_nil] at hflatten
    rw [← hflatten]
    clear hflatten hnil hlast
    generalize (splitLines '\n' cs).1 = lines at hlines
    induction lines with
    | nil => exact .inl rfl
    | cons line lines ih =>
      obtain ⟨body, -, rfl⟩ := hlines line (List.mem_cons_self ..)
      have hline : CompleteLines (body ++ ['\n']) := .inr (by simp)
      exact hline.append (ih fun line hline => hlines line (List.mem_cons_of_mem _ hline))

end CompleteLines

theorem completeLines_delivered (reads : List LineRead) : CompleteLines (delivered reads) := by
  induction reads with
  | nil => exact .inl rfl
  | cons read reads ih =>
    cases read with
    | failed message => exact ih
    | line text =>
      have hline : CompleteLines (text ++ ['\n']) := .inr (by simp)
      exact hline.append ih

/-- What is left of the characters that reads deliver holds the line feed that ends them. -/
theorem feed_mem_of_delivered {reads : List LineRead} {before rest : List Char}
    (h : delivered reads = before ++ rest) (hne : rest ≠ []) : '\n' ∈ rest := by
  have hlines := completeLines_delivered reads
  rw [h] at hlines
  exact hlines.of_append.feed_mem hne

/-- The number of lines of a text. What comes after the last line feed is a line too, if there is
anything. -/
def lineCount (text : List Char) : Nat :=
  text.count '\n' + if CompleteLines text then 0 else 1

/-- A text is scanned with one line feed for each of its lines. -/
theorem count_canonical (text : List Char) : (canonical text).count '\n' = lineCount text := by
  have hcount := length_splitLines '\n' text
  rw [canonical, ← length_texts_eq_count (LineRead.feedless_ofText text), lineCount, ← hcount]
  by_cases h : CompleteLines text
  · simp [texts, LineRead.ofText, CompleteLines.iff_splitLines.mp h, h, List.filterMap_map,
      Function.comp_def, LineRead.text?]
  · have hlast : (splitLines '\n' text).2 ≠ [] := fun hnil => h (CompleteLines.iff_splitLines.mpr hnil)
    simp [texts, LineRead.ofText, hlast, h, List.filterMap_map, Function.comp_def, LineRead.text?]

/-- Complete lines are read on their own, whatever comes after them. -/
theorem LineRead.ofText_append {p : List Char} (hp : CompleteLines p) (s : List Char) :
    ofText (p ++ s) = ofText p ++ ofText s := by
  simp only [ofText, splitLines_append '\n' p s, CompleteLines.iff_splitLines.mp hp, List.nil_append,
    List.map_append, List.append_assoc, if_true]

theorem canonical_append {p : List Char} (hp : CompleteLines p) (s : List Char) :
    canonical (p ++ s) = canonical p ++ canonical s := by
  rw [canonical, LineRead.ofText_append hp, delivered, List.flatMap_append]
  rfl

/-! ## The characters of a text -/

/-- The text without the carriage returns that stand directly before a line feed. -/
def dropReturns : List Char → List Char
  | [] => []
  | '\r' :: '\n' :: cs => '\n' :: dropReturns cs
  | c :: cs => c :: dropReturns cs

theorem dropReturns_of_feedless {cs : List Char} (h : '\n' ∉ cs) : dropReturns cs = cs := by
  fun_induction dropReturns cs with
  | case1 => rfl
  | case2 => simp at h
  | case3 c cs _ ih =>
    rw [List.mem_cons, not_or] at h
    rw [ih h.2]

theorem dropReturns_cons {c : Char} {cs : List Char} (h : c ≠ '\r' ∨ cs.head? ≠ some '\n') :
    dropReturns (c :: cs) = c :: dropReturns cs := by
  refine dropReturns.eq_3 c cs ?_
  rintro ds rfl rfl
  simp at h

theorem dropReturns_line {cs : List Char} (h : '\n' ∉ cs) (ds : List Char) :
    dropReturns (cs ++ '\n' :: ds) = lineText (cs ++ ['\n']) ++ '\n' :: dropReturns ds := by
  induction cs with
  | nil => simp [lineText, dropReturns_cons]
  | cons c cs ih =>
    rw [List.mem_cons, not_or] at h
    by_cases hreturn : c = '\r' ∧ cs = []
    · obtain ⟨rfl, rfl⟩ := hreturn
      simp [lineText, dropReturns]
    · -- a line feed comes next only if nothing of the line is left
      have hkeep : c ≠ '\r' ∨ (cs ++ '\n' :: ds).head? ≠ some '\n' := by
        by_contra hcon
        rw [not_or, not_not, not_not] at hcon
        refine hreturn ⟨hcon.1, ?_⟩
        cases cs with
        | nil => rfl
        | cons d cs =>
          obtain rfl : d = '\n' := by simpa using hcon.2
          exact absurd (List.mem_cons_self ..) h.2
      rw [List.cons_append, List.cons_append, dropReturns_cons hkeep, lineText_cons hreturn, ih h.2,
        List.cons_append]

/-- What complete lines deliver is their text without the carriage returns before line feeds. -/
theorem delivered_lines {lines : List (List Char)} (last : List Char)
    (hlines : ∀ line ∈ lines, ∃ body, '\n' ∉ body ∧ line = body ++ ['\n']) :
    delivered (lines.map fun line => .line (lineText line)) ++ dropReturns last =
      dropReturns (lines.flatten ++ last) := by
  induction lines with
  | nil => rfl
  | cons line lines ih =>
    obtain ⟨body, hbody, rfl⟩ := hlines line (List.mem_cons_self ..)
    have htail := ih fun line hline => hlines line (List.mem_cons_of_mem _ hline)
    rw [flatten_line_append, dropReturns_line hbody, ← htail]
    simp [delivered, LineRead.stream]

/-- The characters of a text are those that the carriage returns before line feeds leave, with one
line feed more where the last line has none. -/
theorem canonical_eq (text : List Char) :
    canonical text = dropReturns text ++ if CompleteLines text then [] else ['\n'] := by
  obtain ⟨hflatten, hlast, hlines⟩ := splitLines_spec '\n' text
  have hdrop := delivered_lines (splitLines '\n' text).2 hlines
  rw [hflatten, dropReturns_of_feedless hlast] at hdrop
  rw [← hdrop, canonical, LineRead.ofText]
  by_cases h : CompleteLines text
  · rw [if_pos h]
    simp [CompleteLines.iff_splitLines.mp h]
  · have hnil : (splitLines '\n' text).2 ≠ [] := fun hnil => h (CompleteLines.iff_splitLines.mpr hnil)
    rw [if_neg h]
    simp [hnil, delivered, LineRead.stream, lineText_of_feedless hlast]

theorem canonical_cases (text : List Char) :
    canonical text = dropReturns text ∨ canonical text = dropReturns text ++ ['\n'] := by
  rw [canonical_eq]
  split
  · left
    rw [List.append_nil]
  · exact .inr rfl

end MiniLex
