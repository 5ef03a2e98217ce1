import MiniLex.Proofs.Bytes
import MiniLex.Proofs.LineLooks

/-!
# Reads that fail between lines

If no string literal and no block comment goes beyond its line, then a read that fails between two lines
makes one call fail and changes nothing else.

- `LinesYield before reads ys`: what lines yield that are scanned one by one, with failures between
  them.
- `LinesYield.looks`: the looks from a line feed yield it, and `LinesYield.lines`: without the failures
  they yield the same.
- `FailsBetweenLines lines held clean events failures`: reads fail in `events`, between the lines of the
  source `clean`.

Main statement: `Scanner.untilEnd_of_failsBetweenLines`.
-/

namespace MiniLex

/-- Looks that come to the end of the source from a cursor that has not met it begin with a look. -/
theorem Cursor.Looks.exists_later {c last : Cursor} {ys : List Yield} (h : c.Looks ys last)
    (hx : c.isExhausted = false) (hlast : last.isExhausted = true) :
    ∃ ys', ys = c.turn.yields ++ ys' ∧ c.turn.cursor.Looks ys' last := by
  cases h with
  | nil => rw [hx] at hlast; cases hlast
  | turn later => exact ⟨_, rfl, later⟩

/-- A cursor on the first character of a line that was just read follows the reads. -/
theorem Cursor.Follows.of_line {reads rs : List LineRead} {before text : List Char} {n : Nat}
    (hreads : Feedless reads) (hnumber : n = before.count '\n') (hbefore : CompleteLines before)
    (hsuffix : .line text :: rs <:+ reads) (hdelivered : delivered reads = before ++ delivered (.line text :: rs)) :
    (Cursor.mk (some rs) text text (n + 1) 1).Follows reads before := by
  have hline : lastLine before = [] := by
    rw [← List.append_nil before, hbefore.lastLine_append]
    rfl
  constructor
  · rw [hdelivered]
    simp [delivered, Cursor.stream, LineRead.stream]
  · rintro _ ⟨⟩
    exact (List.suffix_cons _ _).trans hsuffix
  · rw [hline]
    rfl
  · exact hreads text (hsuffix.subset (List.mem_cons_self ..))
  · rw [hnumber]
    rfl
  · rw [hline]
    exact fun _ => rfl
  · exact fun hx => absurd hx (by simp [Cursor.isExhausted])

/-! ## Reads without failures -/

theorem mem_texts {reads : List LineRead} {text : List Char} : text ∈ texts reads ↔ .line text ∈ reads := by
  rw [texts, List.mem_filterMap]
  constructor
  · rintro ⟨read, hread, heq⟩
    cases read with
    | line text' =>
      obtain rfl := Option.some.inj heq
      exact hread
    | failed message => cases heq
  · exact fun hread => ⟨_, hread, rfl⟩

theorem texts_map_line (lines : List (List Char)) : texts (lines.map .line) = lines := by
  rw [texts, List.filterMap_map]
  exact List.filterMap_some

theorem unfailing_map_line (lines : List (List Char)) : Unfailing (lines.map .line) := by
  intro message hmem
  obtain ⟨line, -, hline⟩ := List.mem_map.mp hmem
  cases hline

theorem Unfailing.head?_ne {reads : List LineRead} (h : Unfailing reads) (message : String) :
    reads.head? ≠ some (.failed message) :=
  fun hhead => h message (List.mem_of_head? hhead)

/-! ## Lines and failures between them -/

/-- What reads yield that come after `before`: each line yields what its segments yield, and each read
that fails yields a failure below the lines before it. -/
inductive LinesYield : List Char → List LineRead → List Yield → Prop where
  | nil {before : List Char} : LinesYield before [] []
  | line {before text : List Char} {reads : List LineRead} {segs : List Segment} {ys : List Yield}
      (tiles : Tiles segs (text ++ ['\n'])) (later : LinesYield (before ++ (text ++ ['\n'])) reads ys) :
      LinesYield before (.line text :: reads) (yieldsOf before segs ++ ys)
  | failed {before : List Char} {message : String} {reads : List LineRead} {ys : List Yield}
      (later : LinesYield before reads ys) :
      LinesYield before (.failed message :: reads)
        (.failed ⟨.readFailed message, ⟨before.count '\n' + 1, 1⟩, ""⟩ :: ys)

/-- The failures among line reads, each with the number of lines before it. -/
def LineRead.failures (lines : Nat) : List LineRead → List (Nat × String)
  | [] => []
  | .line _ :: reads => failures (lines + 1) reads
  | .failed message :: reads => (lines, message) :: failures lines reads

section Yields

variable {before : List Char} {reads : List LineRead} {segs : List Segment} {ys : List Yield}

/-- Segments yield no failure. -/
theorem isFailure_of_mem_yieldsOf {y : Yield} (h : y ∈ yieldsOf before segs) : y.isFailure = false := by
  induction segs generalizing before with
  | nil => cases h
  | cons s segs ih =>
    rw [yieldsOf, List.mem_append, List.mem_append] at h
    rcases h with (h | h) | h
    · obtain ⟨d, -, rfl⟩ := List.mem_map.mp h
      rfl
    · obtain ⟨t, -, rfl⟩ := List.mem_map.mp h
      rfl
    · exact ih h

theorem filter_yieldsOf (before : List Char) (segs : List Segment) :
    (yieldsOf before segs).filter (!·.isFailure) = yieldsOf before segs :=
  List.filter_eq_self.mpr fun y hy => by simp [isFailure_of_mem_yieldsOf hy]

theorem count_line {text : List Char} (htext : '\n' ∉ text) (before : List Char) :
    (before ++ (text ++ ['\n'])).count '\n' = before.count '\n' + 1 := by
  simp [List.count_append, List.count_eq_zero.mpr htext]

/-- The tokens that segments yield are theirs, and none of them is the end of a source. -/
theorem Tiles.not_isEof_of_mem_yieldsOf {cs : List Char} (ht : Tiles segs cs) {t : Token}
    (h : .token t ∈ yieldsOf before segs) : t.isEof = false := by
  induction ht generalizing before with
  | nil => cases h
  | @cons s segs rest fits _ ih =>
    rw [yieldsOf, List.mem_append, List.mem_append] at h
    rcases h with (h | h) | h
    · obtain ⟨d, -, hd⟩ := List.mem_map.mp h
      cases hd
    · obtain ⟨t', ht', heq⟩ := List.mem_map.mp h
      obtain rfl := Yield.token.inj heq
      exact fits.not_isEof (Option.mem_toList.mp ht')
    · exact ih h

/-- A failure that is not among the first yields comes after them. -/
theorem exists_front_of_failed {first front back : List Yield} {d : Diagnostic}
    (hfirst : ∀ y ∈ first, y.isFailure = false) (h : first ++ ys = front ++ .failed d :: back) :
    ∃ front', front = first ++ front' ∧ ys = front' ++ .failed d :: back := by
  rcases List.append_eq_append_iff.mp h with ⟨front', rfl, hys⟩ | ⟨more, rfl, hys⟩
  · exact ⟨front', rfl, hys⟩
  · cases more with
    | nil => exact ⟨[], by simp, hys.symm⟩
    | cons y more =>
      obtain ⟨rfl, -⟩ := List.cons.inj hys
      cases hfirst _ (List.mem_append_right _ (List.mem_cons_self ..))

namespace LinesYield

/-- If each line falls into segments, then the reads yield something. -/
theorem of_tiles (before : List Char) (h : ∀ text ∈ texts reads, ∃ segs, Tiles segs (text ++ ['\n'])) :
    ∃ ys, LinesYield before reads ys := by
  induction reads generalizing before with
  | nil => exact ⟨_, .nil⟩
  | cons read reads ih =>
    cases read with
    | failed message =>
      obtain ⟨ys, hys⟩ := ih before h
      exact ⟨_, .failed hys⟩
    | line text =>
      obtain ⟨segs, hsegs⟩ := h text (List.mem_cons_self ..)
      obtain ⟨ys, hys⟩ := ih (before ++ (text ++ ['\n'])) fun text' h' => h text' (List.mem_cons_of_mem _ h')
      exact ⟨_, .line hsegs hys⟩

theorem not_isEof (h : LinesYield before reads ys) {t : Token} (ht : .token t ∈ ys) : t.isEof = false := by
  induction h with
  | nil => cases ht
  | line tiles _ ih =>
    rcases List.mem_append.mp ht with ht | ht
    · exact tiles.not_isEof_of_mem_yieldsOf ht
    · exact ih ht
  | failed _ ih => exact ih (List.mem_of_ne_of_mem (by simp) ht)

theorem failed_not_mem (h : LinesYield before reads ys) (hreads : Unfailing reads) {d : Diagnostic} :
    .failed d ∉ ys := by
  induction h with
  | nil => exact List.not_mem_nil
  | line _ _ ih =>
    rw [List.mem_append, not_or]
    refine ⟨fun hmem => ?_, ih fun message hmem => hreads message (List.mem_cons_of_mem _ hmem)⟩
    cases isFailure_of_mem_yieldsOf hmem
  | failed _ _ => exact absurd (List.mem_cons_self ..) (hreads _)

/-- Without the failures the lines yield the same. -/
theorem lines (h : LinesYield before reads ys) :
    LinesYield before ((texts reads).map .line) (ys.filter (!·.isFailure)) := by
  induction h with
  | nil => exact .nil
  | @line before text reads segs ys tiles _ ih =>
    rw [List.filter_append, filter_yieldsOf]
    exact .line tiles ih
  | failed _ ih => exact ih

/-- The failures are those of the reads. -/
theorem failures (h : LinesYield before reads ys) (hreads : Feedless reads) :
    ys.filterMap Yield.failed? = (LineRead.failures (before.count '\n') reads).map
      fun failure => ⟨.readFailed failure.2, ⟨failure.1 + 1, 1⟩, ""⟩ := by
  induction h with
  | nil => rfl
  | @line before text reads segs ys tiles _ ih =>
    have hnone : (yieldsOf before segs).filterMap Yield.failed? = [] := by
      refine List.filterMap_eq_nil_iff.mpr fun y hy => ?_
      have hy := isFailure_of_mem_yieldsOf hy
      cases y with
      | failed d => cases hy
      | reported d | token t => rfl
    have hcount := count_line (hreads text (List.mem_cons_self ..)) before
    rw [List.filterMap_append, hnone, ih fun text' h' => hreads text' (List.mem_cons_of_mem _ h'), hcount]
    rfl
  | failed _ ih =>
    exact congrArg (_ :: ·) (ih fun text h' => hreads text (List.mem_cons_of_mem _ h'))

/-- What is yielded before a failure is what the lines above it yield. -/
theorem before_failed (h : LinesYield before reads ys) (hreads : Feedless reads) {front back : List Yield}
    {d : Diagnostic} (hys : ys ++ [.token .eof] = front ++ .failed d :: back) :
    ∃ n, d.position.line = before.count '\n' + n + 1 ∧
      LinesYield before (((texts reads).take n).map .line) (front.filter (!·.isFailure)) := by
  induction h generalizing front with
  | nil =>
    have hmem : .failed d ∈ [] ++ [Yield.token .eof] := by
      rw [hys]
      exact List.mem_append_right _ (List.mem_cons_self ..)
    cases List.mem_singleton.mp hmem
  | @line before text reads segs ys tiles _ ih =>
    rw [List.append_assoc] at hys
    have hcount := count_line (hreads text (List.mem_cons_self ..)) before
    obtain ⟨front, rfl, hrest⟩ := exists_front_of_failed (fun y => isFailure_of_mem_yieldsOf) hys
    obtain ⟨n, hline, hfront⟩ := ih (fun text' h' => hreads text' (List.mem_cons_of_mem _ h')) hrest
    refine ⟨n + 1, by rw [hline, hcount]; omega, ?_⟩
    rw [List.filter_append, filter_yieldsOf]
    exact .line tiles hfront
  | @failed before message reads ys _ ih =>
    cases front with
    | nil =>
      obtain ⟨heq, -⟩ := List.cons.inj hys
      obtain rfl := Yield.failed.inj heq
      exact ⟨0, rfl, .nil⟩
    | cons y front =>
      obtain ⟨rfl, hrest⟩ := List.cons.inj hys
      obtain ⟨n, hline, hfront⟩ := ih (fun text h' => hreads text (List.mem_cons_of_mem _ h')) hrest
      exact ⟨n, hline, hfront⟩

/-- Looks from a line feed yield what the reads after it yield, and come to the end of the source. -/
theorem looks {rs : List LineRead} (h : LinesYield before rs ys) (hreads : Feedless reads) {d : Cursor}
    (hp : d.pending = some rs) (hrest : d.rest = []) (hnumber : d.lineNumber = before.count '\n')
    (hbefore : CompleteLines before) (hsuffix : rs <:+ reads)
    (hdelivered : delivered reads = before ++ delivered rs) :
    ∃ last, d.Looks ys last ∧ last.isExhausted = true := by
  induction h generalizing d with
  | nil =>
    have hturn : d.turn = ⟨[], none, ⟨none, [], [], d.lineNumber, 1⟩⟩ := Cursor.turn_of_feed hp hrest
    have hlooks := (Cursor.Looks.nil (c := d.turn.cursor)).turn
    rw [hturn] at hlooks
    exact ⟨_, hlooks, rfl⟩
  | @line before text rs segs ys tiles _ ih =>
    have htext : '\n' ∉ text := hreads text (hsuffix.subset (List.mem_cons_self ..))
    have hsuffix' : rs <:+ reads := (List.suffix_cons _ _).trans hsuffix
    have hturn : d.turn = ⟨[], none, ⟨some rs, text, text, d.lineNumber + 1, 1⟩⟩ :=
      Cursor.turn_of_feed hp hrest
    have hfollows := Cursor.Follows.of_line hreads hnumber hbefore hsuffix hdelivered
    generalize hnext : Cursor.mk (some rs) text text (d.lineNumber + 1) 1 = next at hturn hfollows
    have hpending : next.pending = some rs := by rw [← hnext]
    have hfeed : next.toFeed.rest = [] := List.drop_length
    have hcount := count_line htext before
    obtain ⟨last, hlooks, hlast⟩ := ih (d := next.toFeed) hpending hfeed
      (by rw [hcount, ← hnumber, ← hnext]; rfl) (hbefore.append (.inr (by simp))) hsuffix'
      (by rw [hdelivered]; simp [delivered, LineRead.stream])
    obtain ⟨ys', rfl, hlater⟩ :=
      hlooks.exists_later (by simp [Cursor.isExhausted, Cursor.toFeed, Cursor.skip, hpending]) hlast
    have hlooks' := hfollows.looks_line hreads hpending (by rw [← hnext]; exact tiles) hlater
    refine ⟨last, ?_, hlast⟩
    have hturned := Cursor.Looks.turn (c := d) (by rw [hturn]; exact hlooks')
    rw [hturn] at hturned
    exact hturned
  | @failed before message rs ys _ ih =>
    have hsuffix' : rs <:+ reads := (List.suffix_cons _ _).trans hsuffix
    have hturn := Cursor.turn_of_feed hp hrest
    obtain ⟨last, hlooks, hlast⟩ := ih (d := { d with pending := some rs, column := d.column + 1 }) rfl hrest
      hnumber hbefore hsuffix' hdelivered
    refine ⟨last, ?_, hlast⟩
    have hturned := Cursor.Looks.turn (c := d) (by rw [hturn]; exact hlooks)
    rw [hturn] at hturned
    rw [← hnumber]
    exact hturned

/-- Calls until the end of a source yield what its reads yield, and without failures this is what the
source comes to. -/
theorem untilEnd (h : LinesYield [] reads ys) (hreads : Feedless reads)
    (hfirst : ∀ message, reads.head? ≠ some (.failed message)) :
    ∃ scanner, Scanner.ofReads reads = .ok scanner ∧
      (∃ replies, scanner.UntilEnd replies ∧ replies.flatMap Reply.yields = ys ++ [.token .eof]) ∧
        (Unfailing reads → tokenizeReads reads = .ofYields ys) := by
  obtain ⟨c, hc⟩ : ∃ c, (Cursor.start reads).advance = .ok c := by
    match reads, hfirst with
    | [], _ => exact ⟨_, rfl⟩
    | .line text :: reads, _ => exact ⟨_, rfl⟩
    | .failed message :: reads, hfirst => exact absurd rfl (hfirst message)
  obtain ⟨last, hlooks, hlast⟩ :=
    h.looks hreads (d := .start reads) rfl rfl rfl (.inl rfl) (List.suffix_refl _) rfl
  obtain ⟨ys', rfl, hlater⟩ := hlooks.exists_later rfl hlast
  have hturn : (Cursor.start reads).turn = ⟨[], none, c⟩ :=
    (Cursor.turn_of_feed rfl rfl).trans (congrArg Turn.ofMove hc)
  rw [hturn] at h hlater ⊢
  have hproper : ∀ t, .token t ∈ ys' → t.isEof = false := fun t ht => h.not_isEof ht
  refine ⟨⟨c, false⟩, by rw [Scanner.ofReads, hc], hlater.untilEnd hlast hproper false, fun hunfailing => ?_⟩
  rw [tokenizeReads_of_ok hc]
  exact hlater.tokenized hlast hproper fun d => h.failed_not_mem hunfailing

/-- What is yielded before a failure is what scanning the lines above it comes to. -/
theorem tokenizeReads_before_failed (h : LinesYield [] reads ys) (hreads : Feedless reads)
    {front back : List Yield} {d : Diagnostic} (hys : ys ++ [.token .eof] = front ++ .failed d :: back) :
    tokenizeReads (((texts reads).take (d.position.line - 1)).map .line) =
      .ofYields (front.filter (!·.isFailure)) := by
  obtain ⟨n, hline, hyields⟩ := h.before_failed hreads hys
  have hn : d.position.line - 1 = n := by
    rw [hline]
    simp
  have hfeedless : Feedless (((texts reads).take n).map .line) := by
    intro text hmem
    obtain ⟨text, htext, ⟨⟩⟩ := List.mem_map.mp hmem
    exact hreads text (mem_texts.mp (List.mem_of_mem_take htext))
  have hunfailing := unfailing_map_line ((texts reads).take n)
  obtain ⟨-, -, -, htokenize⟩ := hyields.untilEnd hfeedless hunfailing.head?_ne
  rw [hn]
  exact htokenize hunfailing

end LinesYield

end Yields

/-! ## Sources -/

/-- The lines of a text, each with the line feed that ends it; the last line may have none. -/
def sourceLines (text : List Char) : List (List Char) :=
  (splitLines '\n' text).1 ++ if (splitLines '\n' text).2 = [] then [] else [(splitLines '\n' text).2]

theorem LineRead.ofText_eq (text : List Char) :
    ofText text = (sourceLines text).map fun line => .line (lineText line) := by
  rw [ofText, sourceLines, List.map_append]
  by_cases hlast : (splitLines '\n' text).2 = [] <;> simp [hlast]

/-- Each line of a text is, on its own, a text of one line. -/
theorem canonical_of_mem_sourceLines {text line : List Char} (h : line ∈ sourceLines text) :
    canonical line = lineText line ++ ['\n'] := by
  obtain ⟨-, hlast, hlines⟩ := splitLines_spec '\n' text
  have hone : LineRead.ofText line = [.line (lineText line)] := by
    rcases List.mem_append.mp h with h | h
    · obtain ⟨body, hbody, rfl⟩ := hlines line h
      rw [LineRead.ofText, splitLines_line hbody []]
      rfl
    · split at h
      · cases h
      · rename_i hne
        obtain rfl := List.mem_singleton.mp h
        rw [LineRead.ofText, splitLines_of_not_mem hlast]
        simp [hne]
  rw [canonical, hone, delivered, List.flatMap_singleton]
  rfl

/-- `events` is what happens instead of `clean` while the bytes of a source are asked for, if reads fail
between its lines, after the first line and before the end is met. So many `lines` come before, and
some bytes of a line may be `held` already; each failure is listed with the number of lines before it. -/
inductive FailsBetweenLines :
    (lines : Nat) → (held : List UInt8) → (clean events : List ReadEvent) → List (Nat × String) → Prop where
  | nil {lines : Nat} {held : List UInt8} : FailsBetweenLines lines held [] [] []
  | failed {lines : Nat} {clean events : List ReadEvent} {failures : List (Nat × String)} {message : String}
      (begun : 0 < lines) (later : FailsBetweenLines lines [] clean events failures) :
      FailsBetweenLines lines [] clean (.failed message :: events) ((lines, message) :: failures)
  | chunk {lines : Nat} {held bytes : List UInt8} {clean events : List ReadEvent}
      {failures : List (Nat × String)}
      (later : FailsBetweenLines (lines + (splitLines 0x0A (held ++ bytes)).1.length)
        (splitLines 0x0A (held ++ bytes)).2 clean events failures) :
      FailsBetweenLines lines held (.chunk bytes :: clean) (.chunk bytes :: events) failures
  | interrupted {lines : Nat} {held : List UInt8} {clean events : List ReadEvent}
      {failures : List (Nat × String)} (later : FailsBetweenLines lines held clean events failures) :
      FailsBetweenLines lines held (.interrupted :: clean) (.interrupted :: events) failures
  /-- The bytes end within a line, which the end of the source is not met with. -/
  | cut {lines : Nat} {held : List UInt8} {clean events : List ReadEvent} {failures : List (Nat × String)}
      (within : held ≠ []) (later : FailsBetweenLines (lines + 1) [] clean events failures) :
      FailsBetweenLines lines held (.ended :: clean) (.ended :: events) failures
  | ended {lines : Nat} {clean : List ReadEvent} :
      FailsBetweenLines lines [] (.ended :: clean) (.ended :: clean) []

/-- Lines that were read are no failures. -/
theorem LineRead.failures_append (n : Nat) (lines : List (List UInt8)) (reads : List LineRead) :
    failures n (lines.map ofBytes ++ reads) = failures (n + lines.length) reads := by
  induction lines generalizing n with
  | nil => rfl
  | cons line lines ih =>
    rw [List.length_cons, Nat.add_comm lines.length, ← Nat.add_assoc, ← ih]
    rfl

/-- A first read that fails has no line before it. -/
theorem LineRead.head?_ne_of_failures {reads : List LineRead}
    (h : ∀ failure ∈ failures 0 reads, 0 < failure.1) (message : String) :
    reads.head? ≠ some (.failed message) := by
  intro hhead
  obtain ⟨rest, rfl⟩ := List.head?_eq_some_iff.mp hhead
  exact Nat.lt_irrefl 0 (h _ (List.mem_cons_self ..))

namespace FailsBetweenLines

variable {lines : Nat} {held : List UInt8} {clean events : List ReadEvent} {failures : List (Nat × String)}

/-- The same lines are read, and the failures between them. -/
theorem reads (h : FailsBetweenLines lines held clean events failures) :
    texts (LineRead.ofHeld held events) = texts (LineRead.ofHeld held clean) ∧
      LineRead.failures lines (LineRead.ofHeld held events) = failures := by
  induction h with
  | @nil lines held =>
    refine ⟨rfl, ?_⟩
    rw [LineRead.ofHeld]
    split <;> rfl
  | failed _ _ ih => exact ⟨ih.1, congrArg (_ :: ·) ih.2⟩
  | chunk _ ih =>
    refine ⟨?_, ?_⟩
    · rw [LineRead.ofHeld, LineRead.ofHeld, texts, texts, List.filterMap_append, List.filterMap_append]
      exact congrArg _ ih.1
    · rw [LineRead.ofHeld, LineRead.failures_append]
      exact ih.2
  | interrupted _ ih => exact ih
  | cut within _ ih =>
    rw [LineRead.ofHeld, LineRead.ofHeld, if_neg within, if_neg within]
    exact ⟨congrArg (_ :: ·) ih.1, ih.2⟩
  | ended => exact ⟨rfl, rfl⟩

/-- No read fails before the first line. -/
theorem begun (h : FailsBetweenLines lines held clean events failures) :
    ∀ failure ∈ failures, 0 < failure.1 := by
  induction h with
  | nil | ended => simp
  | failed begun _ ih => exact List.forall_mem_cons.mpr ⟨begun, ih⟩
  | chunk _ ih | interrupted _ ih | cut _ _ ih => exact ih

end FailsBetweenLines

/-! ## Scanning -/

/-- Let reads fail between the lines of a source, after the first line and before the end is met, and
let each line, on its own, be scanned without failure. Then calls for the next token until the end, which
go on after each failure, yield the tokens and the diagnostics of the source without failures, in the
same order, and one failure more for each read that failed, with its message, below the lines that were
read before. Before a failure they yield what those lines yield. -/
theorem Scanner.untilEnd_of_failsBetweenLines {clean events : List ReadEvent} {b : List UInt8}
    {failures : List (Nat × String)} (hclean : Delivers clean b)
    (hevents : FailsBetweenLines 0 [] clean events failures)
    (hlines : ∀ line ∈ sourceLines (Utf8.decode b), ∃ ts, (tokenize line).result = .ok ts) :
    ∃ scanner scanner' replies replies' ys,
      (ofReads (LineRead.ofEvents clean) = .ok scanner ∧ scanner.UntilEnd replies ∧
        replies.flatMap Reply.yields = ys ++ [.token .eof] ∧ tokenize (Utf8.decode b) = .ofYields ys) ∧
      (ofReads (LineRead.ofEvents events) = .ok scanner' ∧ scanner'.UntilEnd replies') ∧
      (replies'.flatMap Reply.yields).filter (!·.isFailure) = ys ++ [.token .eof] ∧
      (replies'.flatMap Reply.yields).filterMap Yield.failed? =
        failures.map (fun failure => ⟨.readFailed failure.2, ⟨failure.1 + 1, 1⟩, ""⟩) ∧
      ∀ front d back, replies'.flatMap Reply.yields = front ++ .failed d :: back →
        tokenizeReads ((LineRead.ofText (Utf8.decode b)).take (d.position.line - 1)) =
          .ofYields (front.filter (!·.isFailure)) := by
  have hreads := LineRead.feedless_ofEvents events
  obtain ⟨hsame, hfailures⟩ := hevents.reads
  have hsame : texts (LineRead.ofEvents events) = texts (LineRead.ofEvents clean) := hsame
  have hfailures : LineRead.failures 0 (LineRead.ofEvents events) = failures := hfailures
  -- the lines that are read, in both cases
  generalize hlined : (sourceLines (Utf8.decode b)).map lineText = lined
  have htext : LineRead.ofText (Utf8.decode b) = lined.map .line := by
    rw [LineRead.ofText_eq, ← hlined, List.map_map]
    rfl
  have hread : LineRead.ofEvents clean = lined.map .line := by
    rw [LineRead.ofEvents_of_delivers hclean, htext]
  rw [hread, texts_map_line] at hsame
  have htiles : ∀ text ∈ texts (LineRead.ofEvents events), ∃ segs, Tiles segs (text ++ ['\n']) := by
    intro text hmem
    rw [hsame, ← hlined] at hmem
    obtain ⟨line, hline, rfl⟩ := List.mem_map.mp hmem
    obtain ⟨ts, hts⟩ := hlines line hline
    rw [← canonical_of_mem_sourceLines hline]
    exact tiles_of_tokenize hts
  obtain ⟨ys, hys⟩ := LinesYield.of_tiles [] htiles
  have hclean := hys.lines
  rw [hsame] at hclean
  have hfeedless : Feedless (lined.map .line) := htext ▸ LineRead.feedless_ofText _
  obtain ⟨scanner, hscanner, ⟨replies, huntil, hreplies⟩, htokenize⟩ :=
    hclean.untilEnd hfeedless (unfailing_map_line lined).head?_ne
  obtain ⟨scanner', hscanner', ⟨replies', huntil', hreplies'⟩, -⟩ :=
    hys.untilEnd hreads fun message => LineRead.head?_ne_of_failures (hfailures ▸ hevents.begun) message
  refine ⟨scanner, scanner', replies, replies', _, ⟨hread ▸ hscanner, huntil, hreplies, ?_⟩,
    ⟨hscanner', huntil'⟩, ?_, ?_, ?_⟩
  · rw [tokenize, htext]
    exact htokenize (unfailing_map_line lined)
  · rw [hreplies', List.filter_append]
    rfl
  · rw [hreplies', List.filterMap_append, hys.failures hreads, ← hfailures]
    exact List.append_nil _
  · intro front d back hfront
    rw [hreplies'] at hfront
    rw [htext, ← List.map_take, ← hsame]
    exact hys.tokenizeReads_before_failed hreads hfront

/-- Two reads fail after the first line, one after a line comment, and one after the last line, which no
line feed ends. -/
theorem Scanner.untilEnd_of_failsBetweenLines_four :
    let clean : List ReadEvent :=
      [.chunk [0x61, 0x26, 0x0A], .chunk [0x2F, 0x2F, 0x0A], .chunk [0x24], .ended]
    let events : List ReadEvent :=
      [.chunk [0x61, 0x26, 0x0A], .failed "lost", .failed "gone", .chunk [0x2F, 0x2F, 0x0A],
        .failed "lost", .chunk [0x24], .ended, .failed "late"]
    let failures : List (Nat × String) := [(1, "lost"), (1, "gone"), (2, "lost"), (3, "late")]
    let text : List Char := ['a', '&', '\n', '/', '/', '\n', '$']
    (Delivers clean (Utf8.encode text) ∧ FailsBetweenLines 0 [] clean events failures ∧
      ∀ line ∈ sourceLines text, ∃ ts, (tokenize line).result = .ok ts) ∧
    ∃ scanner scanner' replies replies' ys,
      (ofReads (LineRead.ofEvents clean) = .ok scanner ∧ scanner.UntilEnd replies ∧
        replies.flatMap Reply.yields = ys ++ [.token .eof] ∧ tokenize text = .ofYields ys) ∧
      (ofReads (LineRead.ofEvents events) = .ok scanner' ∧ scanner'.UntilEnd replies') ∧
      (replies'.flatMap Reply.yields).filter (!·.isFailure) = ys ++ [.token .eof] ∧
      (replies'.flatMap Reply.yields).filterMap Yield.failed? =
        failures.map (fun failure => ⟨.readFailed failure.2, ⟨failure.1 + 1, 1⟩, ""⟩) := by
  intro clean events failures text
  have hclean : Delivers clean (Utf8.encode text) := .chunk (.chunk (.chunk (.ended .nil)))
  have hevents : FailsBetweenLines 0 [] clean events failures :=
    .chunk (.failed (by decide) (.failed (by decide) (.chunk (.failed (by decide)
      (.chunk (.cut (by decide) (.failed (by decide) .nil)))))))
  have hlines : ∀ line ∈ sourceLines text, ∃ ts, (tokenize line).result = .ok ts := by
    have hsource : sourceLines text = [['a', '&', '\n'], ['/', '/', '\n'], ['$']] := by decide
    rw [hsource]
    simp only [List.forall_mem_cons]
    exact ⟨⟨[.spelled .identifier ['a'], .eof], by decide +kernel⟩, ⟨[.eof], by decide +kernel⟩,
      ⟨[.eof], by decide +kernel⟩, by simp⟩
  have hdecode : Utf8.decode (Utf8.encode text) = text := Utf8.decode_encode text
  rw [← hdecode] at hlines
  obtain ⟨scanner, scanner', replies, replies', ys, hscanned, hscanned', hyields, hfailures, -⟩ :=
    untilEnd_of_failsBetweenLines hclean hevents hlines
  rw [hdecode] at hlines hscanned
  exact ⟨⟨hclean, hevents, hlines⟩, scanner, scanner', replies, replies', ys, hscanned, hscanned', hyields,
    hfailures⟩

end MiniLex
