import MiniLex.Proofs.Calls

/-!
# What diagnostics say

A diagnostic that is reported while a source is scanned names a character of a line that has been
read. The scan and the reads of lines may fail and go on in any order.

- `Cursor.linesRead`: the lines that a cursor has read of the reads that it was started on.
- `Diagnostic.Exact lines d`: the diagnostic is right about the lines.
- `Reply.Sound`: all that a reply says is right.
- `Scanner.answers_of_replies`: all that the replies to any calls say is right.

Main statement: `Session.diagnostics_exact`.
-/

namespace MiniLex

/-! ## Exact diagnostics -/

/-- The character that a cause was met at, if it was met at one. -/
def Cause.met? : Cause → Option Char
  | .illegalCharacter ch => some ch
  | .expectedCharacter _ found | .malformedExponent found => found
  | .readPastEnd | .sourceNotFound _ | .readFailed _ => none

/-- The diagnostic is recovered from, and names one of the lines, a place on it or right after it,
and the character at that place. -/
structure Diagnostic.Exact (lines : List (List Char)) (d : Diagnostic) : Prop where
  recoverable : d.isFatal = false
  line : 1 ≤ d.position.line ∧ d.position.line ≤ lines.length
  place : ∃ text, lines[d.position.line - 1]? = some text ∧ d.sourceLine = String.ofList text ∧
    1 ≤ d.position.column ∧ d.position.column ≤ text.length + 1 ∧
    ∃ ch, d.cause.met? = some ch ∧ (text ++ ['\n'])[d.position.column - 1]? = some ch

/-- A diagnostic stays exact when more lines are read. -/
theorem Diagnostic.Exact.mono {lines lines' : List (List Char)} {d : Diagnostic} (h : d.Exact lines)
    (hle : lines <+: lines') : d.Exact lines' := by
  obtain ⟨text, htext, hplace⟩ := h.place
  obtain ⟨more, rfl⟩ := hle
  refine ⟨h.recoverable, ⟨h.line.1, ?_⟩, text, ?_, hplace⟩
  · have := h.line.2
    rw [List.length_append]
    omega
  · have hlt : d.position.line - 1 < lines.length := (List.getElem?_eq_some_iff.mp htext).1
    rw [List.getElem?_append_left hlt, htext]

/-- The diagnostic ends the call that meets it: characters are asked for past the end of the source,
or a read fails. -/
def Diagnostic.EndsCall (d : Diagnostic) : Prop :=
  d.isFatal = true ∧ (d.cause = .readPastEnd ∨ ∃ message, d.cause = .readFailed message)

/-! ## Lines that were read -/

/-- The texts of the lines that a cursor has read of the reads that it was started on. -/
def Cursor.linesRead (reads : List LineRead) (c : Cursor) : List (List Char) :=
  texts (reads.take (reads.length - (c.pending.getD []).length))

namespace Cursor.Follows

variable {reads : List LineRead} {before w rest : List Char} {c d : Cursor}

/-- The number of its line is the number of lines that a cursor has read. -/
theorem length_linesRead (hreads : Feedless reads) (h : c.Follows reads before) :
    (c.linesRead reads).length = c.lineNumber := by
  have hstream := h.stream
  rw [h.lineNumber]
  -- the reads that were used up deliver all lines up to the end of the one that the cursor is on
  cases hp : c.pending with
  | none =>
    have hx : c.isExhausted = true := by simp [isExhausted, hp]
    rw [stream_of_exhausted hx, List.append_nil] at hstream
    simp [linesRead, hp, hx, length_texts_eq_count hreads, hstream]
  | some rs =>
    have hx : c.isExhausted = false := by simp [isExhausted, hp]
    obtain ⟨used, rfl⟩ := h.pending rs hp
    have hused : Feedless used := fun text htext => hreads text (List.mem_append_left _ htext)
    have hdelivered : delivered used = before ++ c.rest ++ ['\n'] := by
      refine List.append_cancel_right (?_ : _ ++ delivered rs = _ ++ delivered rs)
      rw [stream_of_pending hp] at hstream
      simpa [delivered] using hstream
    have hfeed : c.rest.count '\n' = 0 := List.count_eq_zero.mpr h.feed_not_mem_rest
    simp [linesRead, hp, hx, length_texts_eq_count hused, hdelivered, List.count_append, hfeed]

/-- A place before a cursor is on a line that the cursor has read. -/
theorem count_lt_lineNumber (h : c.Follows reads (before ++ w)) (hrest : delivered reads = before ++ rest)
    (hne : rest ≠ []) : before.count '\n' < c.lineNumber := by
  have hnumber := h.lineNumber
  rw [List.count_append] at hnumber
  by_cases hx : c.isExhausted = true
  · have hstream := h.stream
    rw [stream_of_exhausted hx, List.append_nil, hrest, List.append_cancel_left_eq] at hstream
    have hfeed := List.count_pos_iff.mpr (feed_mem_of_delivered hrest hne)
    rw [hstream] at hfeed
    omega
  · rw [if_neg hx] at hnumber
    omega

/-- The lines that a cursor has read are the first of those that the reads give. -/
theorem linesRead_eq_take (hreads : Feedless reads) (h : c.Follows reads before) :
    c.linesRead reads = (texts reads).take c.lineNumber := by
  have hpre : c.linesRead reads <+: texts reads := (List.take_prefix _ _).filterMap _
  rw [← h.length_linesRead hreads]
  exact List.prefix_iff_eq_take.mp hpre

/-- A cursor has read the lines that it had read further back. -/
theorem linesRead_mono (hreads : Feedless reads) (hc : c.Follows reads before)
    (hd : d.Follows reads (before ++ w)) : c.linesRead reads <+: d.linesRead reads := by
  have hle : c.lineNumber ≤ d.lineNumber := by
    have hnumber := hc.lineNumber
    by_cases hx : c.isExhausted = true
    · rw [if_pos hx, Nat.add_zero] at hnumber
      rw [hnumber, hd.lineNumber, List.count_append]
      omega
    · -- there is something ahead, and its line is read before the cursor comes further on
      have hne : c.stream ≠ [] := fun hnil => hx (stream_eq_nil_iff.mp hnil)
      have hlt := hd.count_lt_lineNumber hc.stream hne
      rw [if_neg hx] at hnumber
      omega
  rw [hc.linesRead_eq_take hreads, hd.linesRead_eq_take hreads]
  exact List.take_prefix_take_left hle

/-- A diagnostic about the first of the characters after `before` is exact once the line has been
read. -/
theorem exact_between (hreads : Feedless reads) (h : c.Follows reads (before ++ w))
    (hrest : delivered reads = before ++ rest) (hne : rest ≠ []) {cause : Cause}
    (hfatal : cause.isFatal = false) (hmet : cause.met? = rest.head?) :
    (Diagnostic.between before rest cause).Exact (c.linesRead reads) := by
  -- the rest of the line goes up to the line feed that ends it
  have hfeed := feed_mem_of_delivered hrest hne
  obtain ⟨line, more, rfl, hline⟩ := List.eq_append_cons_of_mem hfeed
  have hwhole : (line ++ '\n' :: more).takeWhile (· != '\n') = line :=
    takeWhile_append_of_stops (bne_of_not_mem hline) (stops_cons.mpr rfl)
  have hlt := h.count_lt_lineNumber hrest hne
  have hread : (c.linesRead reads)[before.count '\n']? = some (lastLine before ++ line) := by
    rw [h.linesRead_eq_take hreads, List.getElem?_take_of_lt hlt]
    exact getElem?_texts hreads hline (by rw [hrest, List.append_assoc])
  refine ⟨hfatal, ⟨Nat.le_add_left .., ?_⟩, lastLine before ++ line, hread, ?_, Nat.le_add_left .., ?_, ?_⟩
  · rw [h.length_linesRead hreads]
    exact hlt
  · rw [Diagnostic.between, hwhole]
  · show (lastLine before).length + 1 ≤ (lastLine before ++ line).length + 1
    rw [List.length_append]
    omega
  · obtain ⟨ch, cs, hcs⟩ := List.exists_cons_of_ne_nil hne
    refine ⟨ch, by rw [show (Diagnostic.between _ _ cause).cause = cause from rfl, hmet, hcs]; rfl, ?_⟩
    show (lastLine before ++ line ++ ['\n'])[(lastLine before).length]? = some ch
    rw [List.append_assoc, List.getElem?_append_right (Nat.le_refl _), Nat.sub_self]
    cases line with
    | nil => exact congrArg List.head? hcs
    | cons d ds => exact congrArg List.head? hcs

end Cursor.Follows

/-! ## Diagnostics of segments -/

/-- What is wrong with a segment is met at a character of its last line, the one after as much of
the segment as the fault says. -/
theorem Segment.Fits.fault_spec {s : Segment} {rest : List Char} {n : Nat} {cause : Cause}
    (h : s.Fits rest) (hfault : s.fault rest = some (n, cause)) :
    '\n' ∉ s.text ∧ cause.isFatal = false ∧ cause.met? = (s.text.drop n ++ rest).head? := by
  cases h with
  | blank _ | comment _ => cases hfault
  | token longest _ _ =>
    rw [longest.lexeme.fault] at hfault
    cases hfault
  | @unclosed unit _ logical _ =>
    rw [Segment.fault_unclosed] at hfault
    obtain ⟨rfl, rfl⟩ := Prod.mk.inj (Option.some.inj hfault)
    exact ⟨by simp [Segment.text, logical.feed_not_mem], rfl, by simp [Segment.text, Cause.met?]⟩
  | @illegal c _ illegal =>
    obtain ⟨rfl, rfl⟩ := Prod.mk.inj (Option.some.inj hfault)
    refine ⟨?_, rfl, rfl⟩
    intro hmem
    exact illegal.1 (.inr (.inr (.inr (List.mem_singleton.mp hmem).symm)))
  | @lone c _ half _ =>
    obtain ⟨rfl, rfl⟩ := Prod.mk.inj (Option.some.inj hfault)
    refine ⟨?_, rfl, rfl⟩
    rcases half with rfl | rfl <;> decide
  | @number m e _ mantissa head _ _ =>
    obtain ⟨rfl, rfl⟩ := Prod.mk.inj (Option.some.inj hfault)
    refine ⟨?_, rfl, by simp [Segment.text, Cause.met?]⟩
    intro hmem
    rcases List.mem_append.mp hmem with hmem | hmem
    · exact absurd (mantissa.mem hmem) (by decide)
    · exact absurd (head.mem hmem) (by decide)
  | @opener w _ opener _ =>
    obtain ⟨rfl, rfl⟩ := Prod.mk.inj (Option.some.inj hfault)
    refine ⟨?_, rfl, by simp [Segment.text, Cause.met?]⟩
    rcases opener with rfl | rfl <;> decide

namespace Cursor

variable {reads : List LineRead} {before : List Char} {c : Cursor}

/-- What a look reports is exact. -/
theorem Follows.exact_of_turn (hreads : Feedless reads) (h : c.Follows reads before) :
    ∀ d ∈ c.turn.reported, d.Exact (c.turn.cursor.linesRead reads) := by
  have hturned := h.turned hreads
  have hstream := h.stream
  generalize c.turn = turn at hturned
  intro d hd
  cases hturned with
  | ended _ | unterminated _ _ _ | interrupted _ _ _ => cases hd
  | @passed s notes next stream fits follows reported =>
    have hd : d ∈ s.reports before next.stream := reported ▸ hd
    unfold Segment.reports at hd
    split at hd
    · cases hd
    · rename_i n cause hfault
      obtain rfl := List.mem_singleton.mp hd
      obtain ⟨hfeed, hfatal, hmet⟩ := fits.fault_spec hfault
      have hsplit : before ++ s.text = before ++ s.text.take n ++ s.text.drop n := by simp
      rw [hsplit] at follows
      have hrest : delivered reads = before ++ s.text.take n ++ (s.text.drop n ++ next.stream) := by
        rw [hstream, stream, List.append_assoc before, ← List.append_assoc (s.text.take n),
          List.take_append_drop]
      refine follows.exact_between hreads hrest ?_ hfatal hmet
      -- the line feed that ends the line is not in the segment
      intro hnil
      have hmem := feed_mem_of_delivered hstream (by rw [stream]; simp [fits.text_ne_nil])
      rw [stream, (List.append_eq_nil_iff.mp hnil).2, List.append_nil] at hmem
      exact hfeed hmem

/-- A look that fails has met the end of the source or a read that failed. -/
theorem Follows.endsCall_of_turn (hreads : Feedless reads) (h : c.Follows reads before)
    {d : Diagnostic} (hd : c.turn.answer = some (.error d)) : d.EndsCall := by
  have hturned := h.turned hreads
  generalize c.turn = turn at hturned hd
  cases hturned with
  | ended _ => cases hd
  | @passed s _ _ _ _ _ _ =>
    obtain ⟨t, -, ht⟩ := Option.map_eq_some_iff.mp hd
    cases ht
  | unterminated _ _ _ =>
    cases hd
    exact ⟨rfl, .inl rfl⟩
  | interrupted failed _ _ =>
    cases hd
    obtain ⟨message, -, heq⟩ := failed
    rw [heq]
    exact ⟨rfl, .inr ⟨message, rfl⟩⟩

/-! ## Scans -/

/-- What is known after a scan. -/
structure Sound (reads : List LineRead) (c : Cursor) (scan : Scan) : Prop where
  seen : Seen reads scan.cursor
  linesRead : c.linesRead reads <+: scan.cursor.linesRead reads
  reported : ∀ d ∈ scan.notes.filterMap Note.diagnostic?, d.Exact (scan.cursor.linesRead reads)
  failure : ∀ d, scan.answer = .error d → d.EndsCall

theorem Seen.linesRead_turn (hreads : Feedless reads) (h : Seen reads c) :
    c.linesRead reads <+: c.turn.cursor.linesRead reads := by
  obtain ⟨before, hfollows⟩ := h.follows hreads
  obtain ⟨passed, -, hnext⟩ := (hfollows.turned hreads).follows hfollows
  exact hfollows.linesRead_mono hreads hnext

/-- All that a scan says is right. -/
theorem Seen.sound_scan (hreads : Feedless reads) (h : Seen reads c) : Sound reads c c.scan := by
  fun_induction Cursor.scan c with
  | case1 c answer hanswer =>
    obtain ⟨before, hfollows⟩ := h.follows hreads
    refine ⟨h.turn, h.linesRead_turn hreads, hfollows.exact_of_turn hreads, ?_⟩
    rintro d rfl
    exact hfollows.endsCall_of_turn hreads hanswer
  | case2 c hnone hlt later ih =>
    obtain ⟨before, hfollows⟩ := h.follows hreads
    have hlater := ih h.turn
    refine ⟨hlater.seen, (h.linesRead_turn hreads).trans hlater.linesRead, ?_, hlater.failure⟩
    intro d hd
    rw [List.filterMap_append, List.mem_append] at hd
    rcases hd with hd | hd
    · exact (hfollows.exact_of_turn hreads d hd).mono hlater.linesRead
    · exact hlater.reported d hd

end Cursor

/-! ## Replies -/

/-- All that a reply says is right, given the lines that have been read. -/
structure Reply.Sound (lines : List (List Char)) (r : Reply) : Prop where
  reported : ∀ d ∈ r.reported, d.Exact lines
  failure : ∀ d, r.answer = some (.error d) → d.EndsCall

namespace Scanner

/-- Some replies of a scanner lead from `s` to `s'`, and all that they say is right. -/
structure Answers (reads : List LineRead) (s : Scanner) (replies : List Reply) (s' : Scanner) : Prop where
  seen : Cursor.Seen reads s'.cursor
  linesRead : s.cursor.linesRead reads <+: s'.cursor.linesRead reads
  sound : ∀ r ∈ replies, r.Sound (s'.cursor.linesRead reads)

/-- All that replies say is right, whichever calls they are to. -/
theorem answers_of_replies {reads : List LineRead} {replies : List Reply} {s s' : Scanner}
    (hreads : Feedless reads) (h : s.cursor.Replies replies s'.cursor) (hseen : Cursor.Seen reads s.cursor) :
    Answers reads s replies s' := by
  obtain ⟨c, finished⟩ := s
  obtain ⟨c', finished'⟩ := s'
  change c.Replies replies c' at h
  induction h generalizing finished with
  | nil => exact ⟨hseen, List.prefix_refl _, by simp⟩
  | nothing _ ih =>
    obtain ⟨hlast, hlines, hsound⟩ := ih finished hseen
    refine ⟨hlast, hlines, fun r hr => ?_⟩
    rcases List.mem_cons.mp hr with rfl | hr
    · exact ⟨by simp [Reply.reported, Reply.nothing], by simp [Reply.nothing]⟩
    · exact hsound r hr
  | @scan c last replies _ ih =>
    have hscan := hseen.sound_scan hreads
    obtain ⟨hlast, hlines, hsound⟩ := ih finished hscan.seen
    refine ⟨hlast, hscan.linesRead.trans hlines, fun r hr => ?_⟩
    rcases List.mem_cons.mp hr with rfl | hr
    · refine ⟨fun d hd => ?_, fun d hd => hscan.failure d (Option.some.inj hd)⟩
      rw [Cursor.reply, reported_nextToken] at hd
      exact (hscan.reported d hd).mono hlines
    · exact hsound r hr

end Scanner

/-! ## Sessions -/

namespace Session

/-- What the calls report goes to the sink, in order, and nothing else does. -/
theorem sink_performAll (s : Session) (calls : List Call) :
    (s.performAll calls).2.sink =
      s.sink.reportAll ((s.performAll calls).1.flatMap fun e => e.reply.reported) := by
  induction calls generalizing s with
  | nil => rfl
  | cons call calls ih =>
    obtain ⟨hreplies, hsink⟩ := enter_replies s.sink (replies s.scanner call).1
    have hreported : (s.perform call).1.flatMap (fun e => e.reply.reported) =
        (replies s.scanner call).1.flatMap Reply.reported := by
      rw [← hreplies, List.flatMap_map]
      rfl
    have hlater := ih (s.perform call).2
    rw [show (s.perform call).2.sink = _ from hsink] at hlater
    show ((s.perform call).2.performAll calls).2.sink =
      s.sink.reportAll (((s.perform call).1 ++ ((s.perform call).2.performAll calls).1).flatMap _)
    rw [hlater, List.flatMap_append, hreported, Sink.reportAll, Sink.reportAll, ← List.foldl_append]
    rfl

/-- Whichever calls are made, all that the scanner replies is right. -/
theorem answers_performAll {reads : List LineRead} (hreads : Feedless reads) {s : Session}
    (h : Cursor.Seen reads s.scanner.cursor) (calls : List Call) :
    Scanner.Answers reads s.scanner ((s.performAll calls).1.map Entry.reply)
      (s.performAll calls).2.scanner :=
  Scanner.answers_of_replies hreads (s.replies_performAll calls) h

/-- Whatever the reads of a source come to, and whichever calls are made: each diagnostic that goes
to the sink is recovered from, and exact about a line that has been read; each failure that is
answered is fatal, and comes from the end of the source or from a read that failed. -/
theorem diagnostics_exact {events : List ReadEvent} {scanner : Scanner}
    (h : Scanner.ofReads (LineRead.ofEvents events) = .ok scanner) (sink : Sink) (calls : List Call) :
    let done := performAll ⟨scanner, sink⟩ calls
    done.2.sink = sink.reportAll (done.1.flatMap fun e => e.reply.reported) ∧
      ∀ e ∈ done.1,
        (∀ d ∈ e.reply.reported, d.Exact (done.2.scanner.cursor.linesRead (LineRead.ofEvents events))) ∧
          ∀ d, e.reply.answer = some (.error d) → d.EndsCall := by
  have hreads := LineRead.feedless_ofEvents events
  generalize LineRead.ofEvents events = reads at h hreads
  have hseen : Cursor.Seen reads scanner.cursor := by
    unfold Scanner.ofReads at h
    split at h
    · rename_i c hc
      obtain rfl := Except.ok.inj h
      exact .first hc
    · cases h
  have hanswers := answers_performAll hreads (s := ⟨scanner, sink⟩) hseen calls
  refine ⟨sink_performAll ⟨scanner, sink⟩ calls, fun e he => ?_⟩
  have hsound := hanswers.sound e.reply (List.mem_map_of_mem he)
  exact ⟨hsound.reported, hsound.failure⟩

/-- A read fails between two lines on which something is wrong. -/
theorem diagnostics_exact_after_failure :
    let events : List ReadEvent := [.chunk [0x24, 0x0A, 0x26], .failed "lost", .chunk [0x27, 0x0A]]
    let scanner : Scanner := ⟨⟨some [.failed "lost", .line ['\'']], ['$'], ['$'], 1, 1⟩, false⟩
    let done := performAll ⟨scanner, .collecting []⟩ [.nextToken, .next, .drain]
    Scanner.ofReads (LineRead.ofEvents events) = .ok scanner ∧
      done.2.sink = (Sink.collecting []).reportAll (done.1.flatMap fun e => e.reply.reported) ∧
        ∀ e ∈ done.1,
          (∀ d ∈ e.reply.reported, d.Exact (done.2.scanner.cursor.linesRead (LineRead.ofEvents events))) ∧
            ∀ d, e.reply.answer = some (.error d) → d.EndsCall := by
  have h : Scanner.ofReads (LineRead.ofEvents
      [.chunk [0x24, 0x0A, 0x26], .failed "lost", .chunk [0x27, 0x0A]]) =
      .ok ⟨⟨some [.failed "lost", .line ['\'']], ['$'], ['$'], 1, 1⟩, false⟩ := by
    decide
  exact ⟨h, diagnostics_exact h _ _⟩

end Session

end MiniLex
