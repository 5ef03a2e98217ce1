import MiniLex.Proofs.Buffer
import MiniLex.Proofs.Diagnostics
import MiniLex.Proofs.Looks
import MiniLex.Proofs.Unterminated

/-!
# After a failure

A call that fails leaves nothing of what it had begun. After a read that failed the cursor is on a line
feed, like the cursor before the first line, so that the reads still to come are scanned as a source of
their own; after the end of the source nothing is left to scan.

- `Cursor.Stopped reads d c`: a call has failed with `d` and left its cursor at `c`, for one of two
  reasons. Every failure has one of them (`Cursor.Led.stopped`, `Cursor.Seen.stopped`).
- `Cursor.Alike c d`: no call tells the one cursor from the other (`Scanner.nextTokens_of_alike`).
- `Scanner.fromStart`: the replies to calls for the tokens of a source, from its beginning.
- `Reply.outcome`: what a reply reports and answers.

Main statement: `Session.nextTokens_afresh`.
-/

namespace MiniLex

namespace Cursor

/-! ## Why calls fail -/

/-- The line reads still to come. -/
def unread (c : Cursor) : List LineRead :=
  c.pending.getD []

/-- Why a call fails, and where it leaves the cursor. -/
inductive Stopped (reads : List LineRead) : Diagnostic → Cursor → Prop where
  /-- One of the reads failed. The cursor is on a line feed, and the reads after that one come next. -/
  | failed {message : String} {rs : List LineRead} {c : Cursor} (read : .failed message :: rs <:+ reads)
      (pending : c.pending = some rs) (rest : c.rest = []) :
      Stopped reads ⟨.readFailed message, ⟨c.lineNumber + 1, 1⟩, ""⟩ c
  /-- A character was asked for after the end of the source. -/
  | pastEnd {d : Diagnostic} {c : Cursor} (cause : d.cause = .readPastEnd)
      (exhausted : c.isExhausted = true) : Stopped reads d c

section Stopped

variable {reads reads' : List LineRead} {before : List Char} {d : Diagnostic} {c next : Cursor}

theorem Stopped.mono (h : Stopped reads d c) (hreads : reads <:+ reads') : Stopped reads' d c := by
  cases h with
  | failed read pending rest => exact .failed (read.trans hreads) pending rest
  | pastEnd cause exhausted => exact .pastEnd cause exhausted

theorem unread_of_pending {rs : List LineRead} (h : c.pending = some rs) : c.unread = rs := by
  rw [unread, h]
  rfl

/-- The reads still to come are the last of all reads. -/
theorem Follows.unread_suffix (h : c.Follows reads before) : c.unread <:+ reads := by
  cases hp : c.pending with
  | none =>
    rw [unread, hp]
    exact List.nil_suffix
  | some rs =>
    rw [unread_of_pending hp]
    exact h.pending rs hp

/-- Moves leave the last of the reads to come. -/
theorem Moves.unread_suffix {n : Nat} (h : Moves c n next) : next.unread <:+ c.unread := by
  induction h with
  | nil => exact List.suffix_refl _
  | @advance c d last n advanced _ ih =>
    refine ih.trans ?_
    have hmoved := moved c
    rw [advanced] at hmoved
    cases hmoved with
    | skip _ _ => exact List.suffix_refl _
    | line pending _ =>
      rw [unread_of_pending pending]
      exact List.suffix_cons _ _
    | ended _ _ => exact List.nil_suffix

theorem stopped_of_advance {halt : Halt} (h : c.advance = .error halt) :
    Stopped c.unread halt.diagnostic halt.cursor := by
  have hmoved := moved c
  rw [h] at hmoved
  cases hmoved with
  | @failed message rs pending rest =>
    rw [unread_of_pending pending]
    exact .failed (c := { c with pending := some rs, column := c.column + 1 }) (List.suffix_refl _) rfl rest
  | pastEnd pending => exact .pastEnd rfl (by simp [isExhausted, pending])

/-- Moves that fail do so for one of the two reasons. -/
theorem Led.stopped {n : Nat} {halt : Halt} (h : Led c n (.error halt)) :
    Stopped c.unread halt.diagnostic halt.cursor := by
  cases h with
  | halted moves failed => exact (stopped_of_advance failed).mono moves.unread_suffix

/-- A call that fails does so for one of the two reasons. A read that failed was still to come. -/
theorem Seen.stopped_unread (hreads : Feedless reads) (hc : Seen reads c) (h : c.scan.answer = .error d) :
    Stopped c.unread d c.scan.cursor := by
  obtain ⟨n, hled⟩ := hc.led_scan hreads
  rw [Scan.moved, h] at hled
  exact hled.stopped

theorem Seen.stopped (hreads : Feedless reads) (hc : Seen reads c) (h : c.scan.answer = .error d) :
    Stopped reads d c.scan.cursor := by
  obtain ⟨before, hfollows⟩ := hc.follows hreads
  exact (hc.stopped_unread hreads h).mono hfollows.unread_suffix

/-- A look that fails reports nothing. -/
theorem Turned.reported_of_error {turn : Turn} (h : Turned reads before c turn)
    (hd : turn.answer = some (.error d)) : turn.reported = [] := by
  cases h with
  | @passed s notes next stream fits follows reported =>
    obtain ⟨t, -, ht⟩ := Option.map_eq_some_iff.mp hd
    cases ht
  | ended _ | unterminated _ _ _ | interrupted _ _ _ => rfl

end Stopped

/-! ## Cursors that come to the same -/

/-- Cursors that no call tells apart: the same line and the same reads come after them. -/
inductive Alike : Cursor → Cursor → Prop where
  | refl (c : Cursor) : Alike c c
  /-- On a line feed, neither the line nor the column matters any more. -/
  | feed {c d : Cursor} {rs : List LineRead} (pending : c.pending = some rs) (pending' : d.pending = some rs)
      (rest : c.rest = []) (rest' : d.rest = []) (lineNumber : c.lineNumber = d.lineNumber) : Alike c d

namespace Alike

variable {c d : Cursor}

theorem isExhausted (h : Alike c d) : c.isExhausted = d.isExhausted := by
  cases h with
  | refl => rfl
  | feed pending pending' _ _ _ => simp [Cursor.isExhausted, pending, pending']

theorem lineNumber (h : Alike c d) : c.lineNumber = d.lineNumber := by
  cases h with
  | refl => rfl
  | feed _ _ _ _ lineNumber => exact lineNumber

theorem turn (h : Alike c d) :
    c.turn.notes = d.turn.notes ∧ c.turn.answer = d.turn.answer ∧ Alike c.turn.cursor d.turn.cursor := by
  cases h with
  | refl => exact ⟨rfl, rfl, .refl _⟩
  | @feed _ rs pending pending' rest rest' lineNumber =>
    rw [turn_of_feed pending rest, turn_of_feed pending' rest']
    -- only a read that fails leaves anything of the line behind
    match rs with
    | [] =>
      rw [advanceLine, advanceLine, lineNumber]
      exact ⟨rfl, rfl, .refl _⟩
    | .line text :: rs =>
      rw [advanceLine, advanceLine, lineNumber]
      exact ⟨rfl, rfl, .refl _⟩
    | .failed message :: rs =>
      rw [advanceLine, advanceLine, lineNumber]
      exact ⟨rfl, rfl, .feed rfl rfl rest rest' rfl⟩

/-- The reads after a first one that failed are begun from a line feed, as before the first line. -/
theorem of_start {reads : List LineRead} {halt : Halt} (h : (start reads).advance = .error halt) :
    Alike (start reads.tail) halt.cursor := by
  cases reads with
  | nil => cases h
  | cons read reads =>
    cases read with
    | line text => cases h
    | failed message =>
      obtain rfl := Except.error.inj h
      exact .feed rfl rfl rfl rfl rfl

theorem scan (h : Alike c d) :
    c.scan.notes = d.scan.notes ∧ c.scan.answer = d.scan.answer ∧ Alike c.scan.cursor d.scan.cursor := by
  fun_induction Cursor.scan c generalizing d
  case case1 c answer hanswer =>
    obtain ⟨hnotes, hsame, hcursor⟩ := h.turn
    rw [scan_of_answer (hsame.symm.trans hanswer)]
    exact ⟨hnotes, rfl, hcursor⟩
  case case2 c hnone hlt later ih =>
    obtain ⟨hnotes, hsame, hcursor⟩ := h.turn
    obtain ⟨hlater, hanswer, hlast⟩ := ih hcursor
    rw [scan_of_none (hsame.symm.trans hnone)]
    exact ⟨by rw [hnotes, hlater], hanswer, hlast⟩

end Alike

end Cursor

namespace Scanner

/-- Scanners whose cursors are alike give the same replies. -/
theorem nextTokens_of_alike {c d : Cursor} (h : c.Alike d) (finished finished' : Bool) (k : Nat) :
    (Scanner.mk c finished).nextTokens k = (Scanner.mk d finished').nextTokens k := by
  induction k generalizing c d with
  | zero => rfl
  | succ k ih =>
    obtain ⟨hnotes, hanswer, hcursor⟩ := h.scan
    have hend : exhaustion c c.scan.cursor = exhaustion d d.scan.cursor := by
      simp only [exhaustion, h.isExhausted, hcursor.isExhausted, hcursor.lineNumber]
    have htoken : ∀ answer, tokenNote c.scan.cursor answer = tokenNote d.scan.cursor answer := by
      intro answer
      cases answer <;> simp [tokenNote, hcursor.lineNumber]
    have hreply : (Scanner.mk c finished).nextToken.1 = (Scanner.mk d finished').nextToken.1 := by
      simp only [nextToken, hnotes, hanswer, hend, htoken]
    rw [nextTokens, nextTokens, hreply]
    exact congrArg (_ :: ·) (ih hcursor)

end Scanner

/-! ## Sources from their beginning -/

/-- What a reply reports and answers. -/
def Reply.outcome (r : Reply) : List Diagnostic × Option (Except Diagnostic Token) :=
  (r.reported, r.answer)

namespace Scanner

/-- The replies to `k` calls for the tokens of a source, from its beginning. If no scanner can be made
of it, the failure is the first reply, and what is read after it is a source of its own. -/
def fromStart : List LineRead → Nat → List Reply
  | _, 0 => []
  | reads, k + 1 =>
    match ofReads reads with
    | .ok s => s.nextTokens (k + 1)
    | .error d => ⟨[], some (.error d)⟩ :: fromStart reads.tail k

theorem outcome_nextToken (s : Scanner) :
    s.nextToken.1.outcome = (s.cursor.scan.notes.filterMap Note.diagnostic?, some s.cursor.scan.answer) :=
  Prod.ext s.reported_nextToken rfl

/-- Before its first line, a source is called for its tokens as from the line feed of an empty line. -/
theorem outcome_fromStart (reads : List LineRead) (k : Nat) :
    (fromStart reads k).map Reply.outcome =
      ((Scanner.mk (.start reads) false).nextTokens k).map Reply.outcome := by
  induction k generalizing reads with
  | zero => rfl
  | succ k ih =>
    have hturn : (Cursor.start reads).turn = Turn.ofMove (Cursor.start reads).advance :=
      Cursor.turn_of_feed rfl rfl
    rw [fromStart, ofReads]
    cases hfirst : (Cursor.start reads).advance with
    | ok c =>
      -- the look that comes to the first character adds nothing to the first call
      have hscan : (Cursor.start reads).scan = c.scan := by
        rw [hfirst] at hturn
        rw [Cursor.scan_of_none (by rw [hturn]; rfl), hturn]
        rfl
      have hreply : (Scanner.mk c false).nextToken.1.outcome =
          (Scanner.mk (.start reads) false).nextToken.1.outcome := by
        rw [outcome_nextToken, outcome_nextToken, hscan]
      have hnext : (Scanner.mk (.start reads) false).nextToken.2 = (Scanner.mk c false).nextToken.2 := by
        simp only [nextToken, hscan]
      simp only [nextTokens, List.map_cons, hreply, hnext]
    | error halt =>
      rw [hfirst] at hturn
      have hscan : (Cursor.start reads).scan = ⟨[], .error halt.diagnostic, halt.cursor⟩ := by
        have hanswer : (Cursor.start reads).turn.answer = some (.error halt.diagnostic) := by
          rw [hturn]
          rfl
        rw [Cursor.scan_of_answer hanswer, hturn]
        rfl
      have hreply : (Scanner.mk (.start reads) false).nextToken.1.outcome =
          ([], some (.error halt.diagnostic)) := by
        rw [outcome_nextToken, hscan]
        rfl
      have halike := Cursor.Alike.of_start hfirst
      have hnext : (Scanner.mk (.start reads) false).nextToken.2 = ⟨halt.cursor, false⟩ := by
        simp only [nextToken, hscan]
      simp only [nextTokens, List.map_cons, hreply, hnext, ih, nextTokens_of_alike halike false false]
      rfl

end Scanner

/-! ## What is left of a source -/

/-- The reads after one that failed are those of what the source delivers after the failure. -/
theorem LineRead.ofHeld_suffix {events : List ReadEvent} {held : List UInt8} {message : String}
    {rs : List LineRead} (h : .failed message :: rs <:+ ofHeld held events) :
    ∃ later, .failed message :: later <:+ events ∧ rs = ofEvents later := by
  induction events generalizing held with
  | nil =>
    rw [ofHeld] at h
    split at h
    · exact absurd (List.suffix_nil.mp h) (by simp)
    · obtain ⟨front, hfront⟩ := h
      have hmem : .failed message ∈ [ofBytes held] := hfront ▸ List.mem_append_right _ (List.mem_cons_self ..)
      cases List.mem_singleton.mp hmem
  | cons event events ih =>
    -- lines that were read before are no failures
    have hbehind : ∀ lines : List (List UInt8), ∀ held,
        .failed message :: rs <:+ lines.map ofBytes ++ ofHeld held events →
          ∃ later, .failed message :: later <:+ event :: events ∧ rs = ofEvents later := by
      intro lines held hsuffix
      have hlater : .failed message :: rs <:+ ofHeld held events := by
        induction lines with
        | nil => exact hsuffix
        | cons line lines ihlines =>
          rcases List.suffix_cons_iff.mp hsuffix with heq | hsuffix
          · cases (List.cons.inj heq).1
          · exact ihlines hsuffix
      obtain ⟨later, hfailed, hrs⟩ := ih hlater
      exact ⟨later, hfailed.trans (List.suffix_cons _ _), hrs⟩
    cases event with
    | chunk bytes => exact hbehind _ _ h
    | interrupted => exact hbehind [] held h
    | failed message' =>
      rw [ofHeld] at h
      rcases List.suffix_cons_iff.mp h with heq | hsuffix
      · obtain ⟨hmessage, hrs⟩ := List.cons.inj heq
        obtain rfl := LineRead.failed.inj hmessage
        exact ⟨events, List.suffix_refl _, hrs⟩
      · exact hbehind [] [] hsuffix
    | ended =>
      rw [ofHeld] at h
      split at h
      · exact absurd (List.suffix_nil.mp h) (by simp)
      · exact hbehind [held] [] h

theorem LineRead.ofEvents_suffix {events : List ReadEvent} {message : String} {rs : List LineRead}
    (h : .failed message :: rs <:+ ofEvents events) :
    ∃ later, .failed message :: later <:+ events ∧ rs = ofEvents later :=
  ofHeld_suffix h

/-! ## Sessions -/

namespace Cursor

variable {reads : List LineRead} {c : Cursor}

/-- From a line feed, what the source still delivers is scanned as from its beginning, below the lines
that were read before. -/
theorem outcome_of_feed {rs : List LineRead} (hp : c.pending = some rs) (hrest : c.rest = [])
    (finished : Bool) (k : Nat) :
    ((Scanner.mk c finished).nextTokens k).map Reply.outcome =
      ((Scanner.fromStart rs k).map (Reply.lower c.lineNumber)).map Reply.outcome := by
  have halike : c.Alike ((start rs).lower c.lineNumber) :=
    .feed hp rfl hrest rfl (Nat.zero_add _).symm
  have hlower : ∀ r : Reply, (r.lower c.lineNumber).outcome =
      (r.outcome.1.map (Diagnostic.lower c.lineNumber), r.outcome.2.map (lowerAnswer c.lineNumber)) :=
    fun r => Prod.ext (Reply.reported_lower _ r) rfl
  rw [Scanner.nextTokens_of_alike halike finished false, Scanner.nextTokens_lower _ _ false false]
  -- what a reply is further down hangs only on what it reports and answers
  have hmap : ∀ replies : List Reply, (replies.map (Reply.lower c.lineNumber)).map Reply.outcome =
      (replies.map Reply.outcome).map fun o =>
        (o.1.map (Diagnostic.lower c.lineNumber), o.2.map (lowerAnswer c.lineNumber)) := by
    intro replies
    simp only [List.map_map]
    exact List.map_congr_left fun r _ => hlower r
  rw [hmap, hmap, Scanner.outcome_fromStart]

/-- A call that fails passes over what it reports, and then fails in a look that reports nothing and may
have passed over a part of what it opened. -/
theorem Seen.exists_opened {d : Diagnostic} (hreads : Feedless reads) (hc : Seen reads c)
    (h : c.scan.answer = .error d) :
    ∃ opened skipped, c.Looks ((c.scan.notes.filterMap Note.diagnostic?).map .reported) opened ∧
      opened.turn.answer = some (.error d) ∧ opened.turn.reported = [] ∧
        opened.stream = skipped ++ c.scan.cursor.stream := by
  obtain ⟨reported, opened, hlooks, hturn, hcursor, hreported⟩ := c.looks_scan
  rw [h] at hturn
  obtain ⟨before, hopened⟩ := (hlooks.seen hc).follows hreads
  have hnothing := (hopened.turned hreads).reported_of_error hturn
  rw [hnothing, List.append_nil] at hreported
  obtain ⟨skipped, hskipped, -⟩ := (hopened.turned hreads).follows hopened
  rw [hcursor] at hskipped
  rw [hreported]
  exact ⟨opened, skipped, hlooks, hturn, hnothing, hskipped⟩

/-- After the end of the source every call gives the end and reports nothing. -/
theorem outcome_of_exhausted (hx : c.isExhausted = true) (finished : Bool) (k : Nat) :
    ∀ r ∈ (Scanner.mk c finished).nextTokens k, r.outcome = ([], some (.ok .eof)) := by
  induction k with
  | zero => simp [Scanner.nextTokens]
  | succ k ih =>
    have hscan := scan_of_exhausted hx
    have hnext : (Scanner.mk c finished).nextToken.2 = ⟨c, finished⟩ := by
      rw [Scanner.nextToken, hscan]
    intro r hr
    rw [Scanner.nextTokens, hnext, List.mem_cons] at hr
    rcases hr with rfl | hr
    · rw [Scanner.outcome_nextToken, hscan]
      rfl
    · exact ih r hr

end Cursor

open Cursor in
/-- Whatever the reads of a source come to, and whichever calls are made: a call for the next token that
fails has passed over what comes before without a token, and the look in which it fails, though it may
have passed over a part of a string literal or of a comment, reports nothing. If a read failed, later
calls for the next token report and answer what those do that scan what the source still delivers from
its beginning, below the lines that were read before. If the end of the source was met, they give the
end and report nothing. -/
theorem Session.nextTokens_afresh {events : List ReadEvent} {scanner : Scanner}
    (h : Scanner.ofReads (LineRead.ofEvents events) = .ok scanner) (sink : Sink) (calls : List Call)
    {d : Diagnostic}
    (hd : (performAll ⟨scanner, sink⟩ calls).2.scanner.nextToken.1.answer = some (.error d)) :
    let s := (performAll ⟨scanner, sink⟩ calls).2.scanner
    let after := s.nextToken.2
    let read := (after.cursor.linesRead (LineRead.ofEvents events)).length
    (∃ opened skipped, s.cursor.Looks (s.nextToken.1.reported.map .reported) opened ∧
        opened.turn.answer = some (.error d) ∧ opened.turn.reported = [] ∧
          opened.stream = skipped ++ after.cursor.stream) ∧
      (d.cause = .readPastEnd ∨ ∃ message, d = ⟨.readFailed message, ⟨read + 1, 1⟩, ""⟩) ∧
      (∀ message, d.cause = .readFailed message →
        ∃ later, .failed message :: later <:+ events ∧
          after.cursor.pending = some (LineRead.ofEvents later) ∧ ∀ k,
            (after.nextTokens k).map Reply.outcome =
              ((Scanner.fromStart (LineRead.ofEvents later) k).map (Reply.lower read)).map
                Reply.outcome) ∧
      (d.cause = .readPastEnd → ∀ k, ∀ r ∈ after.nextTokens k, r.outcome = ([], some (.ok .eof))) := by
  intro s after read
  have hreads : Feedless (LineRead.ofEvents events) := LineRead.feedless_ofEvents events
  have hseen : Seen (LineRead.ofEvents events) s.cursor :=
    (replies_performAll ⟨scanner, sink⟩ calls).seen (Scanner.seen_of_ofReads h)
  have hanswer : s.cursor.scan.answer = .error d := Option.some.inj hd
  have hafter : after = ⟨s.cursor.scan.cursor, s.finished⟩ := rfl
  have hstopped := hseen.stopped hreads hanswer
  obtain ⟨before, hfollows⟩ := hseen.scan.follows hreads
  have hread : read = s.cursor.scan.cursor.lineNumber := hfollows.length_linesRead hreads
  refine ⟨?_, ?_, ?_, ?_⟩
  · rw [s.reported_nextToken]
    exact hseen.exists_opened hreads hanswer
  · rw [hread]
    cases hstopped with
    | failed _ _ _ => exact .inr ⟨_, rfl⟩
    | pastEnd cause _ => exact .inl cause
  · intro message hmessage
    cases hstopped with
    | pastEnd cause _ => rw [cause] at hmessage; cases hmessage
    | failed failed pending rest =>
      obtain rfl := Cause.readFailed.inj hmessage
      obtain ⟨later, hlater, rfl⟩ := LineRead.ofEvents_suffix failed
      rw [hafter, hread]
      exact ⟨later, hlater, pending, fun k => outcome_of_feed pending rest _ k⟩
  · intro hcause k
    cases hstopped with
    | failed _ _ _ => cases hcause
    | pastEnd _ exhausted => exact outcome_of_exhausted exhausted _ k

/-- Two reads fail one after the other within a string literal, and a string literal that is not closed
comes after them. -/
theorem Session.nextTokens_afresh_within_string :
    let events : List ReadEvent :=
      [.chunk [0x24, 0x22, 0x61, 0x0A], .failed "lost", .failed "gone", .chunk [0x24, 0x0A, 0x22]]
    let reads := LineRead.ofEvents events
    let scanner : Scanner :=
      ⟨⟨some [.failed "lost", .failed "gone", .line ['$'], .line ['"']], ['$', '"', 'a'], ['$', '"', 'a'], 1, 1⟩,
        false⟩
    let d : Diagnostic := ⟨.readFailed "lost", ⟨2, 1⟩, ""⟩
    let s := (performAll ⟨scanner, .collecting []⟩ []).2.scanner
    let after := s.nextToken.2
    let read := (after.cursor.linesRead reads).length
    (Scanner.ofReads reads = .ok scanner ∧ s.nextToken.1.answer = some (.error d)) ∧
      (∃ opened skipped, s.cursor.Looks (s.nextToken.1.reported.map .reported) opened ∧
        opened.turn.answer = some (.error d) ∧ opened.turn.reported = [] ∧
          opened.stream = skipped ++ after.cursor.stream) ∧
      ∃ later, .failed "lost" :: later <:+ events ∧ after.cursor.pending = some (LineRead.ofEvents later) ∧
        ∀ k, (after.nextTokens k).map Reply.outcome =
          ((Scanner.fromStart (LineRead.ofEvents later) k).map (Reply.lower read)).map Reply.outcome := by
  intro events reads scanner d s after read
  have hscanner : Scanner.ofReads reads = .ok scanner := by decide
  have hanswer : s.nextToken.1.answer = some (.error d) := by decide +kernel
  obtain ⟨hforgotten, -, hafresh, -⟩ := nextTokens_afresh hscanner (.collecting []) [] hanswer
  exact ⟨⟨hscanner, hanswer⟩, hforgotten, hafresh "lost" rfl⟩

end MiniLex
