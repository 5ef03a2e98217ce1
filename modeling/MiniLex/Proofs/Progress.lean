import MiniLex.Proofs.Output
import MiniLex.Proofs.Restart

/-!
# Calls for the next token come to an end

Every call ends, and so do the calls that give anything: each one that does not give the end of the source
has used up a character that ends no line, or a read that failed, or it has met the end of the source.

- `bulk cs`: the number of characters that end no line. A segment has at least as many of them as it has
  tokens and reports (`Segment.Fits.gain_le_bulk`).
- `Cursor.Answered c looks moves`: a call ends, after so many looks and so many moves.
- `Yield.isGain`: a token or a report. What a look, a call or a run of calls passes over pays for those
  that it yields (`Cursor.Follows.gain_turn`, `Cursor.Follows.gain_scan`, `Scanner.gain_nextTokens`).
- `Cursor.callsLeft`: the measure that goes down with every call which does not give the end of the source
  (`Cursor.Seen.callsLeft_scan`).

Main statement: `Scanner.nextTokens_bounded`.
-/

namespace MiniLex

/-! ## Characters that end no line -/

/-- The number of characters that end no line. -/
def bulk (cs : List Char) : Nat :=
  cs.countP (· != '\n')

theorem bulk_append (cs ds : List Char) : bulk (cs ++ ds) = bulk cs + bulk ds :=
  List.countP_append

theorem bulk_cons {c : Char} (h : c ≠ '\n') (cs : List Char) : bulk (c :: cs) = bulk cs + 1 :=
  List.countP_cons_of_pos (by simpa using h)

theorem exists_of_bulk_pos {cs : List Char} (h : 0 < bulk cs) : ∃ ch ∈ cs, ch ≠ '\n' := by
  simpa [bulk, List.countP_pos_iff] using h

theorem Lexeme.bulk_pos {t : Token} {w : List Char} (h : Lexeme t w) : 0 < bulk w := by
  obtain ⟨c, cs, rfl⟩ := List.exists_cons_of_ne_nil h.ne_nil
  have hfeed : c ≠ '\n' := by
    rintro rfl
    exact IsSpace.barren (.inr (.inr (.inr rfl))) cs t _ h (List.prefix_refl _)
  rw [bulk_cons hfeed]
  omega

theorem IsCharUnit.bulk_pos {unit : List Char} (h : IsCharUnit unit) : 0 < bulk unit := by
  cases h with
  | plain feed _ =>
    rw [bulk_cons feed]
    omega
  | escaped _ =>
    rw [bulk_cons (by decide)]
    omega

namespace Segment

theorem length_reports_le (before rest : List Char) (s : Segment) : (s.reports before rest).length ≤ 1 := by
  unfold reports
  split
  · exact Nat.zero_le 1
  · exact Nat.le_refl 1

/-- A segment has a character that ends no line for its token, and one for what it reports. -/
theorem Fits.gain_le_bulk {s : Segment} {rest : List Char} (h : s.Fits rest) (before : List Char) :
    (s.reports before rest).length + s.token?.toList.length ≤ bulk s.text := by
  have hreports := s.length_reports_le before rest
  cases h with
  | blank _ | comment _ => exact Nat.zero_le _
  | @token t text _ longest _ _ =>
    rw [longest.lexeme.reports]
    exact longest.lexeme.bulk_pos
  | @unclosed unit _ logical _ =>
    -- the token and the report have a character each
    have hunit := logical.bulk_pos
    show _ + 1 ≤ bulk ('\'' :: unit)
    rw [bulk_cons (by decide)]
    omega
  | @illegal c _ illegal =>
    have hfeed : c ≠ '\n' := fun hc => illegal.1 (.inr (.inr (.inr hc)))
    show _ ≤ bulk [c]
    rw [bulk_cons hfeed]
    exact hreports.trans (Nat.le_add_left ..)
  | @lone c _ half _ =>
    have hfeed : c ≠ '\n' := by rcases half with rfl | rfl <;> decide
    show _ ≤ bulk [c]
    rw [bulk_cons hfeed]
    exact hreports.trans (Nat.le_add_left ..)
  | @number m e _ mantissa _ _ _ =>
    obtain ⟨d, ds, rfl, hnumber⟩ := mantissa.head
    have hfeed : d ≠ '\n' := by
      rintro rfl
      exact absurd hnumber (by decide)
    show _ ≤ bulk (d :: (ds ++ e))
    rw [bulk_cons hfeed]
    exact hreports.trans (Nat.le_add_left ..)
  | @opener text _ opener _ =>
    refine hreports.trans ?_
    rcases opener with rfl | rfl <;> decide

end Segment

/-! ## Gains -/

/-- Whether a look or a call has gained something: a token or a report. A failure is none, nor is the end of
the source. -/
def Yield.isGain : Yield → Bool
  | .reported _ => true
  | .failed _ => false
  | .token t => !t.isEof

theorem countP_isGain_reported (ds : List Diagnostic) :
    (ds.map Yield.reported).countP Yield.isGain = ds.length := by
  rw [List.countP_map]
  exact congrFun List.countP_true ds

/-- The gains of replies are their tokens and their reports. -/
theorem countP_isGain_yields (replies : List Reply) :
    (replies.flatMap Reply.yields).countP Yield.isGain =
      (replies.filterMap Reply.token?).length + (replies.flatMap Reply.reported).length := by
  induction replies with
  | nil => rfl
  | cons r replies ih =>
    have hanswer : ((r.answer.map Yield.ofAnswer).toList).countP Yield.isGain = r.token?.toList.length := by
      unfold Reply.token?
      cases r.answer with
      | none => rfl
      | some answer =>
        cases answer with
        | error d => rfl
        | ok t => cases ht : t.isEof <;> simp [Yield.ofAnswer, Yield.isGain, ht]
    have htokens : ((r :: replies).filterMap Reply.token?).length =
        r.token?.toList.length + (replies.filterMap Reply.token?).length := by
      cases ht : r.token? with
      | none => simp [ht]
      | some t => simp [ht, Nat.add_comm]
    rw [List.flatMap_cons, List.countP_append, ih, Reply.yields, List.countP_append, countP_isGain_reported,
      hanswer, htokens, List.flatMap_cons, List.length_append]
    omega

namespace Cursor

section Gain

variable {reads : List LineRead} {before : List Char} {c : Cursor}

/-- The characters that a look passes over pay for what it gains. -/
theorem Follows.gain_turn (hreads : Feedless reads) (h : c.Follows reads before) :
    ∃ passed, c.stream = passed ++ c.turn.cursor.stream ∧ c.turn.cursor.Follows reads (before ++ passed) ∧
      c.turn.yields.countP Yield.isGain ≤ bulk passed := by
  have hturned := h.turned hreads
  generalize c.turn = turn at hturned
  cases hturned with
  | @passed s notes next stream fits follows reported =>
    refine ⟨s.text, stream, follows, ?_⟩
    have hreported : Turn.reported ⟨notes, s.token?.map .ok, next⟩ = s.reports before next.stream := reported
    have htoken : (((s.token?.map Except.ok).map Yield.ofAnswer).toList).countP Yield.isGain =
        s.token?.toList.length := by
      cases ht : s.token? with
      | none => rfl
      | some t => simp [Yield.ofAnswer, Yield.isGain, fits.not_isEof ht]
    rw [Turn.yields, List.countP_append, hreported, countP_isGain_reported, htoken]
    exact fits.gain_le_bulk before
  | ended _ => exact ⟨[], rfl, by rwa [List.append_nil], Nat.le_refl 0⟩
  | unterminated _ exhausted follows =>
    refine ⟨c.stream, ?_, follows, Nat.zero_le _⟩
    rw [stream_of_exhausted exhausted, List.append_nil]
  | interrupted _ stream follows => exact ⟨_, stream, follows, Nat.zero_le _⟩

/-- The characters that a scan passes over pay for what it gains. -/
theorem Follows.gain_scan (hreads : Feedless reads) (h : c.Follows reads before) :
    ∃ passed, c.stream = passed ++ c.scan.cursor.stream ∧ c.scan.cursor.Follows reads (before ++ passed) ∧
      c.reply.yields.countP Yield.isGain ≤ bulk passed := by
  fun_induction Cursor.scan c generalizing before
  case case1 c answer hanswer =>
    have hyields : c.reply.yields = c.turn.yields := (yields_of_some false hanswer).1
    rw [hyields]
    exact h.gain_turn hreads
  case case2 c hnone hlt later ih =>
    have hyields : c.reply.yields = c.turn.yields ++ c.turn.cursor.reply.yields := (yields_of_none false hnone).1
    obtain ⟨passed, hstream, hnext, hturn⟩ := h.gain_turn hreads
    obtain ⟨passed', hstream', hlast, hlater⟩ := ih hnext
    refine ⟨passed ++ passed', ?_, ?_, ?_⟩
    · rw [hstream, hstream', List.append_assoc]
    · rwa [← List.append_assoc]
    · rw [hyields, List.countP_append, bulk_append]
      omega

theorem gain_pos_of_token (c : Cursor) {t : Token} (h : c.scan.answer = .ok t) (ht : t.isEof = false) :
    0 < c.reply.yields.countP Yield.isGain := by
  have hreply : c.reply.answer = some (.ok t) := congrArg some h
  refine List.countP_pos_iff.mpr ⟨.token t, ?_, by rw [Yield.isGain, ht]; rfl⟩
  rw [Reply.yields, hreply]
  exact List.mem_append_right _ (List.mem_singleton_self _)

end Gain

/-! ## Calls end -/

/-- The cursor after a look. -/
def look (c : Cursor) : Cursor :=
  c.turn.cursor

/-- A call from the cursor ends. So many looks answer nothing and the one after them answers the call, and
together they are made of so many moves and perhaps one that fails. -/
structure Answered (c : Cursor) (looks moves : Nat) : Prop where
  unanswered : ∀ i < looks, (look^[i] c).turn.answer = none
  answered : (look^[looks] c).turn.answer = some c.scan.answer
  cursor : look^[looks + 1] c = c.scan.cursor
  led : c.Led moves c.scan.moved

theorem Led.le_length {c : Cursor} {n : Nat} {result : Except Halt Cursor} (h : c.Led n result) :
    n ≤ c.stream.length := by
  cases h with
  | arrived moves | halted moves _ =>
    rw [moves.length_stream]
    exact Nat.le_add_right ..

/-- The looks of a call: each one without an answer leaves fewer characters ahead. -/
theorem exists_looks (c : Cursor) :
    ∃ looks ≤ c.stream.length, (∀ i < looks, (look^[i] c).turn.answer = none) ∧
      (look^[looks] c).turn.answer = some c.scan.answer ∧ look^[looks + 1] c = c.scan.cursor := by
  fun_induction Cursor.scan c with
  | case1 c answer hanswer => exact ⟨0, Nat.zero_le _, fun i hi => absurd hi (Nat.not_lt_zero i), hanswer, rfl⟩
  | case2 c hnone hlt later ih =>
    obtain ⟨looks, hle, hunanswered, hanswered, hcursor⟩ := ih
    refine ⟨looks + 1, by omega, fun i hi => ?_, hanswered, hcursor⟩
    cases i with
    | zero => exact hnone
    | succ i => exact hunanswered i (by omega)

theorem Seen.answered {reads : List LineRead} {c : Cursor} (hreads : Feedless reads) (h : Seen reads c) :
    ∃ looks moves, c.Answered looks moves ∧ looks ≤ c.stream.length ∧ moves ≤ c.stream.length := by
  obtain ⟨looks, hlooks, hunanswered, hanswered, hcursor⟩ := c.exists_looks
  obtain ⟨moves, hled⟩ := h.led_scan hreads
  exact ⟨looks, moves, ⟨hunanswered, hanswered, hcursor, hled⟩, hlooks, hled.le_length⟩

end Cursor

/-! ## The measure -/

/-- Whether the attempt to read a line failed. -/
def LineRead.isFailed : LineRead → Bool
  | .line _ => false
  | .failed _ => true

/-- Whether a read for bytes fails. -/
def ReadEvent.isFailed : ReadEvent → Bool
  | .failed _ => true
  | .chunk _ | .interrupted | .ended => false

theorem LineRead.countP_isFailed_ofHeld (held : List UInt8) (events : List ReadEvent) :
    (ofHeld held events).countP isFailed ≤ events.countP ReadEvent.isFailed := by
  have hlines : ∀ lines : List (List UInt8), (lines.map ofBytes).countP isFailed = 0 := by
    intro lines
    rw [List.countP_map]
    exact congrFun List.countP_false lines
  induction events generalizing held with
  | nil =>
    rw [ofHeld]
    split <;> exact Nat.zero_le 0
  | cons event events ih =>
    cases event with
    | chunk bytes =>
      rw [ofHeld, List.countP_append, hlines, Nat.zero_add]
      exact ih _
    | interrupted => exact ih held
    | failed message =>
      rw [ofHeld, List.countP_cons_of_pos rfl, List.countP_cons_of_pos rfl]
      exact Nat.succ_le_succ (ih [])
    | ended =>
      rw [ofHeld]
      split
      · exact Nat.zero_le _
      · exact ih []

namespace Cursor

variable {reads : List LineRead} {c next : Cursor}

/-- A bound on the calls that do not give the end of the source. -/
def callsLeft (c : Cursor) : Nat :=
  bulk c.stream + c.unread.countP LineRead.isFailed + if c.isExhausted then 0 else 1

theorem callsLeft_of_exhausted (hx : c.isExhausted = true) : c.callsLeft = 0 := by
  have hpending : c.pending = none := by simpa [isExhausted] using hx
  rw [callsLeft, stream_of_exhausted hx, hx, unread, hpending]
  rfl

/-- A call that fails has used up a read that failed, or it has met the end of the source. -/
theorem Stopped.countP_isFailed_lt {d : Diagnostic} (h : Stopped reads d next) :
    next.isExhausted = true ∨ next.unread.countP LineRead.isFailed < reads.countP LineRead.isFailed := by
  cases h with
  | failed read pending rest =>
    refine .inr ?_
    have hread := read.sublist.countP_le (p := LineRead.isFailed)
    rwa [List.countP_cons_of_pos rfl, ← unread_of_pending pending] at hread
  | pastEnd cause exhausted => exact .inl exhausted

/-- The token that ends a source is given at its end only, and nothing is ahead after it. -/
theorem Seen.exhausted_of_isEof (hreads : Feedless reads) (h : Seen reads c) {t : Token}
    (hanswer : c.scan.answer = .ok t) (ht : t.isEof = true) : t = .eof ∧ c.scan.cursor.isExhausted = true := by
  fun_induction Cursor.scan c with
  | case1 c answer hturn =>
    obtain rfl : answer = .ok t := hanswer
    obtain ⟨before, hfollows⟩ := h.follows hreads
    have hx := (hfollows.turned hreads).exhausted_of_isEof hturn ht
    rw [turn_of_exhausted hx] at hturn ⊢
    obtain rfl := Except.ok.inj (Option.some.inj hturn)
    exact ⟨rfl, hx⟩
  | case2 c hnone hlt later ih => exact ih h.turn hanswer

/-- A call that does not give the end of the source has used up a character that ends no line, or a read
that failed, or it has met the end. -/
theorem Seen.callsLeft_scan (hreads : Feedless reads) (h : Seen reads c) (hend : c.scan.answer ≠ .ok .eof) :
    c.scan.cursor.callsLeft < c.callsLeft := by
  have hx : c.isExhausted = false := by
    by_contra hx
    rw [Bool.not_eq_false] at hx
    exact hend (by rw [scan_of_exhausted hx])
  obtain ⟨before, hfollows⟩ := h.follows hreads
  obtain ⟨passed, hstream, -, hgain⟩ := hfollows.gain_scan hreads
  obtain ⟨n, hled⟩ := h.led_scan hreads
  have hbefore : c.callsLeft =
      bulk passed + bulk c.scan.cursor.stream + c.unread.countP LineRead.isFailed + 1 := by
    rw [callsLeft, hstream, bulk_append, hx]
    rfl
  have hafter : c.scan.cursor.callsLeft ≤
      bulk c.scan.cursor.stream + c.scan.cursor.unread.countP LineRead.isFailed + 1 := by
    unfold callsLeft
    split <;> omega
  cases hanswer : c.scan.answer with
  | ok t =>
    have ht : t.isEof = false := by
      by_contra ht
      rw [Bool.not_eq_false] at ht
      exact hend (by rw [hanswer, (h.exhausted_of_isEof hreads hanswer ht).1])
    have hpaid := c.gain_pos_of_token hanswer ht
    have hunread : c.scan.cursor.unread.countP LineRead.isFailed ≤ c.unread.countP LineRead.isFailed := by
      rw [Scan.moved, hanswer] at hled
      cases hled with
      | arrived moves => exact moves.unread_suffix.sublist.countP_le
    omega
  | error d =>
    rcases (h.stopped_unread hreads hanswer).countP_isFailed_lt with hlast | hunread
    · rw [callsLeft_of_exhausted hlast]
      omega
    · omega

end Cursor

/-! ## Runs of calls -/

namespace Scanner

variable {reads : List LineRead} {before : List Char} {s : Scanner}

/-- The scanner after `k` calls for the next token. -/
def afterTokens (s : Scanner) : Nat → Scanner
  | 0 => s
  | k + 1 => s.nextToken.2.afterTokens k

/-- A scanner that has just been made is on the first character. -/
theorem follows_of_ofReads (hreads : Feedless reads) (h : ofReads reads = .ok s) :
    s.cursor.Follows reads [] := by
  obtain ⟨c, hc, rfl⟩ := ofReads_eq_ok.mp h
  exact .of_start hreads hc

theorem seen_afterTokens (h : Cursor.Seen reads s.cursor) (k : Nat) :
    Cursor.Seen reads (s.afterTokens k).cursor := by
  induction k generalizing s with
  | zero => exact h
  | succ k ih => exact ih (s := s.nextToken.2) h.scan

/-- The characters that calls pass over pay for what they gain. -/
theorem gain_nextTokens (hreads : Feedless reads) (h : s.cursor.Follows reads before) (k : Nat) :
    ∃ passed, s.cursor.stream = passed ++ (s.afterTokens k).cursor.stream ∧
      ((s.nextTokens k).flatMap Reply.yields).countP Yield.isGain ≤ bulk passed := by
  induction k generalizing s before with
  | zero => exact ⟨[], rfl, Nat.le_refl 0⟩
  | succ k ih =>
    obtain ⟨passed, hstream, hnext, hgain⟩ := h.gain_scan hreads
    obtain ⟨passed', hstream', hlater⟩ := ih (s := s.nextToken.2) hnext
    have hreply : s.nextToken.1 = s.cursor.reply := rfl
    refine ⟨passed ++ passed', ?_, ?_⟩
    · rw [hstream, List.append_assoc]
      exact congrArg (passed ++ ·) hstream'
    · rw [nextTokens, List.flatMap_cons, List.countP_append, bulk_append, hreply]
      omega

theorem le_callsLeft (hreads : Feedless reads) (h : Cursor.Seen reads s.cursor) {k : Nat}
    (hend : ∀ r ∈ s.nextTokens k, r.answer ≠ some (.ok .eof)) : k ≤ s.cursor.callsLeft := by
  induction k generalizing s with
  | zero => exact Nat.zero_le _
  | succ k ih =>
    rw [nextTokens, List.forall_mem_cons] at hend
    have hlater := ih (s := s.nextToken.2) h.scan hend.2
    have hless := h.callsLeft_scan hreads fun hanswer => hend.1 (congrArg some hanswer)
    exact Nat.succ_le_of_lt (Nat.lt_of_le_of_lt hlater hless)

theorem exhausted_afterTokens (hx : s.cursor.isExhausted = true) (k : Nat) :
    (s.afterTokens k).cursor.isExhausted = true := by
  induction k generalizing s with
  | zero => exact hx
  | succ k ih =>
    refine ih (s := s.nextToken.2) ?_
    show s.cursor.scan.cursor.isExhausted = true
    rw [Cursor.scan_of_exhausted hx]
    exact hx

/-- Once a call has given the end of the source, nothing is ahead any more. -/
theorem exhausted_of_eof (hreads : Feedless reads) (h : Cursor.Seen reads s.cursor) {k : Nat}
    (hend : ∃ r ∈ s.nextTokens k, r.answer = some (.ok .eof)) : (s.afterTokens k).cursor.isExhausted = true := by
  induction k generalizing s with
  | zero =>
    obtain ⟨r, hr, -⟩ := hend
    exact absurd hr List.not_mem_nil
  | succ k ih =>
    obtain ⟨r, hr, heof⟩ := hend
    rcases List.mem_cons.mp hr with rfl | hr
    · have hlast := h.exhausted_of_isEof hreads (Option.some.inj heof) rfl
      exact exhausted_afterTokens (s := s.nextToken.2) hlast.2 k
    · exact ih (s := s.nextToken.2) h.scan ⟨r, hr, heof⟩

end Scanner

/-- Whether the reply is the failure to read on at the end of the source. -/
def Reply.isPastEnd (r : Reply) : Bool :=
  match r.answer with
  | some (.error d) => d.cause == .readPastEnd
  | _ => false

namespace Scanner

/-- Only one call fails at the end of the source: those after it give the end. -/
theorem countP_isPastEnd_le {reads : List LineRead} {s : Scanner} (hreads : Feedless reads)
    (h : Cursor.Seen reads s.cursor) (k : Nat) : (s.nextTokens k).countP Reply.isPastEnd ≤ 1 := by
  induction k generalizing s with
  | zero => exact Nat.zero_le 1
  | succ k ih =>
    rw [nextTokens]
    cases hfirst : s.nextToken.1.isPastEnd with
    | false =>
      rw [List.countP_cons_of_neg (by simp [hfirst])]
      exact ih (s := s.nextToken.2) h.scan
    | true =>
      have hnone : (s.nextToken.2.nextTokens k).countP Reply.isPastEnd = 0 := by
        cases hanswer : s.cursor.scan.answer with
        | ok t =>
          have hreply : s.nextToken.1.answer = some (.ok t) := congrArg some hanswer
          rw [Reply.isPastEnd, hreply] at hfirst
          cases hfirst
        | error d =>
          have hreply : s.nextToken.1.answer = some (.error d) := congrArg some hanswer
          have hcause : d.cause = .readPastEnd := by
            rw [Reply.isPastEnd, hreply] at hfirst
            exact of_decide_eq_true hfirst
          have hstopped := h.stopped hreads hanswer
          cases hstopped with
          | failed _ _ _ => cases hcause
          | pastEnd _ exhausted =>
            rw [List.countP_eq_zero]
            intro r hr
            have houtcome := Cursor.outcome_of_exhausted exhausted s.finished k r hr
            have hr : r.answer = some (.ok .eof) := congrArg Prod.snd houtcome
            simp [Reply.isPastEnd, hr]
      rw [List.countP_cons_of_pos hfirst, hnone]

/-- Calls for the next token, `k` of them, whatever the reads come to. The call after them ends, and if it
gives a token, it has passed over a character that ends no line. If none of them has given the end of the
source, they are no more than the characters that end no line, the failures and one. Their tokens and
reports together are no more than those characters. At most one of them fails at the end of the source, and
if one has given the end, the call after them gives the end and reports nothing. -/
theorem nextTokens_bounded {events : List ReadEvent} {scanner : Scanner}
    (h : ofReads (LineRead.ofEvents events) = .ok scanner) (k : Nat) :
    let available := bulk (delivered (LineRead.ofEvents events))
    let replies := scanner.nextTokens k
    let s := scanner.afterTokens k
    (∃ looks moves, s.cursor.Answered looks moves ∧ looks ≤ s.cursor.stream.length ∧
        moves ≤ s.cursor.stream.length) ∧
      (∀ t, s.nextToken.1.answer = some (.ok t) → t.isEof = false →
        ∃ passed, s.cursor.stream = passed ++ s.nextToken.2.cursor.stream ∧ ∃ ch ∈ passed, ch ≠ '\n') ∧
      ((∀ r ∈ replies, r.answer ≠ some (.ok .eof)) → k ≤ available + events.countP ReadEvent.isFailed + 1) ∧
      (replies.filterMap Reply.token?).length + (replies.flatMap Reply.reported).length ≤ available ∧
      replies.countP Reply.isPastEnd ≤ 1 ∧
      ((∃ r ∈ replies, r.answer = some (.ok .eof)) → s.nextToken.1.outcome = ([], some (.ok .eof))) := by
  intro available replies s
  have hreads : Feedless (LineRead.ofEvents events) := LineRead.feedless_ofEvents events
  have hfirst : Cursor.Seen (LineRead.ofEvents events) scanner.cursor := seen_of_ofReads h
  have hseen : Cursor.Seen (LineRead.ofEvents events) s.cursor := seen_afterTokens hfirst k
  have hfollows : scanner.cursor.Follows (LineRead.ofEvents events) [] := follows_of_ofReads hreads h
  have hstream : scanner.cursor.stream = delivered (LineRead.ofEvents events) := hfollows.stream.symm
  refine ⟨hseen.answered hreads, ?_, ?_, ?_, countP_isPastEnd_le hreads hfirst k, ?_⟩
  · intro t hanswer ht
    obtain ⟨before, hbefore⟩ := hseen.follows hreads
    obtain ⟨passed, hpassed, -, hgain⟩ := hbefore.gain_scan hreads
    have hpos := s.cursor.gain_pos_of_token (Option.some.inj hanswer) ht
    exact ⟨passed, hpassed, exists_of_bulk_pos (Nat.lt_of_lt_of_le hpos hgain)⟩
  · intro hend
    refine (le_callsLeft hreads hfirst hend).trans ?_
    -- each failed read comes from a failure
    have hunread : scanner.cursor.unread.countP LineRead.isFailed ≤ events.countP ReadEvent.isFailed :=
      hfollows.unread_suffix.sublist.countP_le.trans (LineRead.countP_isFailed_ofHeld [] events)
    show scanner.cursor.callsLeft ≤ bulk (delivered (LineRead.ofEvents events)) + _ + 1
    rw [← hstream, Cursor.callsLeft]
    split <;> omega
  · obtain ⟨passed, hpassed, hgain⟩ := gain_nextTokens hreads hfollows k
    rw [← countP_isGain_yields]
    refine hgain.trans ?_
    show bulk passed ≤ bulk (delivered (LineRead.ofEvents events))
    rw [← hstream, hpassed, bulk_append]
    exact Nat.le_add_right ..
  · intro hend
    have hx := exhausted_of_eof hreads hfirst hend
    exact Cursor.outcome_of_exhausted hx s.finished 1 _ (List.mem_singleton_self _)

/-- A read fails after a lone ampersand, and a string literal is left open at the end: the fourth call gives
the end of the source. -/
theorem nextTokens_bounded_after_failure :
    let events : List ReadEvent := [.chunk "a&\n".toUTF8.toList, .failed "lost", .chunk "\"".toUTF8.toList]
    let scanner : Scanner := ⟨⟨some [.failed "lost", .line ['"']], ['a', '&'], ['a', '&'], 1, 1⟩, false⟩
    let available := bulk (delivered (LineRead.ofEvents events))
    let replies := scanner.nextTokens 3
    let s := scanner.afterTokens 3
    ofReads (LineRead.ofEvents events) = .ok scanner ∧
      (available = 3 ∧ replies.map Reply.answer =
        [some (.ok (.spelled .identifier ['a'])), some (.error ⟨.readFailed "lost", ⟨2, 1⟩, ""⟩),
          some (.error ⟨.readPastEnd, ⟨2, 1⟩, ""⟩)]) ∧
      (∃ looks moves, s.cursor.Answered looks moves ∧ looks ≤ s.cursor.stream.length ∧
        moves ≤ s.cursor.stream.length) ∧
      (∃ passed, scanner.cursor.stream = passed ++ scanner.nextToken.2.cursor.stream ∧
        ∃ ch ∈ passed, ch ≠ '\n') ∧
      3 ≤ available + events.countP ReadEvent.isFailed + 1 ∧
      (replies.filterMap Reply.token?).length + (replies.flatMap Reply.reported).length ≤ available ∧
      replies.countP Reply.isPastEnd ≤ 1 ∧
      (scanner.afterTokens 4).nextToken.1.outcome = ([], some (.ok .eof)) := by
  intro events scanner available replies s
  have hscanner : ofReads (LineRead.ofEvents events) = .ok scanner := by decide +kernel
  obtain ⟨hends, -, hcalls, hgains, honce, -⟩ := nextTokens_bounded hscanner 3
  obtain ⟨-, hpassed, -⟩ := nextTokens_bounded hscanner 0
  obtain ⟨-, -, -, -, -, hended⟩ := nextTokens_bounded hscanner 4
  refine ⟨hscanner, by decide +kernel, hends, ?_, hcalls ?_, hgains, honce, hended ?_⟩
  · exact hpassed (.spelled .identifier ['a']) (by decide +kernel) rfl
  · decide +kernel
  · decide +kernel

end Scanner

end MiniLex
