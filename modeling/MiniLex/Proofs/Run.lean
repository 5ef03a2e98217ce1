import MiniLex.Proofs.Turn
import MiniLex.Token.Scanner

/-!
# Runs of a scanner

A run is one look after another, whichever calls they are made for.

- `Cursor.Seen reads c`: the run of a scanner looks at the source from `c`. Such a cursor follows
  the reads (`Cursor.Seen.follows`), and a whole scan leads from one to another
  (`Cursor.Seen.scan`).
- `Cursor.tokenized`: what the looks from a cursor come to, all together. It is what draining a
  scanner gives (`Scanner.ofReplies_drain`).
- `Cursor.Follows.tokenized_of_tilesTo`: a run passes the segments that come next, with their tokens
  and diagnostics, and goes on behind them.
- `Cursor.Follows.tokenized_of_tiles`, `Cursor.Follows.tiles_of_tokenized`: a run comes to tokens
  if and only if segments make up the characters ahead, and then the tokens and the diagnostics are
  those of the segments.
-/

namespace MiniLex

namespace Cursor

variable {reads : List LineRead} {before : List Char} {c : Cursor}

/-! ## Where a run looks -/

/-- The cursors from which a scanner of the reads looks at the source. -/
inductive Seen (reads : List LineRead) : Cursor → Prop where
  /-- The cursor of a scanner that has just been made. -/
  | first {c : Cursor} (opened : (start reads).advance = .ok c) : Seen reads c
  | turn {c : Cursor} (seen : Seen reads c) : Seen reads c.turn.cursor

/-- The first cursor is on the first character. -/
theorem Follows.of_start (hreads : Feedless reads) (h : (start reads).advance = .ok c) :
    c.Follows reads [] := by
  cases reads with
  | nil =>
    obtain rfl := Except.ok.inj h
    exact ⟨rfl, by simp, rfl, by simp, rfl, by simp, by simp⟩
  | cons read reads =>
    cases read with
    | line text =>
      obtain rfl := Except.ok.inj h
      refine ⟨by simp [delivered, Cursor.stream, LineRead.stream], ?_, rfl, ?_, rfl, fun _ => rfl, ?_⟩
      · rintro rs hrs
        obtain rfl : reads = rs := by simpa using hrs
        exact List.suffix_cons _ _
      · exact hreads text (List.mem_cons_self ..)
      · simp [isExhausted]
    | failed message => cases h

/-- Wherever a look leaves the cursor, it follows the reads. -/
theorem Turned.follows {turn : Turn} (h : Turned reads before c turn) (hc : c.Follows reads before) :
    ∃ passed, c.stream = passed ++ turn.cursor.stream ∧ turn.cursor.Follows reads (before ++ passed) := by
  cases h with
  | ended _ => exact ⟨[], rfl, by rwa [List.append_nil]⟩
  | passed stream _ follows _ => exact ⟨_, stream, follows⟩
  | unterminated _ exhausted follows =>
    exact ⟨c.stream, by rw [stream_of_exhausted exhausted, List.append_nil], follows⟩
  | interrupted _ stream follows => exact ⟨_, stream, follows⟩

/-- Every cursor from which a run looks at the source follows the reads. -/
theorem Seen.follows (hreads : Feedless reads) (h : Seen reads c) : ∃ before, c.Follows reads before := by
  induction h with
  | first opened => exact ⟨[], .of_start hreads opened⟩
  | turn _ ih =>
    obtain ⟨before, hfollows⟩ := ih
    obtain ⟨passed, -, hnext⟩ := (hfollows.turned hreads).follows hfollows
    exact ⟨before ++ passed, hnext⟩

/-! ## Scans -/

/-- A look with an answer is the whole scan. -/
theorem scan_of_answer {answer : Except Diagnostic Token} (h : c.turn.answer = some answer) :
    c.scan = ⟨c.turn.notes, answer, c.turn.cursor⟩ := by
  unfold scan
  split
  · rename_i answer' h'
    obtain rfl : answer' = answer := Option.some.inj (h'.symm.trans h)
    rfl
  · rename_i h'
    rw [h] at h'
    cases h'

/-- After a look without an answer the scan goes on from the next cursor. -/
theorem scan_of_none (h : c.turn.answer = none) :
    c.scan = { c.turn.cursor.scan with notes := c.turn.notes ++ c.turn.cursor.scan.notes } := by
  conv_lhs => unfold scan
  split
  · rename_i h'
    rw [h] at h'
    cases h'
  · rfl

/-- A scan leads from one cursor of a run to another. -/
theorem Seen.scan (h : Seen reads c) : Seen reads c.scan.cursor := by
  fun_induction Cursor.scan c with
  | case1 c answer hanswer => exact h.turn
  | case2 c hnone hlt later ih => exact ih h.turn

end Cursor

/-! ## Whole runs -/

namespace Tokenized

/-- What comes after some diagnostics and tokens, together with them. -/
def after (reported : List Diagnostic) (tokens : List Token) (later : Tokenized) : Tokenized :=
  ⟨later.result.map (tokens ++ ·), reported ++ later.reported⟩

/-- What several replies come to. -/
def ofReplies (replies : List Reply) : Tokenized :=
  ⟨Reply.tokens replies, replies.flatMap Reply.reported⟩

theorem after_after (ds ds' : List Diagnostic) (ts ts' : List Token) (later : Tokenized) :
    (later.after ds' ts').after ds ts = later.after (ds ++ ds') (ts ++ ts') := by
  cases hresult : later.result <;> simp [after, hresult, Except.map]

theorem after_nil (r : Tokenized) : r.after [] [] = r := by
  obtain ⟨result, reported⟩ := r
  cases result <;> simp [after, Except.map]

theorem result_of_after {ds : List Diagnostic} {ts ts' : List Token} {later : Tokenized}
    (h : (later.after ds ts).result = .ok ts') : ∃ ts, later.result = .ok ts := by
  cases hresult : later.result with
  | error d => simp [after, hresult, Except.map] at h
  | ok ts => exact ⟨ts, rfl⟩

end Tokenized

namespace Turn

/-- The diagnostics that were reported and recovered from. -/
def reported (t : Turn) : List Diagnostic :=
  t.notes.filterMap Note.diagnostic?

@[simp] theorem reported_ofMove (moved : Except Halt Cursor) : (ofMove moved).reported = [] := by
  rw [reported, notes_ofMove]
  rfl

end Turn

namespace Cursor

/-- What the looks from a cursor come to, up to the end of the source or the first failure. -/
def tokenized (c : Cursor) : Tokenized :=
  match h : c.turn.answer with
  | none =>
    have : c.turn.cursor.stream.length < c.stream.length :=
      length_stream_turn (by simp [Turn.isProgress, h])
    c.turn.cursor.tokenized.after c.turn.reported []
  | some (.error d) => ⟨.error d, c.turn.reported⟩
  | some (.ok t) =>
    if ht : t.isEof = true then ⟨.ok [t], c.turn.reported⟩
    else
      have : c.turn.cursor.stream.length < c.stream.length :=
        length_stream_turn (by simpa [Turn.isProgress, h] using ht)
      c.turn.cursor.tokenized.after c.turn.reported [t]
termination_by c.stream.length

/-- The looks from a cursor, as a recursion on the answer of the first. -/
theorem tokenized_eq (c : Cursor) :
    c.tokenized =
      match c.turn.answer with
      | none => c.turn.cursor.tokenized.after c.turn.reported []
      | some (.error d) => ⟨.error d, c.turn.reported⟩
      | some (.ok t) =>
        if t.isEof = true then ⟨.ok [t], c.turn.reported⟩
        else c.turn.cursor.tokenized.after c.turn.reported [t] := by
  conv_lhs => unfold tokenized
  split
  · rename_i hanswer
    simp only [hanswer]
  · rename_i d hanswer
    simp only [hanswer]
  · rename_i t hanswer
    simp only [hanswer, dite_eq_ite]

end Cursor

/-! ### Draining a scanner -/

namespace Scanner

/-- The notes of a call are those of its scan, but for the end of the source and the token. -/
theorem filterMap_notes_nextToken {α : Type} {f : Note → Option α} (s : Scanner)
    (hend : ∀ n, f (.exhausted n) = none) :
    s.nextToken.1.notes.filterMap f = s.cursor.scan.notes.filterMap f ++
      (tokenNote s.nextToken.2.cursor s.cursor.scan.answer).filterMap f := by
  have hexhaustion : (exhaustion s.cursor s.cursor.scan.cursor).filterMap f = [] := by
    unfold exhaustion
    split
    · rw [List.filterMap_cons_none (hend _), List.filterMap_nil]
    · rfl
  simp only [nextToken, List.filterMap_append, hexhaustion, List.append_nil]

/-- The diagnostics of a call are those of its scan. -/
theorem reported_nextToken (s : Scanner) :
    s.nextToken.1.reported = s.cursor.scan.notes.filterMap Note.diagnostic? := by
  rw [Reply.reported, s.filterMap_notes_nextToken fun _ => rfl]
  cases s.cursor.scan.answer <;> exact List.append_nil _

theorem drain_of_finished (c : Cursor) : (Scanner.mk c true).drain.1 = [.nothing] := by
  unfold drain
  rfl

/-- The first reply of a scanner that has not finished, and the replies after it. -/
theorem drain_of_unfinished (c : Cursor) :
    (Scanner.mk c false).drain.1 =
      (Scanner.mk c false).nextToken.1 ::
        (Scanner.mk c.scan.cursor (Scanner.mk c false).nextToken.1.isLast).drain.1 := by
  conv_lhs => unfold drain
  rfl

/-- What draining comes to after the first scan. -/
theorem ofReplies_drain_scan (c : Cursor) :
    Tokenized.ofReplies (Scanner.mk c false).drain.1 =
      match c.scan.answer with
      | .error d => ⟨.error d, c.scan.notes.filterMap Note.diagnostic?⟩
      | .ok t =>
        if t.isEof = true then ⟨.ok [t], c.scan.notes.filterMap Note.diagnostic?⟩
        else (Tokenized.ofReplies (Scanner.mk c.scan.cursor false).drain.1).after
          (c.scan.notes.filterMap Note.diagnostic?) [t] := by
  have hreported : (Scanner.mk c false).nextToken.1.reported = _ := reported_nextToken _
  have hanswer : (Scanner.mk c false).nextToken.1.answer = some c.scan.answer := rfl
  have hnothing : Reply.nothing.answer = none ∧ Reply.nothing.reported = [] := ⟨rfl, rfl⟩
  rw [drain_of_unfinished]
  cases hscan : c.scan.answer with
  | error d =>
    rw [hscan] at hanswer
    have hlast : (Scanner.mk c false).nextToken.1.isLast = true := by rw [Reply.isLast, hanswer]
    rw [hlast, drain_of_finished]
    simp [Tokenized.ofReplies, Reply.tokens, hanswer, hreported, hnothing]
  | ok t =>
    rw [hscan] at hanswer
    have hlast : (Scanner.mk c false).nextToken.1.isLast = t.isEof := by rw [Reply.isLast, hanswer]
    rw [hlast]
    cases ht : t.isEof with
    | true =>
      rw [drain_of_finished]
      simp [Tokenized.ofReplies, Reply.tokens, hanswer, hreported, hnothing, ht, Except.map]
    | false =>
      simp [Tokenized.ofReplies, Tokenized.after, Reply.tokens, hanswer, hreported, ht]

/-- Draining a scanner comes to what the looks from its cursor come to. -/
theorem ofReplies_drain (c : Cursor) :
    Tokenized.ofReplies (Scanner.mk c false).drain.1 = c.tokenized := by
  fun_induction Cursor.tokenized c with
  | case1 c hnone hlt ih =>
    -- the first scan goes on from the next cursor
    rw [ofReplies_drain_scan] at ih ⊢
    rw [Cursor.scan_of_none hnone, ← ih]
    cases c.turn.cursor.scan.answer with
    | error d => simp [Tokenized.after, Turn.reported, Except.map]
    | ok t =>
      simp only [List.filterMap_append]
      split
      · simp [Tokenized.after, Turn.reported, Except.map]
      · rw [Tokenized.after_after]
        rfl
  | case2 c d hanswer =>
    rw [ofReplies_drain_scan, Cursor.scan_of_answer hanswer]
    rfl
  | case3 c t hanswer ht =>
    rw [ofReplies_drain_scan, Cursor.scan_of_answer hanswer]
    exact if_pos ht
  | case4 c t hanswer ht hlt ih =>
    rw [ofReplies_drain_scan, Cursor.scan_of_answer hanswer, ← ih]
    exact if_neg ht

end Scanner

/-- The tokens of a source are what the looks from its first character come to. -/
theorem tokenizeReads_of_ok {reads : List LineRead} {c : Cursor}
    (h : (Cursor.start reads).advance = .ok c) : tokenizeReads reads = c.tokenized := by
  rw [← Scanner.ofReplies_drain, tokenizeReads, Scanner.ofReads, h]
  rfl

/-! ## Runs and segments -/

theorem Segment.Fits.not_isEof {s : Segment} {rest : List Char} {t : Token} (h : s.Fits rest)
    (ht : s.token? = some t) : t.isEof = false := by
  cases h with
  | token longest _ _ =>
    obtain rfl := Option.some.inj ht
    cases longest.lexeme <;> rfl
  | unclosed _ _ =>
    obtain rfl := Option.some.inj ht
    rfl
  | blank _ | comment _ | illegal _ | lone _ _ | number _ _ _ _ | opener _ _ => cases ht

namespace Cursor

variable {reads : List LineRead} {before : List Char} {c : Cursor}

theorem turn_of_exhausted (hx : c.isExhausted = true) : c.turn = ⟨[], some (.ok .eof), c⟩ :=
  if_pos hx

/-- At the end of the source a run is over. -/
theorem tokenized_of_nil (hstream : c.stream = []) : c.tokenized = ⟨.ok [.eof], []⟩ := by
  rw [tokenized_eq, turn_of_exhausted (stream_eq_nil_iff.mp hstream)]
  rfl

namespace Follows

/-- A look passes the segment that comes next, if no read fails. -/
theorem turn_of_fits (hreads : Feedless reads) (hfail : Unfailing reads) (h : c.Follows reads before)
    {s : Segment} {rest : List Char} (hs : c.stream = s.text ++ rest) (hfits : s.Fits rest) :
    c.turn.answer = s.token?.map .ok ∧ c.turn.reported = s.reports before rest ∧
      c.turn.cursor.stream = rest ∧ c.turn.cursor.Follows reads (before ++ s.text) := by
  have hturned := h.turned hreads
  generalize c.turn = turn at hturned
  cases hturned with
  | ended exhausted =>
    rw [stream_of_exhausted exhausted] at hs
    exact absurd (List.append_eq_nil_iff.mp hs.symm).1 hfits.text_ne_nil
  | passed stream fits follows reported =>
    obtain ⟨rfl, hrest⟩ := hfits.unique fits (hs.symm.trans stream)
    rw [hrest]
    exact ⟨rfl, reported, rfl, follows⟩
  | unterminated opened _ _ =>
    rw [hs] at opened
    exact absurd opened hfits.not_unterminated
  | interrupted failed _ _ =>
    obtain ⟨message, hmessage, -⟩ := failed
    exact absurd hmessage (hfail message)

/-- A run passes the segment that comes next, and goes on behind it. -/
theorem tokenized_of_fits (hreads : Feedless reads) (hfail : Unfailing reads) (h : c.Follows reads before)
    {s : Segment} {rest : List Char} (hs : c.stream = s.text ++ rest) (hfits : s.Fits rest) :
    c.tokenized = c.turn.cursor.tokenized.after (s.reports before rest) s.token?.toList := by
  obtain ⟨hanswer, hreported, -, -⟩ := h.turn_of_fits hreads hfail hs hfits
  rw [tokenized_eq, hanswer, ← hreported]
  cases htoken : s.token? with
  | none => rfl
  | some t => exact if_neg (by simp [hfits.not_isEof htoken])

/-- A run passes the segments that come next, and goes on behind them. -/
theorem tokenized_of_tilesTo (hreads : Feedless reads) (hfail : Unfailing reads)
    (h : c.Follows reads before) {segs : List Segment} {rest : List Char}
    (ht : TilesTo rest segs c.stream) :
    ∃ next : Cursor, next.stream = rest ∧ next.Follows reads (before ++ segs.flatMap Segment.text) ∧
      c.tokenized = next.tokenized.after (reportsTo rest before segs) (segs.filterMap Segment.token?) := by
  generalize hcs : c.stream = cs at ht
  -- each segment is passed by one look, since no other segment begins what is ahead
  induction ht generalizing c before with
  | nil =>
    refine ⟨c, hcs, ?_, (Tokenized.after_nil _).symm⟩
    rwa [List.flatMap_nil, List.append_nil]
  | @cons s segs cs fits tiles ih =>
    obtain ⟨-, -, hstream, hfollows⟩ := h.turn_of_fits hreads hfail hcs fits
    obtain ⟨next, hnext, hlast, hlater⟩ := ih hfollows hstream
    refine ⟨next, hnext, ?_, ?_⟩
    · rwa [List.flatMap_cons, ← List.append_assoc]
    · rw [h.tokenized_of_fits hreads hfail hcs fits, hlater, Tokenized.after_after, reportsTo,
        tiles.flatMap_text_append]
      cases htoken : s.token? <;> simp [htoken]

/-- If segments make up the characters ahead, a run passes all of them. -/
theorem tokenized_of_tiles (hreads : Feedless reads) (hfail : Unfailing reads)
    (h : c.Follows reads before) {segs : List Segment} (ht : Tiles segs c.stream) :
    c.tokenized = ⟨.ok (segs.filterMap Segment.token? ++ [.eof]), reportsOf before segs⟩ := by
  obtain ⟨next, hnext, -, hrun⟩ := h.tokenized_of_tilesTo hreads hfail ht.tilesTo
  rw [hrun, tokenized_of_nil hnext, reportsTo_nil]
  simp [Tokenized.after, Except.map]

/-- A source that ends within a string literal or a block comment ends a run, and nothing of what is
open is reported. -/
theorem turn_of_unterminated (hreads : Feedless reads) (hfail : Unfailing reads)
    (h : c.Follows reads before) (hopen : Unterminated c.stream) :
    c.turn.answer = some (.error ⟨.readPastEnd, ⟨(delivered reads).count '\n', 1⟩, ""⟩) ∧
      c.turn.reported = [] ∧ c.turn.cursor.isExhausted = true := by
  have hdelivered := h.stream
  have hturned := h.turned hreads
  generalize c.turn = turn at hturned
  cases hturned with
  | ended exhausted =>
    rw [stream_of_exhausted exhausted] at hopen
    cases hopen
  | passed stream fits _ _ =>
    rw [stream] at hopen
    exact absurd hopen fits.not_unterminated
  | @unterminated last _ exhausted follows =>
    -- the last line of the source is given up with its line feed
    rw [← hdelivered] at follows
    obtain ⟨hrest, hcolumn⟩ := follows.exhausted exhausted
    have hnumber := follows.lineNumber
    rw [exhausted] at hnumber
    have hlast := (completeLines_delivered reads).lastLine_append []
    have hline : last.line = [] := by
      rw [follows.line, hrest, List.append_nil, ← List.append_nil (delivered reads), hlast]
      rfl
    refine ⟨?_, rfl, exhausted⟩
    simp [Cursor.diagnostic, Cursor.position, hline, hnumber, hcolumn]
  | interrupted failed _ _ =>
    obtain ⟨message, hmessage, -⟩ := failed
    exact absurd hmessage (hfail message)

theorem tokenized_of_unterminated (hreads : Feedless reads) (hfail : Unfailing reads)
    (h : c.Follows reads before) (hopen : Unterminated c.stream) :
    c.tokenized = ⟨.error ⟨.readPastEnd, ⟨(delivered reads).count '\n', 1⟩, ""⟩, []⟩ := by
  obtain ⟨hanswer, hreported, -⟩ := h.turn_of_unterminated hreads hfail hopen
  rw [tokenized_eq, hanswer, hreported]

/-- What is ahead begins with a segment, if it is anything at all and does not leave open what it
opens. -/
theorem ahead (hreads : Feedless reads) (hfail : Unfailing reads) (h : c.Follows reads before) :
    c.stream = [] ∨ (∃ (s : Segment) (rest : List Char), c.stream = s.text ++ rest ∧ s.Fits rest) ∨
      Unterminated c.stream := by
  have hturned := h.turned hreads
  generalize c.turn = turn at hturned
  cases hturned with
  | ended exhausted => exact .inl (stream_of_exhausted exhausted)
  | passed stream fits _ _ => exact .inr (.inl ⟨_, _, stream, fits⟩)
  | unterminated opened _ _ => exact .inr (.inr opened)
  | interrupted failed _ _ =>
    obtain ⟨message, hmessage, -⟩ := failed
    exact absurd hmessage (hfail message)

/-- Segments make up what is ahead, up to what is not closed, if anything is. -/
theorem exists_tilesTo (hreads : Feedless reads) (hfail : Unfailing reads) (h : c.Follows reads before) :
    ∃ segs tail, TilesTo tail segs c.stream ∧ (tail = [] ∨ Unterminated tail) := by
  induction hn : c.stream.length using Nat.strong_induction_on generalizing c before with
  | _ n ih =>
    rcases h.ahead hreads hfail with hnil | ⟨s, rest, hs, hfits⟩ | hopen
    · exact ⟨[], c.stream, .nil, .inl hnil⟩
    · obtain ⟨-, -, hnext, hfollows⟩ := h.turn_of_fits hreads hfail hs hfits
      have hshorter : c.turn.cursor.stream.length < n := by
        have hpos := List.length_pos_iff.mpr hfits.text_ne_nil
        rw [← hn, hnext, hs, List.length_append]
        omega
      obtain ⟨segs, tail, htiles, htail⟩ := ih _ hshorter hfollows rfl
      rw [hnext] at htiles
      exact ⟨s :: segs, tail, hs ▸ .cons hfits htiles, htail⟩
    · exact ⟨[], c.stream, .nil, .inr hopen⟩

end Follows

/-- A look after which the run goes on has passed a segment. -/
theorem Turned.fits_of_isProgress {turn : Turn} (h : Turned reads before c turn)
    (hprogress : turn.isProgress = true) :
    ∃ s : Segment, c.stream = s.text ++ turn.cursor.stream ∧ s.Fits turn.cursor.stream ∧
      turn.cursor.Follows reads (before ++ s.text) := by
  cases h with
  | passed stream fits follows _ => exact ⟨_, stream, fits, follows⟩
  | ended _ | unterminated _ _ _ | interrupted _ _ _ => cases hprogress

/-- Only the end of the source is answered by the token that ends it. -/
theorem Turned.exhausted_of_isEof {turn : Turn} (h : Turned reads before c turn) {t : Token}
    (hanswer : turn.answer = some (.ok t)) (ht : t.isEof = true) : c.isExhausted = true := by
  cases h with
  | ended exhausted => exact exhausted
  | @passed s notes next stream fits follows reported =>
    obtain ⟨t', ht', heq⟩ := Option.map_eq_some_iff.mp hanswer
    obtain rfl := Except.ok.inj heq
    rw [fits.not_isEof ht'] at ht
    cases ht
  | unterminated _ _ _ | interrupted _ _ _ => cases hanswer

/-- If segments make up what is ahead after a look, and the run goes on, they do before it. -/
theorem Follows.tiles_of_turn (hreads : Feedless reads) (h : c.Follows reads before)
    (hprogress : c.turn.isProgress = true)
    (hnext : ∀ {before}, c.turn.cursor.Follows reads before → ∃ segs, Tiles segs c.turn.cursor.stream) :
    ∃ segs, Tiles segs c.stream := by
  obtain ⟨s, hstream, hfits, hfollows⟩ := (h.turned hreads).fits_of_isProgress hprogress
  obtain ⟨segs, htiles⟩ := hnext hfollows
  rw [hstream]
  exact ⟨s :: segs, .cons hfits htiles⟩

/-- If a run comes to tokens, segments make up the characters ahead. -/
theorem Follows.tiles_of_tokenized (hreads : Feedless reads) (h : c.Follows reads before)
    {ts : List Token} (hok : c.tokenized.result = .ok ts) : ∃ segs, Tiles segs c.stream := by
  fun_induction tokenized c generalizing before ts with
  | case1 c hanswer hlt ih =>
    obtain ⟨ts', hts'⟩ := Tokenized.result_of_after hok
    exact h.tiles_of_turn hreads (by simp [Turn.isProgress, hanswer]) fun hnext => ih hnext hts'
  | case2 c d hanswer => cases hok
  | case3 c t hanswer ht =>
    have hx := (h.turned hreads).exhausted_of_isEof hanswer ht
    exact ⟨[], by rw [stream_of_exhausted hx]; exact .nil⟩
  | case4 c t hanswer ht hlt ih =>
    obtain ⟨ts', hts'⟩ := Tokenized.result_of_after hok
    exact h.tiles_of_turn hreads (by simpa [Turn.isProgress, hanswer] using ht) fun hnext => ih hnext hts'

end Cursor

end MiniLex
