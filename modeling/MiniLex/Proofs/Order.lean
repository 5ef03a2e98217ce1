import MiniLex.Proofs.Diagnostics
import MiniLex.Proofs.Looks

/-!
# The order of diagnostics

Diagnostics are reported in the order of their places. Two may share a place, if an unfinished lexeme
meets a character there which then turns out to be illegal; three never do.

- `Position.key`: the lexicographic order of places. A place is before any place further on
  (`Position.key_after_lt`).
- `Diagnostic.Precedes`: the order of two diagnostics, and `Diagnostic.Ahead before rest d`: the
  diagnostic is met in `rest`, which comes after `before`.
- `Cursor.Follows.ordered_turn`: what one look reports, and what is reported after it.
- `Cursor.Looks.ordered`: what all looks of a run report.

Main statement: `Session.diagnostics_ordered`.
-/

namespace MiniLex

/-! ## The order of places -/

/-- Places are ordered by their lines, and those of one line by their columns. -/
def Position.key (p : Position) : ℕ ×ₗ ℕ :=
  toLex (p.line, p.column)

/-- A place is before any place further on. -/
theorem Position.key_after_lt {w : List Char} (hw : w ≠ []) (before : List Char) :
    (after before).key < (after (before ++ w)).key := by
  rw [key, key, Prod.Lex.toLex_lt_toLex]
  simp only [after, List.count_append]
  by_cases hfeed : '\n' ∈ w
  · left
    have := List.count_pos_iff.mpr hfeed
    omega
  · right
    have := List.length_pos_iff.mpr hw
    rw [List.count_eq_zero.mpr hfeed, lastLine_append hfeed, List.length_append]
    omega

theorem Position.key_after_le (before w : List Char) : (after before).key ≤ (after (before ++ w)).key := by
  by_cases hw : w = []
  · rw [hw, List.append_nil]
  · exact (key_after_lt hw before).le

namespace Diagnostic

/-! ## The order of diagnostics -/

/-- An unfinished lexeme met the character. -/
def StopsAt (d : Diagnostic) (ch : Char) : Prop :=
  (∃ expected, d.cause = .expectedCharacter expected (some ch)) ∨ d.cause = .malformedExponent (some ch)

/-- The one diagnostic is located before the other, or else an unfinished lexeme met a character at the
same place that is illegal there. -/
def Precedes (d d' : Diagnostic) : Prop :=
  d.position.key < d'.position.key ∨
    d.position = d'.position ∧ ∃ ch, d.StopsAt ch ∧ d'.cause = .illegalCharacter ch

/-- The diagnostic is met in `rest`, which comes after `before`; at its first character only if this is
illegal. -/
def Ahead (before rest : List Char) (d : Diagnostic) : Prop :=
  (Position.after before).key < d.position.key ∨
    d.position = .after before ∧ ∃ ch, rest.head? = some ch ∧ d.cause = .illegalCharacter ch

variable {before rest : List Char} {d d' d'' : Diagnostic}

theorem Precedes.key_le (h : d.Precedes d') : d.position.key ≤ d'.position.key := by
  rcases h with hlt | ⟨heq, -⟩
  · exact hlt.le
  · rw [heq]

/-- An illegal character ends the diagnostics of its place. -/
theorem Precedes.key_lt (h : d.Precedes d') {ch : Char} (hd : d.cause = .illegalCharacter ch) :
    d.position.key < d'.position.key := by
  rcases h with hlt | ⟨-, ch', ⟨expected, hexpected⟩ | hexponent, -⟩
  · exact hlt
  · rw [hd] at hexpected
    cases hexpected
  · rw [hd] at hexponent
    cases hexponent

/-- No three diagnostics in order share a place. -/
theorem Precedes.not_three (h : d.Precedes d') (h' : d'.Precedes d'') :
    ¬ (d.position = d'.position ∧ d'.position = d''.position) := by
  rintro ⟨heq, heq'⟩
  rcases h with hlt | ⟨-, ch, -, hillegal⟩
  · exact hlt.ne (congrArg Position.key heq)
  · exact (h'.key_lt hillegal).ne (congrArg Position.key heq')

theorem Ahead.key_le (h : d.Ahead before rest) : (Position.after before).key ≤ d.position.key := by
  rcases h with hlt | ⟨heq, -⟩
  · exact hlt.le
  · rw [heq]

/-- What is ahead is ahead from further back, too. -/
theorem Ahead.of_append {w : List Char} (h : d.Ahead (before ++ w) rest) : d.Ahead before (w ++ rest) := by
  by_cases hw : w = []
  · rw [hw, List.append_nil] at h
    rwa [hw, List.nil_append]
  · exact .inl ((Position.key_after_lt hw before).trans_le h.key_le)

end Diagnostic

/-! ## Looks -/

/-- What is wrong with a segment is that its character is illegal, or it is met at the character behind
the segment. -/
theorem Segment.fault_cases {s : Segment} {rest : List Char} {n : Nat} {cause : Cause}
    (h : s.fault rest = some (n, cause)) :
    (∃ ch, s = .illegal ch ∧ n = 0 ∧ cause = .illegalCharacter ch) ∨
      (n = s.text.length ∧
        ((∃ expected, cause = .expectedCharacter expected rest.head?) ∨
          cause = .malformedExponent rest.head?)) := by
  cases s with
  | blank _ | comment _ => cases h
  | token t text =>
    rw [fault] at h
    split at h <;> cases h
    exact .inr ⟨rfl, .inl ⟨_, rfl⟩⟩
  | illegal ch =>
    cases h
    exact .inl ⟨ch, rfl, rfl, rfl⟩
  | lone _ | opener _ =>
    cases h
    exact .inr ⟨rfl, .inl ⟨_, rfl⟩⟩
  | number _ =>
    cases h
    exact .inr ⟨rfl, .inr rfl⟩

/-- The diagnostic of a segment is ahead of it, and precedes all that is ahead behind the segment. -/
theorem Segment.reports_ordered {s : Segment} {before rest : List Char} (hs : s.text ≠ []) :
    ∀ d ∈ s.reports before rest, d.Ahead before (s.text ++ rest) ∧
      ∀ d', d'.Ahead (before ++ s.text) rest → d.Precedes d' := by
  intro d hd
  unfold reports at hd
  split at hd
  · cases hd
  rename_i n cause hfault
  obtain rfl := List.mem_singleton.mp hd
  have hbehind := Position.key_after_lt hs before
  rcases fault_cases hfault with ⟨ch, rfl, rfl, rfl⟩ | ⟨rfl, hcause⟩
  · have hplace : (Diagnostic.between (before ++ (illegal ch).text.take 0)
        ((illegal ch).text.drop 0 ++ rest) (.illegalCharacter ch)).position = .after before := by
      simp [Diagnostic.between]
    refine ⟨.inr ⟨hplace, ch, rfl, rfl⟩, fun d' hd' => .inl ?_⟩
    rw [hplace]
    exact hbehind.trans_le hd'.key_le
  · rw [List.take_length]
    refine ⟨.inl hbehind, fun d' hd' => ?_⟩
    rcases hd' with hlt | ⟨heq, ch, hhead, hillegal⟩
    · exact .inl hlt
    · refine .inr ⟨heq.symm, ch, ?_, hillegal⟩
      rw [hhead] at hcause
      exact hcause

/-- What segments report is ahead of them. -/
theorem TilesTo.ahead {tail cs : List Char} {segs : List Segment} (h : TilesTo tail segs cs)
    (before : List Char) : ∀ d ∈ reportsTo tail before segs, d.Ahead before cs := by
  induction h generalizing before with
  | nil => exact fun d hd => absurd hd List.not_mem_nil
  | @cons s segs cs fits tiles ih =>
    intro d hd
    rw [reportsTo, tiles.flatMap_text_append, List.mem_append] at hd
    rcases hd with hd | hd
    · exact (Segment.reports_ordered fits.text_ne_nil d hd).1
    · exact (ih _ d hd).of_append

namespace Cursor

variable {reads : List LineRead} {before : List Char} {c last : Cursor} {ys : List Yield}
  {replies : List Reply}

/-- What a look reports is ahead, and precedes all that is ahead after the look. -/
theorem Follows.ordered_turn (hreads : Feedless reads) (h : c.Follows reads before) :
    ∃ passed, c.stream = passed ++ c.turn.cursor.stream ∧ c.turn.cursor.Follows reads (before ++ passed) ∧
      c.turn.reported.Pairwise Diagnostic.Precedes ∧
        ∀ d ∈ c.turn.reported, d.Ahead before c.stream ∧
          ∀ d', d'.Ahead (before ++ passed) c.turn.cursor.stream → d.Precedes d' := by
  have hturned := h.turned hreads
  generalize c.turn = turn at hturned
  cases hturned with
  | @passed s notes next stream fits follows reported =>
    have hreported : Turn.reported ⟨notes, s.token?.map .ok, next⟩ = s.reports before next.stream := reported
    refine ⟨s.text, stream, follows, ?_, ?_⟩
    · -- a segment reports one diagnostic at most
      rw [hreported, Segment.reports]
      split
      · exact .nil
      · exact List.pairwise_singleton ..
    · rw [hreported, stream]
      exact Segment.reports_ordered fits.text_ne_nil
  | ended exhausted =>
    exact ⟨[], rfl, by rwa [List.append_nil], .nil, fun d hd => absurd hd List.not_mem_nil⟩
  | unterminated _ exhausted follows =>
    refine ⟨c.stream, ?_, follows, .nil, fun d hd => absurd hd List.not_mem_nil⟩
    rw [stream_of_exhausted exhausted, List.append_nil]
  | interrupted _ stream follows =>
    exact ⟨_, stream, follows, .nil, fun d hd => absurd hd List.not_mem_nil⟩

/-! ## Runs -/

/-- What looks report is ahead and in order. -/
theorem Looks.ordered (hreads : Feedless reads) (h : c.Looks ys last) (hc : c.Follows reads before) :
    (ys.filterMap Yield.reported?).Pairwise Diagnostic.Precedes ∧
      ∀ d ∈ ys.filterMap Yield.reported?, d.Ahead before c.stream := by
  induction h generalizing before with
  | nil => exact ⟨.nil, fun d hd => absurd hd List.not_mem_nil⟩
  | @turn c last ys later ih =>
    obtain ⟨passed, hstream, hnext, hturn, hahead⟩ := hc.ordered_turn hreads
    obtain ⟨hordered, hlater⟩ := ih hnext
    rw [List.filterMap_append, c.turn.filterMap_reported?_yields]
    refine ⟨List.pairwise_append.mpr ⟨hturn, hordered, ?_⟩, fun d hd => ?_⟩
    · exact fun d hd d' hd' => (hahead d hd).2 d' (hlater d' hd')
    · rcases List.mem_append.mp hd with hd | hd
      · exact (hahead d hd).1
      · rw [hstream]
        exact (hlater d hd).of_append

/-- Replies are made of looks, which report the same. -/
theorem Replies.looks (h : c.Replies replies last) :
    ∃ ys, c.Looks ys last ∧ ys.filterMap Yield.reported? = replies.flatMap Reply.reported := by
  induction h with
  | nil => exact ⟨[], .nil, rfl⟩
  | nothing _ ih => exact ih
  | @scan c last replies _ ih =>
    obtain ⟨ys, hlooks, hys⟩ := ih
    obtain ⟨reported, found, hfound, -, hcursor, hnotes⟩ := c.looks_scan
    have hlast : found.Looks (found.turn.yields ++ ys) last := .turn (hcursor ▸ hlooks)
    refine ⟨_, hfound.append hlast, ?_⟩
    have hreported : (reported.map Yield.reported).filterMap Yield.reported? = reported := by
      rw [List.filterMap_map]
      exact List.filterMap_some
    rw [List.filterMap_append, List.filterMap_append, found.turn.filterMap_reported?_yields, hreported, hys,
      ← List.append_assoc, ← hnotes, List.flatMap_cons, reply, Scanner.reported_nextToken]

end Cursor

/-! ## Sessions -/

namespace Session

/-- What calls report, whichever they are and whatever reads fail, is in order. -/
theorem precedes_performAll {reads : List LineRead} (hreads : Feedless reads) {s : Session}
    (hs : Cursor.Seen reads s.scanner.cursor) (calls : List Call) :
    ((s.performAll calls).1.flatMap fun e => e.reply.reported).Pairwise Diagnostic.Precedes := by
  obtain ⟨before, hfollows⟩ := hs.follows hreads
  obtain ⟨ys, hlooks, hys⟩ := (s.replies_performAll calls).looks
  rw [List.flatMap_map] at hys
  rw [← hys]
  exact (hlooks.ordered hreads hfollows).1

/-- Whatever the reads of a source come to, and whichever calls are made: the places of the diagnostics
that go to the sink never go back. Two that come one after the other share a place only if an unfinished
lexeme met a character there which is then illegal, and no three share a place. -/
theorem diagnostics_ordered {events : List ReadEvent} {scanner : Scanner}
    (h : Scanner.ofReads (LineRead.ofEvents events) = .ok scanner) (sink : Sink) (calls : List Call) :
    let done := performAll ⟨scanner, sink⟩ calls
    let ds := done.1.flatMap fun e => e.reply.reported
    done.2.sink = sink.reportAll ds ∧
      ds.Pairwise (fun d d' => d.position.key ≤ d'.position.key) ∧
        (∀ d d', [d, d'] <:+: ds → d.position = d'.position →
          ∃ ch, ((∃ expected, d.cause = .expectedCharacter expected (some ch)) ∨
              d.cause = .malformedExponent (some ch)) ∧ d'.cause = .illegalCharacter ch) ∧
          ∀ d d' d'', [d, d', d''].Sublist ds →
            ¬ (d.position = d'.position ∧ d'.position = d''.position) := by
  intro done ds
  have hreads : Feedless (LineRead.ofEvents events) := LineRead.feedless_ofEvents events
  have hordered : ds.Pairwise Diagnostic.Precedes :=
    precedes_performAll hreads (s := ⟨scanner, sink⟩) (Scanner.seen_of_ofReads h) calls
  refine ⟨sink_performAll ⟨scanner, sink⟩ calls, hordered.imp Diagnostic.Precedes.key_le, ?_, ?_⟩
  · intro d d' hinfix hplace
    have htwo : d.Precedes d' := by simpa using hordered.sublist hinfix.sublist
    rcases htwo with hlt | ⟨-, hmet⟩
    · exact absurd (congrArg Position.key hplace) hlt.ne
    · exact hmet
  · intro d d' d'' hsub
    have hthree := hordered.sublist hsub
    simp only [List.pairwise_cons, List.mem_cons] at hthree
    exact (hthree.1 d' (.inl rfl)).not_three (hthree.2.1 d'' (.inl rfl))

/-- An ampersand and an exponent each meet an illegal character, and a read fails between them. -/
theorem diagnostics_ordered_after_failure :
    let events : List ReadEvent := [.chunk "&$ &\n".toUTF8.toList, .failed "lost", .chunk "1.e+# '".toUTF8.toList]
    let scanner : Scanner :=
      ⟨⟨some [.failed "lost", .line ['1', '.', 'e', '+', '#', ' ', '\'']], ['&', '$', ' ', '&'],
        ['&', '$', ' ', '&'], 1, 1⟩, false⟩
    let done := performAll ⟨scanner, .collecting []⟩ [.nextToken, .next, .drain]
    let ds := done.1.flatMap fun e => e.reply.reported
    Scanner.ofReads (LineRead.ofEvents events) = .ok scanner ∧
      ds.map (fun d => (d.position.line, d.position.column)) = [(1, 2), (1, 2), (1, 5), (2, 5), (2, 5), (2, 8)] ∧
        done.2.sink = (Sink.collecting []).reportAll ds ∧
          ds.Pairwise (fun d d' => d.position.key ≤ d'.position.key) ∧
            (∀ d d', [d, d'] <:+: ds → d.position = d'.position →
              ∃ ch, ((∃ expected, d.cause = .expectedCharacter expected (some ch)) ∨
                  d.cause = .malformedExponent (some ch)) ∧ d'.cause = .illegalCharacter ch) ∧
              ∀ d d' d'', [d, d', d''].Sublist ds →
                ¬ (d.position = d'.position ∧ d'.position = d''.position) := by
  intro events scanner done ds
  have hscanner : Scanner.ofReads (LineRead.ofEvents events) = .ok scanner := by decide +kernel
  exact ⟨hscanner, by decide +kernel, diagnostics_ordered hscanner (.collecting []) [.nextToken, .next, .drain]⟩

end Session

end MiniLex
