import MiniLex.Proofs.Progress

/-!
# Calls in any mixture

A scanner is asked by `nextToken`, which may be called for ever, and by `next`, which stops giving anything
once it has given the end of the source or a failure. Both go on where the call before stopped, whichever
it was, so that all calls together give what `nextToken` alone gives.

- `Cursor.Replies.given`: the replies that give something are those of calls for the next token.
- `Session.EndGiven s calls`: among the calls, one other than `nextToken` has given the end of the source or
  a failure. This and nothing else keeps later calls of `next` from giving anything
  (`Session.finished_performAll`).
- `Scanner.Gives s ts last`: calls for the next token give the tokens `ts`, and then `last`. Draining a
  scanner comes to the one answer that ends such a sequence (`Scanner.exists_gives`,
  `Scanner.Gives.unique`).

Main statement: `Session.calls_agree`.
-/

namespace MiniLex

/-! ## What is given -/

namespace Cursor

variable {c last : Cursor} {replies : List Reply}

/-- The replies that give something are the replies to as many calls for the next token, and the others
report nothing and leave the cursor where it is. -/
theorem Replies.given (h : c.Replies replies last) (finished : Bool) :
    let given := replies.filter (·.answer.isSome)
    let s : Scanner := ⟨c, finished⟩
    given = s.nextTokens given.length ∧ last = (s.afterTokens given.length).cursor ∧
      replies.flatMap Reply.reported = given.flatMap Reply.reported := by
  induction h with
  | nil => exact ⟨rfl, rfl, rfl⟩
  | nothing _ ih => exact ih
  | @scan c last replies _ ih =>
    obtain ⟨hgiven, hlast, hreported⟩ := ih
    have hreply : c.reply.answer.isSome = true := rfl
    intro given s
    have hcons : given = c.reply :: replies.filter (·.answer.isSome) := List.filter_cons_of_pos hreply
    rw [hcons, List.length_cons, List.flatMap_cons, List.flatMap_cons, hreported]
    exact ⟨congrArg (c.reply :: ·) hgiven, hlast, rfl⟩

end Cursor

/-! ## When nothing is given any more -/

namespace Scanner

variable {s : Scanner}

theorem next_of_finished (h : s.finished = true) : s.next = (.nothing, s) :=
  if_pos h

theorem next_of_unfinished (h : s.finished = false) :
    s.next = (s.nextToken.1, { s.nextToken.2 with finished := s.nextToken.1.isLast }) := by
  simp [next, h]

/-- A call of `next` finishes a scanner by giving the end of the source or a failure. -/
theorem finished_next (s : Scanner) :
    s.next.2.finished = true ↔ s.finished = true ∨ s.next.1.isLast = true := by
  cases hs : s.finished with
  | true =>
    rw [next_of_finished hs]
    exact ⟨fun _ => .inl rfl, fun _ => hs⟩
  | false =>
    rw [next_of_unfinished hs]
    exact ⟨.inr, fun h => h.resolve_left Bool.false_ne_true⟩

/-- A drained scanner has finished, and if it had not before, it has given the end of the source or a
failure. -/
theorem finished_drain (s : Scanner) :
    s.drain.2.finished = true ∧ (s.finished = true ∨ ∃ r ∈ s.drain.1, r.isLast = true) := by
  fun_induction drain s with
  | case1 s hnone =>
    cases hs : s.finished with
    | true =>
      rw [next_of_finished hs]
      exact ⟨hs, .inl rfl⟩
    | false =>
      rw [next_of_unfinished hs] at hnone
      cases hnone
  | case2 s _ _ hlt replies last hdrain ih =>
    rw [hdrain] at ih
    refine ⟨ih.1, ?_⟩
    rcases ih.2 with hfinished | ⟨r, hr, hlast⟩
    · rcases s.finished_next.mp hfinished with hs | hlast
      · exact .inl hs
      · exact .inr ⟨_, List.mem_cons_self .., hlast⟩
    · exact .inr ⟨r, List.mem_cons_of_mem _ hr, hlast⟩

end Scanner

namespace Session

/-- Among several calls, one other than a call for the next token has given the end of the source or a
failure. -/
def EndGiven (s : Session) (calls : List Call) : Prop :=
  ∃ before call after, calls = before ++ call :: after ∧ call ≠ .nextToken ∧
    ∃ r ∈ (replies (s.performAll before).2.scanner call).1, r.isLast = true

variable (s : Session)

theorem endGiven_cons (call : Call) (calls : List Call) :
    s.EndGiven (call :: calls) ↔
      (call ≠ .nextToken ∧ ∃ r ∈ (replies s.scanner call).1, r.isLast = true) ∨
        (s.perform call).2.EndGiven calls := by
  constructor
  · rintro ⟨before, call', after, hcalls, hgiven⟩
    cases before with
    | nil =>
      obtain ⟨rfl, -⟩ := List.cons.inj hcalls
      exact .inl hgiven
    | cons first before =>
      obtain ⟨rfl, hlater⟩ := List.cons.inj hcalls
      exact .inr ⟨before, call', after, hlater, hgiven⟩
  · rintro (hgiven | ⟨before, call', after, rfl, hgiven⟩)
    · exact ⟨[], call, calls, rfl, hgiven⟩
    · exact ⟨call :: before, call', after, rfl, hgiven⟩

theorem finished_replies (scanner : Scanner) (call : Call) :
    (replies scanner call).2.finished = true ↔
      scanner.finished = true ∨ (call ≠ .nextToken ∧ ∃ r ∈ (replies scanner call).1, r.isLast = true) := by
  cases call with
  | nextToken => simp [replies, Scanner.nextToken]
  | next =>
    rw [replies, scanner.finished_next]
    simp
  | drain =>
    obtain ⟨hfinished, hgiven⟩ := scanner.finished_drain
    refine ⟨fun _ => ?_, fun _ => hfinished⟩
    exact hgiven.imp_right fun hlast => ⟨by decide, hlast⟩

/-- A scanner has finished after calls that have given the end of the source or a failure other than by
`nextToken`, and only then. -/
theorem finished_performAll (calls : List Call) :
    (s.performAll calls).2.scanner.finished = true ↔ s.scanner.finished = true ∨ s.EndGiven calls := by
  induction calls generalizing s with
  | nil =>
    refine ⟨.inl, fun h => h.resolve_right ?_⟩
    rintro ⟨before, call, after, hcalls, -⟩
    exact absurd hcalls (by simp)
  | cons call calls ih =>
    have hcall : (s.perform call).2.scanner = (replies s.scanner call).2 := rfl
    show ((s.perform call).2.performAll calls).2.scanner.finished = true ↔ _
    rw [ih, endGiven_cons, hcall, finished_replies, or_assoc]

end Session

/-! ## Tokens up to the last -/

namespace Scanner

variable {s : Scanner} {ts ts' : List Token} {last last' : Except Diagnostic Token}

/-- Calls for the next token give the tokens, and then one answer more. -/
def Gives (s : Scanner) (ts : List Token) (last : Except Diagnostic Token) : Prop :=
  (s.nextTokens (ts.length + 1)).map Reply.answer = (ts.map fun t => some (.ok t)) ++ [some last]

/-- The answers that `next` gives last. -/
def IsLast : Except Diagnostic Token → Prop
  | .ok t => t.isEof = true
  | .error _ => True

theorem gives_nil : s.Gives [] last ↔ s.cursor.scan.answer = last := by
  simp [Gives, nextTokens, nextToken]

theorem gives_cons {t : Token} :
    s.Gives (t :: ts) last ↔ s.cursor.scan.answer = .ok t ∧ s.nextToken.2.Gives ts last := by
  have hanswer : s.nextToken.1.answer = some s.cursor.scan.answer := rfl
  rw [Gives, List.length_cons, nextTokens, List.map_cons, List.map_cons, List.cons_append, List.cons.injEq,
    hanswer, Option.some.injEq]
  exact Iff.rfl

/-- Calls give one sequence of tokens only up to the end of the source or the first failure. -/
theorem Gives.unique (h : s.Gives ts last) (h' : s.Gives ts' last') (hts : ∀ t ∈ ts, t.isEof = false)
    (hts' : ∀ t ∈ ts', t.isEof = false) (hlast : IsLast last) (hlast' : IsLast last') :
    ts = ts' ∧ last = last' := by
  -- a token that comes before the last answer is no last answer
  have hproper : ∀ {t : Token} {l : Except Diagnostic Token}, t.isEof = false → IsLast l → l ≠ .ok t := by
    rintro t _ ht hl rfl
    exact absurd (ht.symm.trans hl) Bool.false_ne_true
  induction ts generalizing s ts' with
  | nil =>
    rw [gives_nil] at h
    cases ts' with
    | nil =>
      rw [gives_nil] at h'
      exact ⟨rfl, h.symm.trans h'⟩
    | cons t' ts' =>
      have hfirst := (gives_cons.mp h').1
      exact absurd (h.symm.trans hfirst) (hproper (hts' t' (List.mem_cons_self ..)) hlast)
  | cons t ts ih =>
    obtain ⟨hfirst, hlater⟩ := gives_cons.mp h
    cases ts' with
    | nil =>
      rw [gives_nil] at h'
      exact absurd (h'.symm.trans hfirst) (hproper (hts t (List.mem_cons_self ..)) hlast')
    | cons t' ts' =>
      obtain ⟨hfirst', hlater'⟩ := gives_cons.mp h'
      obtain rfl := Except.ok.inj (hfirst.symm.trans hfirst')
      rw [List.forall_mem_cons] at hts hts'
      obtain ⟨rfl, rfl⟩ := ih hlater hlater' hts.2 hts'.2
      exact ⟨rfl, rfl⟩

/-- Calls give tokens up to the end of the source or the first failure, and that is what draining the
scanner comes to. -/
theorem exists_gives {reads : List LineRead} {c : Cursor} (hreads : Feedless reads) (hc : Cursor.Seen reads c) :
    ∃ ts last, (∀ t ∈ ts, t.isEof = false) ∧ (Scanner.mk c false).Gives ts last ∧
      ((last = .ok .eof ∧ (Tokenized.ofReplies (Scanner.mk c false).drain.1).result = .ok (ts ++ [.eof])) ∨
        ∃ d, last = .error d ∧ (Tokenized.ofReplies (Scanner.mk c false).drain.1).result = .error d) := by
  induction hn : c.stream.length using Nat.strong_induction_on generalizing c with
  | _ n ih =>
    rw [ofReplies_drain_scan]
    cases hanswer : c.scan.answer with
    | error d => exact ⟨[], .error d, by simp, gives_nil.mpr hanswer, .inr ⟨d, rfl, rfl⟩⟩
    | ok t =>
      cases ht : t.isEof with
      | true =>
        obtain ⟨rfl, -⟩ := hc.exhausted_of_isEof hreads hanswer ht
        exact ⟨[], .ok .eof, by simp, gives_nil.mpr hanswer, .inl ⟨rfl, rfl⟩⟩
      | false =>
        have hless := Cursor.length_stream_scan hanswer ht
        obtain ⟨ts, last, hts, hgives, hresult⟩ := ih _ (hn ▸ hless) hc.scan rfl
        refine ⟨t :: ts, last, List.forall_mem_cons.mpr ⟨ht, hts⟩, gives_cons.mpr ⟨hanswer, hgives⟩, ?_⟩
        rcases hresult with ⟨rfl, hresult⟩ | ⟨d, rfl, hresult⟩
        · exact .inl ⟨rfl, by simp [Tokenized.after, hresult, ht, Except.map]⟩
        · exact .inr ⟨d, rfl, by simp [Tokenized.after, hresult, ht, Except.map]⟩

/-- Draining a scanner comes to tokens or to a failure as calls for the next token give them. -/
theorem result_drain_iff {reads : List LineRead} {c : Cursor} (hreads : Feedless reads)
    (hc : Cursor.Seen reads c) :
    let s : Scanner := ⟨c, false⟩
    (∀ ts, (Tokenized.ofReplies s.drain.1).result = .ok ts ↔
        ∃ front, ts = front ++ [.eof] ∧ (∀ t ∈ front, t.isEof = false) ∧ s.Gives front (.ok .eof)) ∧
      ∀ d, (Tokenized.ofReplies s.drain.1).result = .error d ↔
        ∃ front, (∀ t ∈ front, t.isEof = false) ∧ s.Gives front (.error d) := by
  intro s
  obtain ⟨ts, last, hts, hgives, hresult⟩ := exists_gives hreads hc
  rcases hresult with ⟨rfl, hresult⟩ | ⟨d, rfl, hresult⟩
  · refine ⟨fun ts' => ?_, fun d => ?_⟩
    · rw [hresult, Except.ok.injEq]
      constructor
      · rintro rfl
        exact ⟨ts, rfl, hts, hgives⟩
      · rintro ⟨front, rfl, hfront, hgives'⟩
        rw [(hgives.unique hgives' hts hfront rfl rfl).1]
    · rw [hresult]
      constructor
      · intro h
        cases h
      rintro ⟨front, hfront, hgives'⟩
      cases (hgives.unique hgives' hts hfront rfl trivial).2
  · refine ⟨fun ts' => ?_, fun d' => ?_⟩
    · rw [hresult]
      constructor
      · intro h
        cases h
      rintro ⟨front, -, hfront, hgives'⟩
      cases (hgives.unique hgives' hts hfront trivial rfl).2
    · rw [hresult, Except.error.injEq]
      constructor
      · rintro rfl
        exact ⟨ts, hts, hgives⟩
      · rintro ⟨front, hfront, hgives'⟩
        exact Except.error.inj (hgives.unique hgives' hts hfront trivial trivial).2

end Scanner

/-! ## Any mixture -/

/-- Whatever the reads come to, and whichever calls are made: the replies that give something are those of
calls for the next token alone, as many as there are, which report the same and leave the cursor in the same
place. Once a call other than `nextToken` has given the end of the source or a failure, `next` gives
nothing, lets nothing know and changes nothing, whatever was called in between; before that it answers what
`nextToken` does. For every text a scanner can be made, and scanning it comes to tokens if and only if calls
for the next token give them, the end of the source as the last and only there; it comes to a failure if and
only if that is the first that they give, with no end of the source before it. -/
theorem Session.calls_agree {reads : List LineRead} {scanner : Scanner} (h : Scanner.ofReads reads = .ok scanner)
    (sink : Sink) (calls : List Call) :
    let done := performAll ⟨scanner, sink⟩ calls
    let replies := done.1.map Entry.reply
    let given := replies.filter (·.answer.isSome)
    let s := done.2.scanner
    (given = scanner.nextTokens given.length ∧ s.cursor = (scanner.afterTokens given.length).cursor ∧
        replies.flatMap Reply.reported = given.flatMap Reply.reported ∧
          done.2.sink = sink.reportAll (given.flatMap Reply.reported)) ∧
      (EndGiven ⟨scanner, sink⟩ calls → s.next = (.nothing, s)) ∧
      (¬ EndGiven ⟨scanner, sink⟩ calls →
        s.next.1 = s.nextToken.1 ∧ s.next.1.answer ≠ none ∧ s.next.2.cursor = s.nextToken.2.cursor) ∧
      ∀ text, ∃ first, Scanner.ofReads (LineRead.ofText text) = .ok first ∧
        (∀ ts, (tokenize text).result = .ok ts ↔
          ∃ front, ts = front ++ [.eof] ∧ (∀ t ∈ front, t.isEof = false) ∧ first.Gives front (.ok .eof)) ∧
        ∀ d, (tokenize text).result = .error d ↔
          ∃ front, (∀ t ∈ front, t.isEof = false) ∧ first.Gives front (.error d) := by
  intro done replies given s
  have hreplies : scanner.cursor.Replies replies s.cursor := replies_performAll ⟨scanner, sink⟩ calls
  have hunfinished : scanner.finished = false := by
    obtain ⟨c, -, rfl⟩ := Scanner.ofReads_eq_ok.mp h
    rfl
  obtain ⟨hgiven, hcursor, hreported⟩ := hreplies.given scanner.finished
  have hfinished := finished_performAll ⟨scanner, sink⟩ calls
  refine ⟨⟨hgiven, hcursor, hreported, ?_⟩, fun hend => ?_, fun hend => ?_, ?_⟩
  · rw [← hreported, List.flatMap_map]
    exact sink_performAll ⟨scanner, sink⟩ calls
  · exact Scanner.next_of_finished (hfinished.mpr (.inr hend))
  · have hs : s.finished = false := by
      by_contra hs
      rw [Bool.not_eq_false] at hs
      rcases hfinished.mp hs with hfirst | hgiven
      · exact absurd (hunfinished.symm.trans hfirst) Bool.false_ne_true
      · exact hend hgiven
    rw [Scanner.next_of_unfinished hs]
    exact ⟨rfl, Option.some_ne_none _, rfl⟩
  · intro text
    obtain ⟨c, hc, -, -⟩ := exists_first text
    refine ⟨⟨c, false⟩, Scanner.ofReads_eq_ok.mpr ⟨c, hc, rfl⟩, ?_⟩
    rw [tokenize, tokenizeReads_of_ok hc, ← Scanner.ofReplies_drain]
    exact Scanner.result_drain_iff (LineRead.feedless_ofText text) (.first hc)

/-- After a failure that `next` has given, `nextToken` still gives tokens, and `next` gives nothing. After a
failure that `nextToken` has given, `next` goes on. -/
theorem Session.calls_agree_after_failure :
    let reads : List LineRead := [.line ['a'], .failed "lost", .line ['b']]
    let scanner : Scanner := ⟨⟨some [.failed "lost", .line ['b']], ['a'], ['a'], 1, 1⟩, false⟩
    let calls : List Call := [.next, .next, .next, .nextToken, .next, .nextToken]
    let done := performAll ⟨scanner, .collecting []⟩ calls
    let replies := done.1.map Entry.reply
    let given := replies.filter (·.answer.isSome)
    let s := done.2.scanner
    let s' := (performAll ⟨scanner, .collecting []⟩ [.nextToken, .nextToken]).2.scanner
    Scanner.ofReads reads = .ok scanner ∧
      replies.map Reply.answer =
        [some (.ok (.spelled .identifier ['a'])), some (.error ⟨.readFailed "lost", ⟨2, 1⟩, ""⟩), none,
          some (.ok (.spelled .identifier ['b'])), none, some (.ok .eof)] ∧
      given = scanner.nextTokens given.length ∧
      (EndGiven ⟨scanner, .collecting []⟩ calls ∧ s.next = (.nothing, s)) ∧
      (¬ EndGiven ⟨scanner, .collecting []⟩ [.nextToken, .nextToken] ∧ s'.next.1 = s'.nextToken.1) := by
  intro reads scanner calls done replies given s s'
  have hscanner : Scanner.ofReads reads = .ok scanner := by decide
  obtain ⟨⟨hgiven, -⟩, hended, -⟩ := calls_agree hscanner (.collecting []) calls
  obtain ⟨-, -, hunended, -⟩ := calls_agree hscanner (.collecting []) [.nextToken, .nextToken]
  have hfailure : EndGiven ⟨scanner, .collecting []⟩ calls :=
    ⟨[.next], .next, [.next, .nextToken, .next, .nextToken], rfl, by decide, _, List.mem_singleton_self _,
      by decide +kernel⟩
  have hnone : ¬ EndGiven ⟨scanner, .collecting []⟩ [.nextToken, .nextToken] := by
    rintro ⟨before, call, after, hcalls, hcall, -⟩
    have hmem : call ∈ [Call.nextToken, Call.nextToken] := hcalls ▸ List.mem_append_right _ (List.mem_cons_self ..)
    exact hcall (by simpa using hmem)
  exact ⟨hscanner, by decide +kernel, hgiven, ⟨hfailure, hended hfailure⟩, hnone, (hunended hnone).1⟩

end MiniLex
