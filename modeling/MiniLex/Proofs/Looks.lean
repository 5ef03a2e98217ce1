import MiniLex.Proofs.Lowering

/-!
# Calls, look by look

A call for the next token looks at the source again and again, and the next call goes on where it
stopped. So the looks make one sequence, whichever calls they are made for, also when calls fail in
between.

- `Yield`: a diagnostic that was reported, a failure, or a token; `Turn.yields`, `Reply.yields`: all
  that a look or a call yields, in order.
- `Cursor.Looks c ys last`: looks lead from `c` to `last` and yield `ys` on the way.
- `Cursor.looks_scan`: a call is made of looks without an answer and one look with it.
- `Scanner.UntilEnd s replies`: calls for the next token, up to the first that gives the end.

Main statements: looks that come to the end of the source are what calls until the end yield
(`Cursor.Looks.untilEnd`), and, if none of them fails, what the whole source comes to
(`Cursor.Looks.tokenized`).
-/

namespace MiniLex

/-! ## Yields -/

/-- One thing that a look or a call yields. -/
inductive Yield where
  /-- A diagnostic that was reported and recovered from. -/
  | reported (d : Diagnostic)
  /-- A failure. -/
  | failed (d : Diagnostic)
  | token (t : Token)
deriving DecidableEq

namespace Yield

/-- An answer as a yield. -/
def ofAnswer : Except Diagnostic Token → Yield
  | .ok t => .token t
  | .error d => .failed d

def reported? : Yield → Option Diagnostic
  | .reported d => some d
  | _ => none

def failed? : Yield → Option Diagnostic
  | .failed d => some d
  | _ => none

def token? : Yield → Option Token
  | .token t => some t
  | _ => none

/-- Whether the yield is a failure. -/
def isFailure : Yield → Bool
  | .failed _ => true
  | _ => false

end Yield

namespace Turn

/-- All that a look yields, in order. -/
def yields (t : Turn) : List Yield :=
  t.reported.map .reported ++ (t.answer.map Yield.ofAnswer).toList

variable (t : Turn)

theorem yields_of_none (h : t.answer = none) : t.yields = t.reported.map .reported := by
  rw [yields, h]
  exact List.append_nil _

theorem ofAnswer_mem_yields {answer : Except Diagnostic Token} (h : t.answer = some answer) :
    .ofAnswer answer ∈ t.yields := by
  rw [yields, h]
  exact List.mem_append_right _ (List.mem_singleton_self _)

theorem filterMap_reported?_yields : t.yields.filterMap Yield.reported? = t.reported := by
  have hanswer : (t.answer.map Yield.ofAnswer).toList.filterMap Yield.reported? = [] := by
    cases t.answer with
    | none => rfl
    | some answer => cases answer <;> rfl
  rw [yields, List.filterMap_append, hanswer, List.append_nil, List.filterMap_map]
  exact List.filterMap_some

theorem filterMap_token?_yields :
    t.yields.filterMap Yield.token? =
      ((t.answer.map Yield.ofAnswer).toList).filterMap Yield.token? := by
  have hreported : (t.reported.map Yield.reported).filterMap Yield.token? = [] := by
    rw [List.filterMap_map]
    exact List.filterMap_none _
  rw [yields, List.filterMap_append, hreported, List.nil_append]

end Turn

/-- All that a call yields, in order. -/
def Reply.yields (r : Reply) : List Yield :=
  r.reported.map .reported ++ (r.answer.map Yield.ofAnswer).toList

/-- What a whole source comes to that yields tokens and reports, and then the end. -/
def Tokenized.ofYields (ys : List Yield) : Tokenized :=
  ⟨.ok (ys.filterMap Yield.token? ++ [.eof]), ys.filterMap Yield.reported?⟩

namespace Cursor

/-! ## Looks -/

/-- Looks that lead from one cursor to another. -/
inductive Looks : Cursor → List Yield → Cursor → Prop where
  | nil {c : Cursor} : Looks c [] c
  | turn {c last : Cursor} {ys : List Yield} (later : Looks c.turn.cursor ys last) :
      Looks c (c.turn.yields ++ ys) last

variable {c last : Cursor} {ys : List Yield}

theorem Looks.append {c' : Cursor} {ys' : List Yield} (h : c.Looks ys c') (h' : c'.Looks ys' last) :
    c.Looks (ys ++ ys') last := by
  induction h with
  | nil => exact h'
  | turn _ ih =>
    rw [List.append_assoc]
    exact .turn (ih h')

/-- A scan is made of looks that answer nothing and of the look that answers. -/
theorem looks_scan (c : Cursor) :
    ∃ reported last, Looks c (reported.map .reported) last ∧ last.turn.answer = some c.scan.answer ∧
      last.turn.cursor = c.scan.cursor ∧
        c.scan.notes.filterMap Note.diagnostic? = reported ++ last.turn.reported := by
  fun_induction Cursor.scan c with
  | case1 c answer hanswer => exact ⟨[], c, .nil, hanswer, rfl, rfl⟩
  | case2 c hnone hlt later ih =>
    obtain ⟨reported, last, hlooks, hanswer, hcursor, hreported⟩ := ih
    refine ⟨c.turn.reported ++ reported, last, ?_, hanswer, hcursor, ?_⟩
    · rw [List.map_append, ← c.turn.yields_of_none hnone]
      exact hlooks.turn
    · rw [List.filterMap_append, hreported, List.append_assoc]
      rfl

/-- The look from a line feed. -/
theorem turn_of_feed {c : Cursor} {rs : List LineRead} (hp : c.pending = some rs) (hrest : c.rest = []) :
    c.turn = Turn.ofMove (c.advanceLine rs) := by
  have hx : ¬ c.isExhausted = true := by simp [isExhausted, hp]
  rw [turn, if_neg hx, hrest]
  show Turn.ofMove c.advance = _
  simp [advance, hp, hrest]

/-- Looks lead from cursors of a run to cursors of a run. -/
theorem Looks.seen {reads : List LineRead} (h : Looks c ys last) (hc : Seen reads c) : Seen reads last := by
  induction h with
  | nil => exact hc
  | turn _ ih => exact ih hc.turn

end Cursor

/-! ## Calls for the next token -/

/-- The replies to calls for the next token, up to the first that gives the end of the source. The calls
go on after each failure. -/
inductive Scanner.UntilEnd : Scanner → List Reply → Prop where
  | last {s : Scanner} (ended : s.nextToken.1.answer = some (.ok .eof)) : UntilEnd s [s.nextToken.1]
  | more {s : Scanner} {replies : List Reply} (unended : s.nextToken.1.answer ≠ some (.ok .eof))
      (later : UntilEnd s.nextToken.2 replies) : UntilEnd s (s.nextToken.1 :: replies)

namespace Cursor

variable {c last : Cursor} {ys : List Yield}

/-- What a call yields whose first look has no answer. -/
theorem yields_of_none (finished : Bool) (hnone : c.turn.answer = none) :
    (Scanner.mk c finished).nextToken.1.yields =
        c.turn.yields ++ (Scanner.mk c.turn.cursor finished).nextToken.1.yields ∧
      (Scanner.mk c finished).nextToken.1.answer = (Scanner.mk c.turn.cursor finished).nextToken.1.answer ∧
        (Scanner.mk c finished).nextToken.2 = (Scanner.mk c.turn.cursor finished).nextToken.2 := by
  have hscan := scan_of_none hnone
  have hanswer : (Scanner.mk c finished).nextToken.1.answer =
      (Scanner.mk c.turn.cursor finished).nextToken.1.answer := by
    simp only [Scanner.nextToken, hscan]
  refine ⟨?_, hanswer, by simp only [Scanner.nextToken, hscan]⟩
  have hreported : (Scanner.mk c finished).nextToken.1.reported =
      c.turn.reported ++ (Scanner.mk c.turn.cursor finished).nextToken.1.reported := by
    simp only [Scanner.reported_nextToken, hscan, List.filterMap_append]
    rfl
  rw [Reply.yields, Reply.yields, hreported, hanswer, c.turn.yields_of_none hnone, List.map_append, List.append_assoc]

/-- What a call yields whose first look has an answer. -/
theorem yields_of_some (finished : Bool) {answer : Except Diagnostic Token} (hanswer : c.turn.answer = some answer) :
    (Scanner.mk c finished).nextToken.1.yields = c.turn.yields ∧
      (Scanner.mk c finished).nextToken.1.answer = some answer ∧
        (Scanner.mk c finished).nextToken.2 = ⟨c.turn.cursor, finished⟩ := by
  have hscan := scan_of_answer hanswer
  have hreply : (Scanner.mk c finished).nextToken.1.answer = some answer := by
    simp only [Scanner.nextToken, hscan]
  refine ⟨?_, hreply, by simp only [Scanner.nextToken, hscan]⟩
  have hreported : (Scanner.mk c finished).nextToken.1.reported = c.turn.reported := by
    simp only [Scanner.reported_nextToken, hscan]
    rfl
  rw [Reply.yields, Turn.yields, hreported, hreply, hanswer]

/-- A look without an answer adds what it yields to the calls that go on from it. -/
theorem untilEnd_of_none {finished : Bool} (hnone : c.turn.answer = none) {replies : List Reply}
    (h : (Scanner.mk c.turn.cursor finished).UntilEnd replies) :
    ∃ replies', (Scanner.mk c finished).UntilEnd replies' ∧
      replies'.flatMap Reply.yields = c.turn.yields ++ replies.flatMap Reply.yields := by
  obtain ⟨hyields, hanswer, hnext⟩ := yields_of_none finished hnone
  cases h with
  | last ended =>
    refine ⟨_, .last (hanswer.trans ended), ?_⟩
    simp only [List.flatMap_cons, List.flatMap_nil, List.append_nil, hyields]
  | more unended later =>
    rw [← hnext] at later
    refine ⟨_, .more (hanswer ▸ unended) later, ?_⟩
    rw [List.flatMap_cons, List.flatMap_cons, hyields, List.append_assoc]

/-- Looks that come to the end of the source, and meet no end before, are what calls until the end
yield. -/
theorem Looks.untilEnd (h : Looks c ys last) (hlast : last.isExhausted = true)
    (hproper : ∀ t, .token t ∈ ys → t.isEof = false) (finished : Bool) :
    ∃ replies, (Scanner.mk c finished).UntilEnd replies ∧
      replies.flatMap Reply.yields = ys ++ [.token .eof] := by
  induction h with
  | @nil c =>
    have hturn := turn_of_exhausted hlast
    obtain ⟨hyields, hanswer, -⟩ := yields_of_some finished (congrArg Turn.answer hturn)
    refine ⟨_, .last hanswer, ?_⟩
    rw [List.flatMap_singleton, hyields, hturn]
    rfl
  | @turn c last ys later ih =>
    obtain ⟨replies, huntil, hreplies⟩ := ih hlast fun t ht => hproper t (List.mem_append_right _ ht)
    cases hturn : c.turn.answer with
    | none =>
      obtain ⟨replies', huntil', hyields⟩ := untilEnd_of_none hturn huntil
      exact ⟨replies', huntil', by rw [hyields, hreplies, List.append_assoc]⟩
    | some answer =>
      obtain ⟨hyields, hanswer, hnext⟩ := yields_of_some finished hturn
      have hunended : (Scanner.mk c finished).nextToken.1.answer ≠ some (.ok .eof) := by
        intro hended
        rw [hanswer] at hended
        obtain rfl := Option.some.inj hended
        cases hproper .eof (List.mem_append_left _ (c.turn.ofAnswer_mem_yields hturn))
      rw [← hnext] at huntil
      refine ⟨_, .more hunended huntil, ?_⟩
      rw [List.flatMap_cons, hyields, hreplies, List.append_assoc]

/-! ## Whole sources -/

/-- Looks that yield tokens and reports only, and come to the end of the source, are what the source
comes to. -/
theorem Looks.tokenized (h : Looks c ys last) (hlast : last.isExhausted = true)
    (hproper : ∀ t, .token t ∈ ys → t.isEof = false) (hunfailing : ∀ d, .failed d ∉ ys) : c.tokenized = .ofYields ys := by
  induction h with
  | nil => exact tokenized_of_nil (stream_of_exhausted hlast)
  | @turn c last ys later ih =>
    have hyields : Tokenized.ofYields (c.turn.yields ++ ys) =
        (Tokenized.ofYields ys).after c.turn.reported (c.turn.yields.filterMap Yield.token?) := by
      simp [Tokenized.ofYields, Tokenized.after, Except.map, c.turn.filterMap_reported?_yields]
    rw [tokenized_eq, hyields, ← ih hlast (fun t ht => hproper t (List.mem_append_right _ ht))
      fun d hd => hunfailing d (List.mem_append_right _ hd)]
    cases hturn : c.turn.answer with
    | none =>
      rw [c.turn.filterMap_token?_yields, hturn]
      rfl
    | some answer =>
      have hmem := c.turn.ofAnswer_mem_yields hturn
      cases answer with
      | error d => exact absurd (List.mem_append_left _ hmem) (hunfailing d)
      | ok t =>
        have ht : t.isEof = false := hproper t (List.mem_append_left _ hmem)
        rw [c.turn.filterMap_token?_yields, hturn]
        exact if_neg (by simp [ht])

end Cursor

end MiniLex
