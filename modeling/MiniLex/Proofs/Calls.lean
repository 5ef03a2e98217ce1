import MiniLex.Proofs.Run
import MiniLex.Session

/-!
# Calls of a scanner

A scanner is asked by three kinds of call, in any order. Whichever they are, each reply is that of
one scan, or it is the reply that gives nothing, which leaves the cursor where it is.

- `Session.performAll`: the calls of a session, one after another.
- `Cursor.reply`: the reply to a call for the next token.
- `Cursor.Replies c replies c'`: replies of these two kinds lead from `c` to `c'`. A property of all
  calls is proved by induction over it, with one case for each kind of reply.

Main statement: the calls of a session lead from cursor to cursor in this way
(`Session.replies_performAll`).
-/

namespace MiniLex

/-! ## Replies -/

namespace Cursor

/-- The reply to a call for the next token. -/
def reply (c : Cursor) : Reply :=
  (Scanner.mk c false).nextToken.1

/-- Replies that lead from one cursor to another. -/
inductive Replies : Cursor → List Reply → Cursor → Prop where
  | nil {c : Cursor} : Replies c [] c
  /-- A call that gives nothing. -/
  | nothing {c last : Cursor} {replies : List Reply} (rest : Replies c replies last) :
      Replies c (.nothing :: replies) last
  /-- A call that scans for a token. -/
  | scan {c last : Cursor} {replies : List Reply} (rest : Replies c.scan.cursor replies last) :
      Replies c (c.reply :: replies) last

theorem Replies.append {c c' c'' : Cursor} {replies replies' : List Reply} (h : c.Replies replies c')
    (h' : c'.Replies replies' c'') : c.Replies (replies ++ replies') c'' := by
  induction h with
  | nil => exact h'
  | nothing _ ih => exact .nothing (ih h')
  | scan _ ih => exact .scan (ih h')

/-- Replies lead from cursors of a run to cursors of a run. -/
theorem Replies.seen {reads : List LineRead} {c last : Cursor} {replies : List Reply}
    (h : c.Replies replies last) (hc : Seen reads c) : Seen reads last := by
  induction h with
  | nil => exact hc
  | nothing _ ih => exact ih hc
  | scan _ ih => exact ih hc.scan

section Reported

variable {reads : List LineRead} {P : Diagnostic → Prop}

end Reported

end Cursor

namespace Scanner

/-- A scanner is made of the first advance. -/
theorem ofReads_eq_ok {reads : List LineRead} {s : Scanner} :
    ofReads reads = .ok s ↔ ∃ c, (Cursor.start reads).advance = .ok c ∧ s = ⟨c, false⟩ := by
  unfold ofReads
  cases (Cursor.start reads).advance with
  | error halt => simp
  | ok c => simp [eq_comm]

/-- A scanner that has just been made looks at the source from the first cursor. -/
theorem seen_of_ofReads {reads : List LineRead} {s : Scanner} (h : ofReads reads = .ok s) :
    Cursor.Seen reads s.cursor := by
  obtain ⟨c, hc, rfl⟩ := ofReads_eq_ok.mp h
  exact .first hc

variable (s : Scanner)

theorem replies_nextToken : s.cursor.Replies [s.nextToken.1] s.nextToken.2.cursor :=
  .scan .nil

theorem replies_next : s.cursor.Replies [s.next.1] s.next.2.cursor := by
  cases hfinished : s.finished with
  | true =>
    have hnext : s.next = (.nothing, s) := if_pos hfinished
    rw [hnext]
    exact .nothing .nil
  | false =>
    have hnext : s.next = (s.nextToken.1, { s.nextToken.2 with finished := s.nextToken.1.isLast }) := by
      simp [next, hfinished]
    rw [hnext]
    exact s.replies_nextToken

theorem replies_drain : s.cursor.Replies s.drain.1 s.drain.2.cursor := by
  fun_induction drain s with
  | case1 s _ => exact s.replies_next
  | case2 s _ _ _ replies last hdrain ih =>
    rw [hdrain] at ih
    exact s.replies_next.append ih

theorem replies_call (call : Session.Call) :
    s.cursor.Replies (Session.replies s call).1 (Session.replies s call).2.cursor := by
  cases call with
  | nextToken => exact s.replies_nextToken
  | next => exact s.replies_next
  | drain => exact s.replies_drain

end Scanner

/-! ## Sessions -/

namespace Session

/-- The entries that several calls add, one call after another, and the session after them. -/
def performAll (s : Session) : List Call → List Entry × Session
  | [] => ([], s)
  | call :: calls =>
    let (entries, s') := s.perform call
    let (more, last) := s'.performAll calls
    (entries ++ more, last)

theorem enter_replies (sink : Sink) (replies : List Reply) :
    (enter sink replies).1.map Entry.reply = replies ∧
      (enter sink replies).2 = sink.reportAll (replies.flatMap Reply.reported) := by
  induction replies generalizing sink with
  | nil => exact ⟨rfl, rfl⟩
  | cons reply replies ih =>
    obtain ⟨hreplies, hsink⟩ := ih (sink.reportAll reply.reported)
    refine ⟨congrArg (reply :: ·) hreplies, ?_⟩
    rw [List.flatMap_cons, Sink.reportAll, List.foldl_append]
    exact hsink

/-- Whichever calls are made, each reply scans for a token or gives nothing. -/
theorem replies_performAll (s : Session) (calls : List Call) :
    s.scanner.cursor.Replies ((s.performAll calls).1.map Entry.reply)
      (s.performAll calls).2.scanner.cursor := by
  induction calls generalizing s with
  | nil => exact .nil
  | cons call calls ih =>
    obtain ⟨hreplies, -⟩ := enter_replies s.sink (replies s.scanner call).1
    have hentries : (s.performAll (call :: calls)).1.map Entry.reply =
        (replies s.scanner call).1 ++ ((s.perform call).2.performAll calls).1.map Entry.reply := by
      rw [← hreplies, ← List.map_append]
      rfl
    rw [hentries]
    exact (s.scanner.replies_call call).append (ih (s.perform call).2)

end Session

end MiniLex
