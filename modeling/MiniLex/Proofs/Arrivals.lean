import MiniLex.Proofs.Lines
import MiniLex.Source.Cursor

/-!
# What moving on delivers

A cursor is moved on again and again. What each move comes to, and what there is to see right after it, is
told by the attempts to read a line that the source answers, one after another, and by nothing else.

- `RawRead`, `RawReads held events raws`: the bytes that each attempt to read a line gives, said without
  any regard to how lines are split. Every source answers its attempts in one way
  (`exists_rawReads`, `RawReads.unique`).
- `withoutLineEnd`, `LineRead.ofRaw`: the text of a line, and the line reads that the attempts amount to
  (`RawReads.ofHeld_eq`).
- `Arrival`, `Cursor.arrive`, `Cursor.arrival c i`: a move and what is seen after it; the move after `i`
  others.
- `Arrival.ofRaw`: what is to be delivered of the attempts, with the place of each character.
- `Cursor.Arrives c arrivals last`: moves from `c` come to the arrivals and lead to `last`. A line is
  arrived at as a whole (`Cursor.arrives_line`).

Main statement: `Cursor.arrival_ofEvents`.
-/

namespace MiniLex

/-! ## Attempts to read a line -/

/-- What one attempt to read a line gives. -/
inductive RawRead where
  /-- The bytes up to a line feed, or up to the end of the source; none between lines at the end. -/
  | bytes (bs : List UInt8)
  /-- The attempt failed, and what it had read of a line is lost. -/
  | failed (message : String)
deriving DecidableEq

/-- What attempts to read a line give, one after another, if some bytes of a line are `held` already. They
go on to the last read of the source, so that each attempt after them gives nothing. -/
inductive RawReads : List UInt8 → List ReadEvent → List RawRead → Prop where
  /-- Bytes with a line feed complete a line. -/
  | line {held body rest : List UInt8} {events : List ReadEvent} {raws : List RawRead} (feed : 0x0A ∉ body)
      (later : RawReads [] (.chunk rest :: events) raws) :
      RawReads held (.chunk (body ++ 0x0A :: rest) :: events) (.bytes (held ++ body ++ [0x0A]) :: raws)
  /-- Bytes without one go on with the line. -/
  | more {held bytes : List UInt8} {events : List ReadEvent} {raws : List RawRead} (feed : 0x0A ∉ bytes)
      (later : RawReads (held ++ bytes) events raws) : RawReads held (.chunk bytes :: events) raws
  | interrupted {held : List UInt8} {events : List ReadEvent} {raws : List RawRead}
      (later : RawReads held events raws) : RawReads held (.interrupted :: events) raws
  | failed {held : List UInt8} {message : String} {events : List ReadEvent} {raws : List RawRead}
      (later : RawReads [] events raws) : RawReads held (.failed message :: events) (.failed message :: raws)
  /-- An end cuts off the line, if there is one. -/
  | ended {held : List UInt8} {events : List ReadEvent} {raws : List RawRead}
      (later : RawReads [] events raws) : RawReads held (.ended :: events) (.bytes held :: raws)
  | stop {held : List UInt8} : RawReads held [] [.bytes held]

/-- A source whose lines can be read to the end can also be read if more bytes come first. -/
theorem exists_rawReads_chunk {events : List ReadEvent} (h : ∀ held, ∃ raws, RawReads held events raws)
    (held bytes : List UInt8) : ∃ raws, RawReads held (.chunk bytes :: events) raws := by
  induction hn : bytes.length using Nat.strong_induction_on generalizing held bytes with
  | _ n ih =>
    by_cases hfeed : 0x0A ∈ bytes
    · -- what comes after the first feed is shorter
      obtain ⟨body, rest, rfl, hbody⟩ := List.eq_append_cons_of_mem hfeed
      have hshorter : rest.length < n := by
        rw [← hn, List.length_append, List.length_cons]
        omega
      obtain ⟨raws, hraws⟩ := ih _ hshorter [] rest rfl
      exact ⟨_, .line hbody hraws⟩
    · obtain ⟨raws, hraws⟩ := h (held ++ bytes)
      exact ⟨raws, .more hfeed hraws⟩

theorem exists_rawReads (held : List UInt8) (events : List ReadEvent) : ∃ raws, RawReads held events raws := by
  induction events generalizing held with
  | nil => exact ⟨_, .stop⟩
  | cons event events ih =>
    cases event with
    | chunk bytes => exact exists_rawReads_chunk ih held bytes
    | interrupted =>
      obtain ⟨raws, hraws⟩ := ih held
      exact ⟨raws, .interrupted hraws⟩
    | failed message =>
      obtain ⟨raws, hraws⟩ := ih []
      exact ⟨_, .failed hraws⟩
    | ended =>
      obtain ⟨raws, hraws⟩ := ih []
      exact ⟨_, .ended hraws⟩

/-- The first line feed tells what is before it and what is after it. -/
theorem append_feed_inj {body body' rest rest' : List UInt8} (hbody : 0x0A ∉ body) (hbody' : 0x0A ∉ body')
    (h : body ++ 0x0A :: rest = body' ++ 0x0A :: rest') : body = body' ∧ rest = rest' := by
  have hlength : body.length = body'.length := by
    have hindex := congrArg (List.idxOf 0x0A) h
    rw [List.idxOf_append_of_notMem hbody, List.idxOf_append_of_notMem hbody'] at hindex
    simpa using hindex
  obtain ⟨hbodies, hrests⟩ := List.append_inj h hlength
  exact ⟨hbodies, (List.cons.inj hrests).2⟩

/-- The attempts give one thing only. -/
theorem RawReads.unique {held : List UInt8} {events : List ReadEvent} {raws raws' : List RawRead}
    (h : RawReads held events raws) (h' : RawReads held events raws') : raws = raws' := by
  have hfeed : ∀ body rest : List UInt8, 0x0A ∈ body ++ 0x0A :: rest := fun body rest =>
    List.mem_append_right _ (List.mem_cons_self ..)
  induction h generalizing raws' with
  | @line held body rest events raws feed later ih =>
    generalize hbytes : body ++ 0x0A :: rest = bytes at h'
    cases h' with
    | line feed' later' =>
      obtain ⟨rfl, rfl⟩ := append_feed_inj feed feed' hbytes
      rw [ih later']
    | more feed' later' => exact absurd (hbytes ▸ hfeed _ _) feed'
  | more feed later ih =>
    cases h' with
    | line feed' later' => exact absurd (hfeed _ _) feed
    | more feed' later' => exact ih later'
  | interrupted later ih =>
    cases h' with
    | interrupted later' => exact ih later'
  | failed later ih =>
    cases h' with
    | failed later' => rw [ih later']
  | ended later ih =>
    cases h' with
    | ended later' => rw [ih later']
  | stop =>
    cases h' with
    | stop => rfl

/-! ## Texts of lines -/

/-- A text without a line feed at its end and without one carriage return directly before that. A text
without a line feed at its end keeps all its characters. -/
def withoutLineEnd (cs : List Char) : List Char :=
  if cs.getLast? = some '\n' then
    if cs.dropLast.getLast? = some '\r' then cs.dropLast.dropLast else cs.dropLast
  else cs

theorem lineText_eq_withoutLineEnd (cs : List Char) : lineText cs = withoutLineEnd cs := by
  fun_induction lineText cs with
  | case1 => rfl
  | case2 => rfl
  | case3 => rfl
  | case4 c cs hfeed hreturn ih =>
    cases cs with
    | nil =>
      have hne : c ≠ '\n' := fun hc => hfeed hc rfl
      simp [lineText, withoutLineEnd, hne]
    | cons d ds =>
      have hdrop : (c :: d :: ds).dropLast = c :: (d :: ds).dropLast := rfl
      rw [ih, withoutLineEnd, withoutLineEnd, List.getLast?_cons_cons, hdrop]
      by_cases hlast : (d :: ds).getLast? = some '\n'
      · rw [if_pos hlast, if_pos hlast]
        cases hinit : (d :: ds).dropLast with
        | nil =>
          -- the first character is directly before the line feed, and no carriage return
          have hds : ds = [] := by
            cases ds with
            | nil => rfl
            | cons e es => cases hinit
          subst hds
          obtain rfl : d = '\n' := by simpa using hlast
          have hne : c ≠ '\r' := fun hc => hreturn hc rfl
          simp [hne]
        | cons e es =>
          rw [List.getLast?_cons_cons]
          split <;> rfl
      · rw [if_neg hlast, if_neg hlast]

theorem LineRead.ofBytes_eq (bs : List UInt8) : ofBytes bs = .line (withoutLineEnd (Utf8.decode bs)) := by
  rw [ofBytes, lineText_eq_withoutLineEnd]

/-- The line reads that attempts amount to: those before the first that gives nothing. -/
def LineRead.ofRaw : List RawRead → List LineRead
  | [] => []
  | .failed message :: raws => .failed message :: ofRaw raws
  | .bytes bs :: raws => if bs = [] then [] else .line (withoutLineEnd (Utf8.decode bs)) :: ofRaw raws

/-- The line reads of a source are those of the attempts that it answers. -/
theorem RawReads.ofHeld_eq {held : List UInt8} {events : List ReadEvent} {raws : List RawRead}
    (h : RawReads held events raws) (hheld : 0x0A ∉ held) :
    LineRead.ofHeld held events = LineRead.ofRaw raws := by
  induction h with
  | @line held body rest events raws feed later ih =>
    have hbody : 0x0A ∉ held ++ body := List.not_mem_append hheld feed
    have hne : held ++ body ++ [0x0A] ≠ [] := by simp
    rw [LineRead.ofRaw, if_neg hne, ← ih (by simp), LineRead.ofHeld, LineRead.ofHeld, ← List.append_assoc,
      splitLines_line hbody, List.nil_append, ← LineRead.ofBytes_eq]
    rfl
  | more feed later ih =>
    have hbytes := List.not_mem_append hheld feed
    rw [LineRead.ofHeld, splitLines_of_not_mem hbytes, ← ih hbytes]
    rfl
  | interrupted later ih => exact ih hheld
  | failed later ih => rw [LineRead.ofHeld, LineRead.ofRaw, ih (by simp)]
  | ended later ih =>
    rw [LineRead.ofHeld, LineRead.ofRaw, ih (by simp), LineRead.ofBytes_eq]
  | @stop held =>
    rw [LineRead.ofHeld, LineRead.ofRaw, LineRead.ofBytes_eq]
    rfl

/-! ## Arrivals -/

/-- What a move comes to, and what there is to see right after it. -/
inductive Arrival where
  /-- A character, the place and the line that the cursor then has. -/
  | character (ch : Char) (position : Position) (lineNumber : Nat) (line : List Char)
  | failed (d : Diagnostic)
  /-- The end of the source. -/
  | ended
deriving DecidableEq

namespace Arrival

/-- The characters of a line with its line feed, each at its place. -/
def ofLine (lineNumber : Nat) (text : List Char) : List Arrival :=
  ((text ++ ['\n']).zipIdx 1).map fun p => .character p.1 ⟨lineNumber, p.2⟩ lineNumber text

/-- What attempts have delivered, up to the end of the source, if so many lines were delivered before. -/
def ofRaw (lines : Nat) : List RawRead → List Arrival
  | [] => [.ended]
  | .failed message :: raws => .failed ⟨.readFailed message, ⟨lines + 1, 1⟩, ""⟩ :: ofRaw lines raws
  | .bytes bs :: raws =>
    if bs = [] then [.ended]
    else ofLine (lines + 1) (withoutLineEnd (Utf8.decode bs)) ++ ofRaw (lines + 1) raws

end Arrival

namespace Cursor

/-- Moves the cursor on. -/
def arrive (c : Cursor) : Arrival × Cursor :=
  match c.advance with
  | .error halt => (.failed halt.diagnostic, halt.cursor)
  | .ok next =>
    match next.lookahead with
    | none => (.ended, next)
    | some ch => (.character ch next.position next.lineNumber next.line, next)

/-- What a move comes to after `i` others. -/
def arrival (c : Cursor) : Nat → Arrival
  | 0 => c.arrive.1
  | i + 1 => c.arrive.2.arrival i

/-- Moves that come to the arrivals and lead from one cursor to another. -/
inductive Arrives : Cursor → List Arrival → Cursor → Prop where
  | nil {c : Cursor} : Arrives c [] c
  | cons {c next last : Cursor} {a : Arrival} {arrivals : List Arrival} (arrived : c.arrive = (a, next))
      (later : Arrives next arrivals last) : Arrives c (a :: arrivals) last

variable {c c' last : Cursor} {arrivals arrivals' : List Arrival}

theorem Arrives.append (h : Arrives c arrivals c') (h' : Arrives c' arrivals' last) :
    Arrives c (arrivals ++ arrivals') last := by
  induction h with
  | nil => exact h'
  | cons arrived _ ih => exact .cons arrived (ih h')

/-- At the end of the source each move fails in the same way. -/
theorem arrival_of_exhausted (hp : c.pending = none) (i : Nat) :
    c.arrival i = .failed (c.diagnostic .readPastEnd) := by
  have harrive : c.arrive = (.failed (c.diagnostic .readPastEnd), c) := by
    simp [arrive, advance, hp]
  induction i with
  | zero => rw [arrival, harrive]
  | succ i ih => rw [arrival, harrive, ih]

/-- Moves that lead to the end of the source come to what they come to, and then fail for ever. -/
theorem Arrives.arrival_eq (h : Arrives c arrivals last) (hlast : last.pending = none) (i : Nat) :
    c.arrival i = arrivals[i]?.getD (.failed (last.diagnostic .readPastEnd)) := by
  induction h generalizing i with
  | nil => exact arrival_of_exhausted hlast i
  | cons arrived _ ih =>
    cases i with
    | zero => rw [arrival, arrived, List.getElem?_cons_zero, Option.getD_some]
    | succ i => rw [arrival, arrived, List.getElem?_cons_succ, ih hlast]

/-! ### Lines -/

theorem feed_headD (rest : List Char) : rest ++ ['\n'] = rest.headD '\n' :: (rest ++ ['\n']).tail := by
  cases rest <;> rfl

/-- The moves on a line, up to the line feed. -/
theorem arrives_rest (rs : List LineRead) (text rest : List Char) (lineNumber column : Nat) :
    Arrives ⟨some rs, text, rest, lineNumber, column⟩
      (((rest ++ ['\n']).tail.zipIdx (column + 1)).map fun p =>
        .character p.1 ⟨lineNumber, p.2⟩ lineNumber text)
      ⟨some rs, text, [], lineNumber, column + rest.length⟩ := by
  induction rest generalizing column with
  | nil => exact .nil
  | cons ch rest ih =>
    have harrive : arrive ⟨some rs, text, ch :: rest, lineNumber, column⟩ =
        (.character (rest.headD '\n') ⟨lineNumber, column + 1⟩ lineNumber text,
          ⟨some rs, text, rest, lineNumber, column + 1⟩) := rfl
    have hlength : column + (ch :: rest).length = column + 1 + rest.length := by
      rw [List.length_cons]
      omega
    rw [List.cons_append, List.tail_cons, feed_headD, hlength]
    exact .cons harrive (ih (column + 1))

/-- A line that is read is arrived at as a whole, and then the cursor is on its line feed. -/
theorem arrives_line {text : List Char} {rs : List LineRead} (hp : c.pending = some (.line text :: rs))
    (hrest : c.rest = []) :
    Arrives c (Arrival.ofLine (c.lineNumber + 1) text)
      ⟨some rs, text, [], c.lineNumber + 1, 1 + text.length⟩ := by
  have harrive : c.arrive = (.character (text.headD '\n') ⟨c.lineNumber + 1, 1⟩ (c.lineNumber + 1) text,
      ⟨some rs, text, text, c.lineNumber + 1, 1⟩) := by
    simp [arrive, advance, hp, hrest, advanceLine, lookahead, isExhausted, position]
  rw [Arrival.ofLine, feed_headD]
  exact .cons harrive (arrives_rest rs text text (c.lineNumber + 1) 1)

/-! ### Sources -/

/-- From a line feed, moves come to what the attempts deliver, and lead to the end of the source. -/
theorem arrives_ofRaw (raws : List RawRead) (hp : c.pending = some (LineRead.ofRaw raws)) (hrest : c.rest = []) :
    Arrives c (Arrival.ofRaw c.lineNumber raws)
      ⟨none, [], [], c.lineNumber + (texts (LineRead.ofRaw raws)).length, 1⟩ := by
  -- a move to the end of the source
  have hend : ∀ c : Cursor, c.pending = some [] → c.rest = [] →
      Arrives c [.ended] ⟨none, [], [], c.lineNumber, 1⟩ := by
    intro c hp hrest
    exact .cons (by simp [arrive, advance, hp, hrest, advanceLine, lookahead, isExhausted]) .nil
  induction raws generalizing c with
  | nil => exact hend c hp hrest
  | cons raw raws ih =>
    cases raw with
    | failed message =>
      have harrive : c.arrive = (.failed ⟨.readFailed message, ⟨c.lineNumber + 1, 1⟩, ""⟩,
          { c with pending := some (LineRead.ofRaw raws), column := c.column + 1 }) := by
        rw [LineRead.ofRaw] at hp
        simp [arrive, advance, hp, hrest, advanceLine]
      exact .cons harrive (ih rfl hrest)
    | bytes bs =>
      by_cases hbs : bs = []
      · rw [LineRead.ofRaw, if_pos hbs] at hp ⊢
        rw [Arrival.ofRaw, if_pos hbs]
        exact hend c hp hrest
      · rw [LineRead.ofRaw, if_neg hbs] at hp ⊢
        rw [Arrival.ofRaw, if_neg hbs]
        have hlater := ih (c := ⟨some (LineRead.ofRaw raws), withoutLineEnd (Utf8.decode bs), [],
          c.lineNumber + 1, 1 + (withoutLineEnd (Utf8.decode bs)).length⟩) rfl rfl
        have hlines : c.lineNumber + (texts (.line (withoutLineEnd (Utf8.decode bs)) :: LineRead.ofRaw raws)).length =
            c.lineNumber + 1 + (texts (LineRead.ofRaw raws)).length := by
          rw [Nat.add_assoc, Nat.add_comm 1]
          rfl
        rw [hlines]
        exact (arrives_line hp hrest).append hlater

/-- Whatever the reads of a source come to: it answers the attempts to read a line in one way, and moves from
before its first character come, in order, to what they deliver. That is each character of a line that gives
any bytes, and then one line feed, with the number of the line and the index in it as its place and the text
of the line to be seen; the failure of an attempt, located where the next line would begin; and the end of
the source for the first attempt that gives nothing. From then on each move fails at the end of the
source. -/
theorem arrival_ofEvents (events : List ReadEvent) :
    let reads := LineRead.ofEvents events
    ∃ raws, (∀ raws', RawReads [] events raws' ↔ raws' = raws) ∧ ∀ i, (start reads).arrival i =
      (Arrival.ofRaw 0 raws)[i]?.getD (.failed ⟨.readPastEnd, ⟨(texts reads).length, 1⟩, ""⟩) := by
  intro reads
  obtain ⟨raws, hraws⟩ := exists_rawReads [] events
  have hreads : reads = LineRead.ofRaw raws := hraws.ofHeld_eq (by simp)
  have hall : ∀ raws', RawReads [] events raws' ↔ raws' = raws := by
    intro raws'
    constructor
    · exact fun h => h.unique hraws
    · rintro rfl
      exact hraws
  refine ⟨raws, hall, fun i => ?_⟩
  have harrives : Arrives (start reads) (Arrival.ofRaw 0 raws) ⟨none, [], [], (texts reads).length, 1⟩ := by
    have hmoves := arrives_ofRaw (c := start reads) raws (by rw [← hreads]; rfl) rfl
    rw [← hreads, show (start reads).lineNumber = 0 from rfl, Nat.zero_add] at hmoves
    exact hmoves
  exact harrives.arrival_eq rfl i

end Cursor

end MiniLex
