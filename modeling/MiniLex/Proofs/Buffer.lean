import MiniLex.Proofs.Calls

/-!
# The line that a cursor holds

A cursor holds one line and its place in it, and a scanner holds the character that was reached last.
The three agree after whichever calls, also where reads have failed.

- `Cursor.Reached reads held c`: moves lead to `c` from the first character, of which some may have
  failed, and `held` is what the last that succeeded gave. All cursors of a run are reached in this
  way (`Cursor.Seen.reached`).
- `Cursor.Kept reads held c`: the invariant of one move (`Cursor.Kept.advance`, `Cursor.Kept.halt`).
- `Cursor.buffer`: the line with the line feed that ends it.
- `Cursor.Moves c n last`, `Cursor.Led c n result`: so many moves lead from one cursor to another, and what
  moves come to of which the last may fail. Looks and scans are made of moves
  (`Cursor.Follows.led_turn`, `Cursor.Seen.led_scan`).
- `Cursor.Represents reads held c`: the three forms that a cursor may have.

Main statement: `Session.cursor_represents`.
-/

namespace MiniLex

namespace Cursor

/-- The line that is held, with the line feed that ends it. The end of the source ends no line. -/
def buffer (c : Cursor) : List Char :=
  if c.isExhausted then c.line else c.line ++ ['\n']

/-! ## Moves -/

/-- The cursors that moves lead to from the first character, each with what the last move that did not
fail gave. -/
inductive Reached (reads : List LineRead) : Option Char → Cursor → Prop where
  | first {c : Cursor} (opened : (start reads).advance = .ok c) : Reached reads c.lookahead c
  | advance {held : Option Char} {c next : Cursor} (reached : Reached reads held c)
      (advanced : c.advance = .ok next) : Reached reads next.lookahead next
  /-- A move that fails gives nothing. -/
  | halt {held : Option Char} {c : Cursor} {halt : Halt} (reached : Reached reads held c)
      (halted : c.advance = .error halt) : Reached reads held halt.cursor

/-- What a move has changed. -/
inductive Moved (c : Cursor) : Except Halt Cursor → Prop where
  /-- A move on the line. -/
  | skip {rs : List LineRead} (pending : c.pending = some rs) (rest : c.rest ≠ []) : Moved c (.ok (c.skip 1))
  /-- A move to the next line. -/
  | line {text : List Char} {rs : List LineRead} (pending : c.pending = some (.line text :: rs))
      (rest : c.rest = []) : Moved c (.ok ⟨some rs, text, text, c.lineNumber + 1, 1⟩)
  /-- A move to the end of the source. -/
  | ended (pending : c.pending = some []) (rest : c.rest = []) :
      Moved c (.ok ⟨none, [], [], c.lineNumber, 1⟩)
  /-- A move to the next line, which could not be read. -/
  | failed {message : String} {rs : List LineRead} (pending : c.pending = some (.failed message :: rs))
      (rest : c.rest = []) :
      Moved c (.error ⟨⟨.readFailed message, ⟨c.lineNumber + 1, 1⟩, ""⟩,
        { c with pending := some rs, column := c.column + 1 }⟩)
  /-- A move after the end of the source. -/
  | pastEnd (pending : c.pending = none) : Moved c (.error ⟨c.diagnostic .readPastEnd, c⟩)

theorem moved (c : Cursor) : Moved c c.advance := by
  unfold Cursor.advance
  split
  · rename_i hp
    exact .pastEnd hp
  · rename_i hp hr
    exact .skip hp (by simp [hr])
  · rename_i rs hp hr
    match rs, hp with
    | [], hp => exact .ended hp hr
    | .line text :: rs, hp => exact .line hp hr
    | .failed message :: rs, hp => exact .failed hp hr

/-! ## The invariant -/

/-- What a cursor holds, its place and the character `held` agree, given the reads that it was started
on. -/
structure Kept (reads : List LineRead) (held : Option Char) (c : Cursor) : Prop where
  held : held = c.lookahead
  pending : ∀ rs, c.pending = some rs → rs <:+ reads
  feed : '\n' ∉ c.line
  column : 1 ≤ c.column
  rest : c.rest = c.line.drop (c.column - 1)
  /-- Only a read that fails brings the cursor past the line feed. -/
  beyond : ∀ rs, c.pending = some rs → c.line.length + 1 < c.column →
    ∃ message, .failed message :: rs <:+ reads
  exhausted : c.pending = none → c.line = [] ∧ c.column = 1

section Kept

variable {reads : List LineRead} {held : Option Char} {c next : Cursor}

/-- Where characters of the line are left, the cursor is on one of them. -/
theorem Kept.column_le (h : Kept reads held c) (hrest : c.rest ≠ []) : c.column ≤ c.line.length := by
  have hcolumn := h.column
  by_contra hlt
  exact hrest (by rw [h.rest, List.drop_eq_nil_of_le (by omega)])

/-- On the first character of a line, all agrees. -/
theorem Kept.of_line {text : List Char} {rs : List LineRead} (hfeed : '\n' ∉ text) (hrs : rs <:+ reads)
    (lineNumber : Nat) :
    Kept reads (lookahead ⟨some rs, text, text, lineNumber, 1⟩) ⟨some rs, text, text, lineNumber, 1⟩ := by
  constructor
  · rfl
  · rintro rs' hrs'
    obtain rfl : rs = rs' := by simpa using hrs'
    exact hrs
  · exact hfeed
  · exact Nat.le_refl 1
  · rfl
  · intro rs' _ hlt
    have hlt : text.length + 1 < 1 := hlt
    omega
  · exact fun hnone => absurd hnone (by simp)

theorem Kept.of_end (lineNumber : Nat) : Kept reads none ⟨none, [], [], lineNumber, 1⟩ := by
  constructor
  · rfl
  · exact fun rs hrs => absurd hrs (by simp)
  · exact List.not_mem_nil
  · exact Nat.le_refl 1
  · rfl
  · exact fun rs hrs => absurd hrs (by simp)
  · exact fun _ => ⟨rfl, rfl⟩

theorem Kept.of_start (hreads : Feedless reads) (h : (start reads).advance = .ok c) :
    Kept reads c.lookahead c := by
  have hmoved := moved (start reads)
  rw [h] at hmoved
  cases hmoved with
  | skip _ rest => exact absurd rfl rest
  | @line text rs pending _ =>
    obtain rfl : reads = .line text :: rs := Option.some.inj pending
    exact .of_line (hreads text (List.mem_cons_self ..)) (List.suffix_cons _ _) _
  | ended _ _ => exact .of_end _

theorem Kept.advance (hreads : Feedless reads) (h : Kept reads held c) (hc : c.advance = .ok next) :
    Kept reads next.lookahead next := by
  have hmoved := moved c
  rw [hc] at hmoved
  cases hmoved with
  | @skip rs pending rest =>
    have hcolumn := h.column
    have hinside := h.column_le rest
    constructor
    · rfl
    · exact h.pending
    · exact h.feed
    · show 1 ≤ c.column + 1
      omega
    · show c.rest.drop 1 = c.line.drop (c.column + 1 - 1)
      rw [h.rest, List.drop_drop]
      congr 1
      omega
    · intro rs' _ hlt
      have hlt : c.line.length + 1 < c.column + 1 := hlt
      omega
    · intro hnone
      have hnone : c.pending = none := hnone
      rw [pending] at hnone
      cases hnone
  | @line text rs pending _ =>
    have hsuffix := h.pending _ pending
    exact .of_line (hreads text (hsuffix.subset (List.mem_cons_self ..)))
      ((List.suffix_cons _ _).trans hsuffix) _
  | ended _ _ => exact .of_end _

theorem Kept.halt (h : Kept reads held c) {halt : Halt} (hc : c.advance = .error halt) :
    Kept reads held halt.cursor := by
  have hmoved := moved c
  rw [hc] at hmoved
  cases hmoved with
  | @failed message rs pending rest =>
    have hsuffix := h.pending _ pending
    have hcolumn := h.column
    have hbeyond : c.line.length ≤ c.column - 1 := by
      have hdrop := h.rest
      rw [rest] at hdrop
      exact List.drop_eq_nil_iff.mp hdrop.symm
    have hrs : ∀ rs', some rs = some rs' → .failed message :: rs' <:+ reads := by
      rintro rs' hrs'
      obtain rfl := Option.some.inj hrs'
      exact hsuffix
    constructor
    · rw [h.held]
      simp [lookahead, isExhausted, pending]
    · exact fun rs' hrs' => (List.suffix_cons _ _).trans (hrs rs' hrs')
    · exact h.feed
    · show 1 ≤ c.column + 1
      omega
    · show c.rest = c.line.drop (c.column + 1 - 1)
      rw [rest, List.drop_eq_nil_of_le (by omega)]
    · exact fun rs' hrs' _ => ⟨message, hrs rs' hrs'⟩
    · exact fun hnone => absurd hnone (by simp)
  | pastEnd _ => exact h

/-- Wherever moves lead, all agrees. -/
theorem Reached.kept (hreads : Feedless reads) (h : Reached reads held c) : Kept reads held c := by
  induction h with
  | first opened => exact .of_start hreads opened
  | advance _ advanced ih => exact ih.advance hreads advanced
  | halt _ halted ih => exact ih.halt halted

end Kept

/-! ## Runs are made of moves -/

/-- So many moves lead from one cursor to another, and none of them fails. -/
inductive Moves : Cursor → Nat → Cursor → Prop where
  | nil {c : Cursor} : Moves c 0 c
  | advance {c next last : Cursor} {n : Nat} (advanced : c.advance = .ok next) (later : Moves next n last) :
      Moves c (n + 1) last

/-- What moves come to, of which `n` do not fail: the cursor that they lead to, or the failure of the next
one. -/
inductive Led (c : Cursor) (n : Nat) : Except Halt Cursor → Prop where
  | arrived {last : Cursor} (moves : Moves c n last) : Led c n (.ok last)
  | halted {last : Cursor} {halt : Halt} (moves : Moves c n last) (failed : last.advance = .error halt) :
      Led c n (.error halt)

end Cursor

/-- Where a look leaves the cursor, as a move. -/
def Turn.moved (t : Turn) : Except Halt Cursor :=
  match t.answer with
  | some (.error d) => .error ⟨d, t.cursor⟩
  | _ => .ok t.cursor

/-- Where a scan leaves the cursor, as a move. -/
def Scan.moved (s : Scan) : Except Halt Cursor :=
  match s.answer with
  | .error d => .error ⟨d, s.cursor⟩
  | .ok _ => .ok s.cursor

theorem Turn.moved_ofMove (moved : Except Halt Cursor) : (ofMove moved).moved = moved := by
  cases moved <;> rfl

namespace Cursor

section Runs

variable {reads : List LineRead} {before : List Char} {held : Option Char} {c d last : Cursor} {m n : Nat}
  {result : Except Halt Cursor}

theorem Moves.append (h : Moves c m d) (h' : Moves d n last) : Moves c (m + n) last := by
  induction h with
  | nil =>
    rw [Nat.zero_add]
    exact h'
  | advance advanced _ ih =>
    rw [Nat.add_right_comm]
    exact .advance advanced (ih h')

theorem Moves.led (h : Moves c m d) (h' : Led d n result) : Led c (m + n) result := by
  cases h' with
  | arrived moves => exact .arrived (h.append moves)
  | halted moves failed => exact .halted (h.append moves) failed

/-- Each move passes over one of the characters ahead. -/
theorem Moves.length_stream (h : Moves c n last) : c.stream.length = n + last.stream.length := by
  induction h with
  | nil => rw [Nat.zero_add]
  | @advance c next last n advanced _ ih =>
    obtain ⟨hne, htail⟩ := stream_of_advance advanced
    have hpos := List.length_pos_iff.mpr hne
    rw [htail, List.length_tail] at ih
    omega

theorem led_advance (c : Cursor) : ∃ n, Led c n c.advance := by
  cases hadvance : c.advance with
  | ok next => exact ⟨1, .arrived (.advance hadvance .nil)⟩
  | error halt => exact ⟨0, .halted .nil hadvance⟩

theorem skip_skip (c : Cursor) (m n : Nat) : (c.skip m).skip n = c.skip (m + n) := by
  simp [skip, List.drop_drop, Nat.add_assoc]

/-- A skip on the line is made of as many moves. -/
theorem moves_skip (hx : c.isExhausted = false) (hn : n ≤ c.rest.length) : Moves c n (c.skip n) := by
  induction n with
  | zero => exact .nil
  | succ n ih =>
    have hadvance : (c.skip n).advance = .ok (c.skip (n + 1)) := by
      obtain ⟨rs, hp⟩ := exists_pending hx
      have hrest : (c.skip n).rest ≠ [] := by
        show c.rest.drop n ≠ []
        rw [ne_eq, List.drop_eq_nil_iff]
        omega
      obtain ⟨ch, chs, hcons⟩ := List.exists_cons_of_ne_nil hrest
      have hp : (c.skip n).pending = some rs := hp
      rw [← skip_skip]
      simp [Cursor.advance, hp, hcons]
    exact (ih (by omega)).append (.advance hadvance .nil)

/-- A text that comes next on the line is skipped by moves. -/
theorem Follows.moves_text (hc : c.Follows reads before) {w cs : List Char} (hw : c.stream = w ++ cs)
    (hfeed : '\n' ∉ w) (hne : w ≠ []) : Moves c w.length (c.skip w.length) := by
  obtain ⟨rest, rs, hp, hrest, -⟩ := hc.exists_rest hw hfeed hne
  refine moves_skip (by simp [isExhausted, hp]) ?_
  rw [hrest, List.length_append]
  omega

/-- A passage is made of moves. If it fails, the last of them fails. -/
theorem led_passUntil {σ : Type} (closes : σ → Char → Option σ) (state : σ) (c : Cursor) :
    ∃ n, Led c n ((c.passUntil closes state).map Passage.cursor) := by
  fun_induction Cursor.passUntil closes state c with
  | case1 state c hch =>
    -- a move fails at the end of the source, in the same way
    have hp : c.pending = none := by
      rw [lookahead_eq_head?, List.head?_eq_none_iff, stream_eq_nil_iff] at hch
      simpa [isExhausted] using hch
    exact ⟨0, .halted .nil (by simp [Cursor.advance, hp])⟩
  | case2 state c => exact ⟨0, .arrived .nil⟩
  | case3 _ _ _ _ _ _ halt hadvance => exact ⟨0, .halted .nil hadvance⟩
  | case4 _ _ _ _ _ _ next hnext halt hpass ih =>
    obtain ⟨n, hled⟩ := ih
    rw [hpass] at hled
    exact ⟨1 + n, Moves.led (.advance hnext .nil) hled⟩
  | case5 _ _ _ _ _ _ next hnext passage hpass ih =>
    obtain ⟨n, hled⟩ := ih
    rw [hpass] at hled
    exact ⟨1 + n, Moves.led (.advance hnext .nil) hled⟩

theorem moves_passUntil {σ : Type} {closes : σ → Char → Option σ} {state : σ} {p : Passage}
    (h : c.passUntil closes state = .ok p) : ∃ n, Moves c n p.cursor := by
  obtain ⟨n, hled⟩ := led_passUntil closes state c
  rw [h] at hled
  cases hled with
  | arrived moves => exact ⟨n, moves⟩

/-- A passage and the move over the closing character, which is on the line. -/
theorem Follows.led_closing {σ : Type} (closes : σ → Char → Option σ) (state : σ) (hreads : Feedless reads)
    (hc : c.Follows reads before) {ch : Char} (hfeed : '\n' ∉ [ch])
    (hcloses : ∀ passed rest, cutAtClosing closes state c.stream = some (passed, rest) →
      rest.head? = some ch) :
    ∃ n, Led c n ((c.passUntil closes state).map fun p => p.cursor.skip 1) := by
  cases hp : c.passUntil closes state with
  | error halt =>
    obtain ⟨n, hled⟩ := led_passUntil closes state c
    rw [hp] at hled
    exact ⟨n, hled⟩
  | ok p =>
    obtain ⟨hcut, hlast⟩ := hc.passUntil_ok hreads hp
    obtain ⟨rest, hrest⟩ := List.head?_eq_some_iff.mp (hcloses _ _ hcut)
    obtain ⟨n, hmoves⟩ := moves_passUntil hp
    exact ⟨n + 1, .arrived (hmoves.append (hlast.moves_text (w := [ch]) hrest hfeed (by simp)))⟩

theorem moved_turnBlockComment (c : Cursor) :
    c.turnBlockComment.moved = ((c.skip 2).passUntil closesComment false).map fun p => p.cursor.skip 1 := by
  unfold turnBlockComment
  cases (c.skip 2).passUntil closesComment false <;> rfl

theorem moved_turnString (c : Cursor) :
    c.turnString.moved = ((c.skip 1).passUntil closesString false).map fun p => p.cursor.skip 1 := by
  unfold turnString
  cases (c.skip 1).passUntil closesString false <;> rfl

/-- A look at the source is made of moves. If it fails, the last of them fails. -/
theorem Follows.led_turn (hreads : Feedless reads) (hc : c.Follows reads before) :
    ∃ n, Led c n c.turn.moved := by
  by_cases hx : c.isExhausted = true
  · rw [Cursor.turn, if_pos hx]
    exact ⟨0, .arrived .nil⟩
  rw [Cursor.turn, if_neg hx]
  rw [Bool.not_eq_true] at hx
  obtain ⟨rs, hp⟩ := exists_pending hx
  have hspec := Front.spec_of (delivered rs) hc.feed_not_mem_rest
  -- what the line begins with is skipped
  have hskip : ∀ w rest, c.rest = w ++ rest → Moves c w.length (c.skip w.length) := by
    intro w rest hrest
    exact moves_skip hx (by rw [hrest, List.length_append]; omega)
  have hstream : ∀ w, w <+: c.rest → ∃ cs, c.stream = w ++ cs := by
    rintro w ⟨rest, hrest⟩
    exact ⟨rest ++ '\n' :: delivered rs, by rw [stream_of_pending hp, ← hrest, List.append_assoc]⟩
  generalize Front.of c.rest = front at hspec
  cases front with
  | lineEnd =>
    rw [Turn.moved_ofMove]
    exact c.led_advance
  | lineComment =>
    obtain ⟨n, hled⟩ := (c.skip c.rest.length).led_advance
    rw [Turn.moved_ofMove]
    exact ⟨_, (moves_skip hx (Nat.le_refl _)).led hled⟩
  | spacing =>
    obtain ⟨ch, rest, hrest, -⟩ := hspec
    exact ⟨_, .arrived (hskip [ch] rest hrest)⟩
  | illegal ch =>
    obtain ⟨rest, hrest, -⟩ := hspec
    exact ⟨_, .arrived (hskip [ch] rest hrest)⟩
  | token t width =>
    obtain ⟨w, rest, hrest, rfl, -⟩ := hspec
    exact ⟨_, .arrived (hskip w rest hrest)⟩
  | broken t width cause =>
    obtain ⟨s, rest, hrest, rfl, -⟩ := hspec
    refine ⟨s.text.length, ?_⟩
    cases t <;> exact .arrived (hskip s.text rest hrest)
  | blockComment =>
    obtain ⟨cs, hcs⟩ := hstream ['/', '*'] hspec
    obtain ⟨-, hopened⟩ := hc.skip hcs (by decide) (by simp)
    obtain ⟨n, hled⟩ := hopened.led_closing closesComment false hreads (by decide)
      fun _ _ hcut => (not_closed_of_cut hcut).1
    have hled := (hc.moves_text hcs (by decide) (by simp)).led hled
    exact ⟨2 + n, c.moved_turnBlockComment ▸ hled⟩
  | stringLiteral =>
    obtain ⟨cs, hcs⟩ := hstream ['"'] hspec
    obtain ⟨-, hopened⟩ := hc.skip hcs (by decide) (by simp)
    obtain ⟨n, hled⟩ := hopened.led_closing closesString false hreads (by decide)
      fun _ _ hcut => (isStringBody_of_cut hcut).2
    have hled := (hc.moves_text hcs (by decide) (by simp)).led hled
    exact ⟨1 + n, c.moved_turnString ▸ hled⟩

/-- A scan is made of moves. If it fails, the last of them fails. -/
theorem Seen.led_scan (hreads : Feedless reads) (h : Seen reads c) : ∃ n, Led c n c.scan.moved := by
  fun_induction Cursor.scan c with
  | case1 c answer hanswer =>
    obtain ⟨before, hfollows⟩ := h.follows hreads
    have hled := hfollows.led_turn hreads
    unfold Turn.moved at hled
    rw [hanswer] at hled
    cases answer <;> exact hled
  | case2 c hnone hlt later ih =>
    obtain ⟨before, hfollows⟩ := h.follows hreads
    obtain ⟨m, hled⟩ := hfollows.led_turn hreads
    unfold Turn.moved at hled
    rw [hnone] at hled
    obtain ⟨n, hlater⟩ := ih h.turn
    cases hled with
    | arrived moves => exact ⟨m + n, moves.led hlater⟩

/-- After a move that fails, the cursor is on the same character. -/
theorem lookahead_of_halt {halt : Halt} (h : c.advance = .error halt) :
    halt.cursor.lookahead = c.lookahead := by
  have hmoved := moved c
  rw [h] at hmoved
  cases hmoved with
  | failed pending rest => simp [lookahead, isExhausted, pending]
  | pastEnd _ => rfl

theorem Reached.moves (h : Reached reads c.lookahead c) (hmoves : Moves c n last) :
    Reached reads last.lookahead last := by
  induction hmoves with
  | nil => exact h
  | advance advanced _ ih => exact ih (h.advance advanced)

theorem Reached.turn (hreads : Feedless reads) (h : Reached reads c.lookahead c)
    (hc : c.Follows reads before) : Reached reads c.turn.cursor.lookahead c.turn.cursor := by
  obtain ⟨n, hled⟩ := hc.led_turn hreads
  unfold Turn.moved at hled
  split at hled
  · cases hled with
    | halted moves failed =>
      have hhalt := (h.moves moves).halt failed
      rwa [← lookahead_of_halt failed] at hhalt
  · cases hled with
    | arrived moves => exact h.moves moves

/-- All cursors of a run are reached by moves, and the last move that did not fail gave the character
that the cursor stands on. -/
theorem Seen.reached (hreads : Feedless reads) (h : Seen reads c) : Reached reads c.lookahead c := by
  induction h with
  | first opened => exact .first opened
  | turn seen ih =>
    obtain ⟨before, hfollows⟩ := seen.follows hreads
    exact ih.turn hreads hfollows

end Runs

/-! ## The three forms of a cursor -/

/-- The forms that a cursor may have, with the character that the scanner holds. -/
inductive Represents (reads : List LineRead) : Option Char → Cursor → Prop where
  /-- The end of the source was met. -/
  | ended {c : Cursor} (pending : c.pending = none) (buffer : c.buffer = []) (column : c.column = 1) :
      Represents reads none c
  /-- The cursor is on a character of its line or on the line feed. -/
  | inside {c : Cursor} {rs : List LineRead} {text : List Char} {ch : Char} (pending : c.pending = some rs)
      (buffer : c.buffer = text ++ ['\n']) (feed : '\n' ∉ text) (column : 1 ≤ c.column)
      (ahead : c.buffer[c.column - 1]? = some ch) : Represents reads (some ch) c
  /-- The last read failed, and the cursor is past the line feed. -/
  | beyond {c : Cursor} {rs : List LineRead} {text : List Char} {message : String}
      (pending : c.pending = some rs) (buffer : c.buffer = text ++ ['\n']) (feed : '\n' ∉ text)
      (failed : .failed message :: rs <:+ reads) (column : c.buffer.length < c.column) :
      Represents reads (some '\n') c

section Represents

variable {reads : List LineRead} {held : Option Char} {c next : Cursor}

theorem lookahead_of_pending {c : Cursor} (hx : c.isExhausted = false) :
    c.lookahead = some (c.rest.headD '\n') := by
  rw [lookahead, hx]
  rfl

/-- The character at the place of a cursor that is not past the line feed. -/
theorem Kept.getElem?_buffer (h : Kept reads held c) (hx : c.isExhausted = false)
    (hcolumn : c.column ≤ c.line.length + 1) : c.buffer[c.column - 1]? = c.lookahead := by
  have hpos := h.column
  have hle : c.column - 1 ≤ c.line.length := by omega
  have hdrop : c.buffer.drop (c.column - 1) = c.rest ++ ['\n'] := by
    rw [buffer, hx, h.rest]
    exact List.drop_append_of_le_length hle
  rw [← List.head?_drop, hdrop, lookahead_of_pending hx]
  cases c.rest <;> rfl

/-- What agrees has one of the three forms. -/
theorem Kept.represents (h : Kept reads held c) : Represents reads held c := by
  rw [h.held]
  cases hp : c.pending with
  | none =>
    obtain ⟨hline, hcolumn⟩ := h.exhausted hp
    have hx : c.isExhausted = true := by simp [isExhausted, hp]
    have hlookahead : c.lookahead = none := by rw [lookahead, if_pos hx]
    rw [hlookahead]
    exact .ended hp (by rw [buffer, if_pos hx, hline]) hcolumn
  | some rs =>
    have hx : c.isExhausted = false := by simp [isExhausted, hp]
    have hbuffer : c.buffer = c.line ++ ['\n'] := by rw [buffer, hx]; rfl
    have hlookahead := lookahead_of_pending hx
    by_cases hcolumn : c.column ≤ c.line.length + 1
    · have hahead := h.getElem?_buffer hx hcolumn
      rw [hlookahead] at hahead ⊢
      exact .inside hp hbuffer h.feed h.column hahead
    · obtain ⟨message, hfailed⟩ := h.beyond rs hp (by omega)
      have hrest : c.rest = [] := by rw [h.rest, List.drop_eq_nil_of_le (by omega)]
      rw [hlookahead, hrest]
      exact .beyond hp hbuffer h.feed hfailed (by rw [hbuffer, List.length_append]; simp; omega)

/-- The character that is held tells whether the end of the source was met. -/
theorem Represents.eq_none_iff (h : Represents reads held c) : held = none ↔ c.pending = none := by
  cases h with
  | ended pending _ _ => simp [pending]
  | inside pending _ _ _ _ => simp [pending]
  | beyond pending _ _ _ _ => simp [pending]

/-- A move that does not fail leads to the end of the source or to a character of the line that is then
held. -/
theorem getElem?_of_advance (hreads : Feedless reads) (h : c = start reads ∨ ∃ held, Reached reads held c)
    (hc : c.advance = .ok next) (hx : next.isExhausted = false) :
    ∃ ch, next.lookahead = some ch ∧ next.buffer[next.column - 1]? = some ch := by
  have hnext : Kept reads next.lookahead next := by
    rcases h with rfl | ⟨held, h⟩
    · exact .of_start hreads hc
    · exact (h.kept hreads).advance hreads hc
  have hcolumn : next.column ≤ next.line.length + 1 := by
    have hmoved := moved c
    rw [hc] at hmoved
    cases hmoved with
    | skip _ rest =>
      -- the first character is not reached by a move on the line
      rcases h with rfl | ⟨held, h⟩
      · exact absurd rfl rest
      · exact Nat.succ_le_succ ((h.kept hreads).column_le rest)
    | line _ _ => exact Nat.le_add_left ..
    | ended _ _ => exact Nat.le_add_left ..
  refine ⟨_, lookahead_of_pending hx, ?_⟩
  rw [hnext.getElem?_buffer hx hcolumn, lookahead_of_pending hx]

end Represents

end Cursor

/-! ## Sessions -/

open Cursor in
/-- After whichever calls of a scanner, also after reads that failed, its cursor has one of the three
forms, with the character that the last move that did not fail gave; it is the character that the cursor
stands on, and it is missing if and only if the end of the source was met. The same holds wherever the
calls can move the cursor to, and each move that gives a character gives one of the line. -/
theorem Session.cursor_represents {events : List ReadEvent} {scanner : Scanner}
    (h : Scanner.ofReads (LineRead.ofEvents events) = .ok scanner) (sink : Sink) (calls : List Call) :
    let reads := LineRead.ofEvents events
    let c := (performAll ⟨scanner, sink⟩ calls).2.scanner.cursor
    (Represents reads c.lookahead c ∧ (c.lookahead = none ↔ c.pending = none)) ∧
      Reached reads c.lookahead c ∧
        (∀ held d, Reached reads held d → held = d.lookahead ∧ Represents reads held d) ∧
          ∀ d next, (d = start reads ∨ ∃ held, Reached reads held d) → d.advance = .ok next →
            next.isExhausted = false →
              ∃ ch, next.lookahead = some ch ∧ next.buffer[next.column - 1]? = some ch := by
  intro reads c
  have hreads : Feedless reads := LineRead.feedless_ofEvents events
  have hseen : Seen reads c :=
    (replies_performAll ⟨scanner, sink⟩ calls).seen (Scanner.seen_of_ofReads h)
  have hreached := hseen.reached hreads
  have hform := (hreached.kept hreads).represents
  refine ⟨⟨hform, hform.eq_none_iff⟩, hreached, fun held d hd => ?_, fun d next hd hnext hx => ?_⟩
  · have hkept := hd.kept hreads
    exact ⟨hkept.held, hkept.represents⟩
  · exact getElem?_of_advance hreads hd hnext hx

open Cursor in
/-- Two reads fail after a line, and each brings the cursor further past the line feed. -/
theorem Session.cursor_represents_after_failures :
    let events : List ReadEvent := [.chunk [0x61, 0x0A], .failed "lost", .failed "lost", .chunk [0x62]]
    let reads := LineRead.ofEvents events
    let scanner : Scanner :=
      ⟨⟨some [.failed "lost", .failed "lost", .line ['b']], ['a'], ['a'], 1, 1⟩, false⟩
    let c := (performAll ⟨scanner, .collecting []⟩ [.nextToken, .nextToken, .next]).2.scanner.cursor
    Scanner.ofReads reads = .ok scanner ∧ (start reads).advance = .ok scanner.cursor ∧
      (c.buffer = ['a', '\n'] ∧ c.column = 4 ∧ c.lookahead = some '\n') ∧
        (Represents reads c.lookahead c ∧ (c.lookahead = none ↔ c.pending = none)) ∧
          ∃ ch, scanner.cursor.lookahead = some ch ∧
            scanner.cursor.buffer[scanner.cursor.column - 1]? = some ch := by
  intro events reads scanner c
  have hscanner : Scanner.ofReads reads = .ok scanner := by decide
  have hfirst : (start reads).advance = .ok scanner.cursor := by decide
  obtain ⟨hform, -, -, hplace⟩ :=
    cursor_represents hscanner (.collecting []) [.nextToken, .nextToken, .next]
  refine ⟨hscanner, hfirst, by decide +kernel, hform, ?_⟩
  exact hplace _ _ (.inl rfl) hfirst rfl

end MiniLex
