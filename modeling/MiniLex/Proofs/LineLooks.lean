import MiniLex.Proofs.Buffer
import MiniLex.Proofs.Concatenation
import MiniLex.Proofs.Looks

/-!
# Looks along a line

A look at a segment that ends on its line needs no other read. So the looks along a line yield what
its segments yield, whatever the reads after the line come to.

- `Cursor.passUntil_within`: a passage whose closing character is on the line.
- `Cursor.Follows.turn_within`: a look passes a segment that ends on its line, without another read.
- `Cursor.toFeed`: the cursor on the line feed that ends the line. The segment that ends the line is
  looked at from there (`Cursor.turn_eq_toFeed`).
- `yieldsOf before segs`: what the segments yield that come after `before`.

Main statement: `Cursor.Follows.looks_line`.
-/

namespace MiniLex

/-! ## Segments that end on their line -/

namespace Segment.Fits

variable {s : Segment} {rest : List Char}

/-- A comment that ends on its line is a block comment. -/
theorem eq_block (h : s.Fits rest) (hopens : OpensComment (s.text ++ rest)) (hfeed : '\n' ∉ s.text) :
    ∃ body, ¬ ['*', '/'] <:+: body ∧ s.text = '/' :: '*' :: body ++ ['*', '/'] := by
  obtain ⟨cs, hcs⟩ := List.head?_eq_some_iff.mp hopens.head
  rcases h.of_opener hcs (.inr rfl) with ⟨text, rfl, hcomment⟩ | ⟨t, text, rfl, -, hnone⟩
  · cases hcomment with
    | @block body inner => exact ⟨body, inner, rfl⟩
    | line _ => exact absurd (by simp [Segment.text]) hfeed
  · exact absurd hopens hnone

/-- A segment that begins with a double quote is a string literal. -/
theorem eq_string {cs : List Char} (h : s.Fits rest) (hcs : s.text ++ rest = '"' :: cs) :
    ∃ body, IsStringBody body ∧ s.text = '"' :: body ++ ['"'] := by
  rcases h.of_opener hcs (.inl rfl) with ⟨text, rfl, hcomment⟩ | ⟨t, text, rfl, hlongest, -⟩
  · have hslash := (hcomment.opens rest).head
    rw [show text ++ rest = _ from hcs] at hslash
    exact absurd hslash (by simp)
  · have hbegins := hlongest.begins
    rw [show text ++ rest = _ from hcs] at hbegins
    obtain ⟨⟨body, hbody, rfl⟩, -⟩ : IsStringLiteral text ∧ _ := hlongest.lexeme.family_of_begins hbegins
    exact ⟨body, hbody, rfl⟩

end Segment.Fits

namespace Cursor

/-! ## Looks that stay on their line -/

section Within

variable {reads rs : List LineRead} {before : List Char} {c : Cursor}

/-- A passage whose closing character is on the line. -/
theorem passUntil_within {σ : Type} {closes : σ → Char → Option σ} {state : σ} (hp : c.pending = some rs)
    {passed after : List Char} (hcut : cutAtClosing closes state c.rest = some (passed, after)) :
    c.passUntil closes state = .ok ⟨passed, c.skip passed.length⟩ := by
  generalize hrest : c.rest = cs at hcut
  induction cs generalizing c state passed with
  | nil => cases hcut
  | cons ch cs ih =>
    have hlookahead : c.lookahead = some ch := by simp [lookahead, isExhausted, hp, hrest]
    rw [passUntil_eq, hlookahead]
    cases hcloses : closes state ch with
    | none =>
      rw [cutAtClosing_stop hcloses] at hcut
      cases hcut
      simp only [hcloses]
      rfl
    | some state' =>
      rw [cutAtClosing_step hcloses] at hcut
      obtain ⟨cut, hcut', heq⟩ := Option.map_eq_some_iff.mp hcut
      obtain ⟨rfl, rfl⟩ := Prod.mk.inj heq
      have hadvance : c.advance = .ok (c.skip 1) := by simp [advance, hp, hrest]
      have hpass := ih (c := c.skip 1) hp (by simp [skip, hrest]) hcut'
      simp only [hcloses, hadvance, hpass, skip_skip, List.length_cons, Nat.add_comm]

/-- The look at a block comment that ends on its line. -/
theorem turnBlockComment_within (hp : c.pending = some rs) {body rest : List Char}
    (hbody : ¬ ['*', '/'] <:+: body) (hrest : c.rest = ('/' :: '*' :: body ++ ['*', '/']) ++ rest) :
    c.turnBlockComment.cursor = c.skip ('/' :: '*' :: body ++ ['*', '/']).length ∧
      c.turnBlockComment.answer = none := by
  have hskip : (c.skip 2).rest = body ++ '*' :: '/' :: rest := by simp [skip, hrest]
  have hcut : cutAtClosing closesComment false (c.skip 2).rest = some (body ++ ['*'], '/' :: rest) := by
    rw [hskip]
    exact cut_of_not_closed rest hbody
  have hpass := passUntil_within (c := c.skip 2) hp hcut
  have hlength : 2 + (body ++ ['*']).length + 1 = ('/' :: '*' :: body ++ ['*', '/']).length := by
    simp
    omega
  simp only [turnBlockComment, hpass, skip_skip, hlength, and_self]

/-- The look at a string literal that ends on its line. -/
theorem turnString_within (hp : c.pending = some rs) {body rest : List Char} (hbody : IsStringBody body)
    (hrest : c.rest = ('"' :: body ++ ['"']) ++ rest) :
    c.turnString.cursor = c.skip ('"' :: body ++ ['"']).length ∧
      ∃ t, c.turnString.answer = some (.ok t) := by
  have hskip : (c.skip 1).rest = body ++ '"' :: rest := by simp [skip, hrest]
  have hcut : cutAtClosing closesString false (c.skip 1).rest = some (body, '"' :: rest) := by
    rw [hskip, cut_of_isStringBody hbody]
  have hpass := passUntil_within (c := c.skip 1) hp hcut
  have hlength : 1 + body.length + 1 = ('"' :: body ++ ['"']).length := by
    simp
    omega
  simp only [turnString, hpass, skip_skip, hlength, true_and]
  exact ⟨_, rfl⟩

/-- A look at a segment that ends on its line stays on the line, and does not fail. -/
theorem exists_skip_of_fits (hp : c.pending = some rs) (hfeed : '\n' ∉ c.rest) {s : Segment}
    {rest : List Char} (hrest : c.rest = s.text ++ rest) (hfits : s.Fits (rest ++ '\n' :: delivered rs)) :
    ∃ w cs, c.rest = w ++ cs ∧ c.turn.cursor = c.skip w.length ∧ ∀ d, c.turn.answer ≠ some (.error d) := by
  have hx : ¬ c.isExhausted = true := by simp [isExhausted, hp]
  have htext : '\n' ∉ s.text := fun hmem => hfeed (hrest ▸ List.mem_append_left _ hmem)
  have hspec := Front.spec_of (delivered rs) hfeed
  have hstream : s.text ++ (rest ++ '\n' :: delivered rs) = c.rest ++ '\n' :: delivered rs := by
    rw [hrest, List.append_assoc]
  rw [turn, if_neg hx]
  generalize Front.of c.rest = front at hspec
  cases front with
  | lineEnd =>
    have hnil : s.text ++ rest = [] := hrest.symm.trans hspec
    exact absurd (List.append_eq_nil_iff.mp hnil).1 hfits.text_ne_nil
  | spacing =>
    obtain ⟨ch, cs, hcs, -⟩ := hspec
    exact ⟨[ch], cs, hcs, rfl, by simp⟩
  | illegal ch =>
    obtain ⟨cs, hcs, -⟩ := hspec
    exact ⟨[ch], cs, hcs, rfl, by simp⟩
  | token t width =>
    obtain ⟨w, cs, hcs, rfl, -⟩ := hspec
    exact ⟨w, cs, hcs, rfl, by simp⟩
  | broken t width cause =>
    obtain ⟨s', cs, hcs, rfl, -⟩ := hspec
    exact ⟨s'.text, cs, hcs, rfl, by cases t <;> simp⟩
  | lineComment =>
    -- a line comment does not end on its line
    obtain ⟨cs, hcs⟩ := hspec
    obtain ⟨body, -, hblock⟩ := hfits.eq_block (.inr (by rw [hstream, ← hcs]; exact ⟨_, rfl⟩)) htext
    rw [hrest, hblock] at hcs
    cases hcs
  | blockComment =>
    obtain ⟨cs, hcs⟩ := hspec
    obtain ⟨body, hbody, hblock⟩ := hfits.eq_block (.inl (by rw [hstream, ← hcs]; exact ⟨_, rfl⟩)) htext
    rw [hblock] at hrest
    obtain ⟨hcursor, hanswer⟩ := turnBlockComment_within hp hbody hrest
    exact ⟨_, rest, hrest, hcursor, by simp [hanswer]⟩
  | stringLiteral =>
    obtain ⟨cs, hcs⟩ := hspec
    obtain ⟨body, hbody, hstring⟩ := hfits.eq_string (by rw [hstream, ← hcs]; rfl)
    rw [hstring] at hrest
    obtain ⟨hcursor, t, hanswer⟩ := turnString_within hp hbody hrest
    exact ⟨_, rest, hrest, hcursor, by simp [hanswer]⟩

/-- A look passes a segment that ends on its line, without another read. -/
theorem Follows.turn_within (hreads : Feedless reads) (h : c.Follows reads before)
    (hp : c.pending = some rs) {s : Segment} {rest : List Char} (hrest : c.rest = s.text ++ rest)
    (hfits : s.Fits (rest ++ '\n' :: delivered rs)) :
    c.turn.answer = s.token?.map .ok ∧ c.turn.reported = s.reports before (rest ++ '\n' :: delivered rs) ∧
      c.turn.cursor = c.skip s.text.length := by
  have hstream : c.stream = s.text ++ (rest ++ '\n' :: delivered rs) := by
    rw [stream_of_pending hp, hrest, List.append_assoc]
  obtain ⟨w, cs, hcs, hcursor, hok⟩ := exists_skip_of_fits hp h.feed_not_mem_rest hrest hfits
  have hturned := h.turned hreads
  generalize c.turn = turn at hcursor hok hturned
  cases hturned with
  | ended exhausted => simp [isExhausted, hp] at exhausted
  | unterminated _ _ _ => exact absurd rfl (hok _)
  | interrupted _ _ _ => exact absurd rfl (hok _)
  | @passed s' notes next stream fits _ reported =>
    obtain ⟨rfl, hnext⟩ := hfits.unique fits (hstream.symm.trans stream)
    rw [← hnext] at reported
    refine ⟨rfl, reported, ?_⟩
    -- the cursor is where the segment ends
    obtain rfl : next = c.skip w.length := hcursor
    have hrest' : (c.skip w.length).rest = cs := by
      show c.rest.drop w.length = cs
      rw [hcs, List.drop_left]
    rw [stream_of_pending (c := c.skip w.length) hp, hrest'] at hnext
    obtain rfl : rest = cs := List.append_cancel_right hnext
    rw [hcs] at hrest
    rw [List.append_cancel_right hrest]

/-- A look passes a segment without a line feed, without another read. -/
theorem Follows.turn_of_feedless (hreads : Feedless reads) (h : c.Follows reads before) {s : Segment}
    {rest : List Char} (hfits : s.Fits rest) (hs : c.stream = s.text ++ rest) (hfeed : '\n' ∉ s.text) :
    c.turn.answer = s.token?.map .ok ∧ c.turn.reported = s.reports before rest ∧
      c.turn.cursor = c.skip s.text.length ∧ c.turn.cursor.stream = rest := by
  obtain ⟨line, rs, hp, hrest, rfl⟩ := h.exists_rest hs hfeed hfits.text_ne_nil
  obtain ⟨hanswer, hreported, hcursor⟩ := h.turn_within hreads hp hrest hfits
  refine ⟨hanswer, hreported, hcursor, ?_⟩
  rw [hcursor]
  exact (h.skip hs hfeed hfits.text_ne_nil).1

end Within

/-! ## Looks along a line -/

/-- The cursor on the line feed that ends the line. -/
def toFeed (c : Cursor) : Cursor :=
  c.skip c.rest.length

theorem toFeed_skip (c : Cursor) {n : Nat} (hn : n ≤ c.rest.length) : (c.skip n).toFeed = c.toFeed := by
  have hlength : n + (c.skip n).rest.length = c.rest.length := by
    show n + (c.rest.drop n).length = _
    rw [List.length_drop]
    omega
  rw [toFeed, skip_skip, hlength, toFeed]

/-- The look at a line comment is the look from the line feed. -/
theorem turn_of_lineComment {c : Cursor} {rs : List LineRead} {body : List Char} (hp : c.pending = some rs)
    (hrest : c.rest = '/' :: '/' :: body) : c.turn = c.toFeed.turn := by
  have hx : ¬ c.isExhausted = true := by simp [isExhausted, hp]
  have hfeed : c.toFeed.rest = [] := List.drop_length
  have hpending : c.toFeed.pending = some rs := hp
  rw [turn_of_feed hpending hfeed, turn, if_neg hx, show Front.of c.rest = .lineComment by rw [hrest]; rfl]
  show Turn.ofMove c.toFeed.advance = _
  simp [advance, hpending, hfeed]

end Cursor

/-- What the segments yield that come after `before`. -/
def yieldsOf (before : List Char) : List Segment → List Yield
  | [] => []
  | s :: segs =>
    (s.reports before (segs.flatMap Segment.text)).map .reported ++ s.token?.toList.map .token
      ++ yieldsOf (before ++ s.text) segs

namespace Cursor

section Line

variable {reads rs : List LineRead} {before : List Char} {c last : Cursor} {segs : List Segment}
  {ys : List Yield}

/-- The look at the segment that ends the line is the look from the line feed. -/
theorem turn_eq_toFeed (before : List Char) (hp : c.pending = some rs) {s : Segment} (hs : s.Fits [])
    (htext : c.rest ++ ['\n'] = s.text) : c.turn = c.toFeed.turn ∧ yieldsOf before [s] = [] := by
  have hlines : CompleteLines s.text := by
    rw [← htext]
    exact .inr (by simp)
  rcases hs.eq_of_completeLines hlines with ⟨ch, -, rfl⟩ | ⟨text, hcomment, rfl⟩
  · have hrest : c.rest = [] := by simpa [Segment.text] using congrArg List.length htext
    refine ⟨?_, rfl⟩
    rw [toFeed, hrest]
    rfl
  · cases hcomment with
    | block _ =>
      have hlast := hlines.resolve_left (List.cons_ne_nil _ _)
      rw [Segment.text, List.getLast?_append] at hlast
      cases hlast
    | @line body _ => exact ⟨turn_of_lineComment hp (List.append_cancel_right htext), rfl⟩

/-- A look passes a segment that does not end the line, and yields what the segment yields. -/
theorem Follows.turn_within_line (hreads : Feedless reads) (h : c.Follows reads before)
    (hp : c.pending = some rs) {s : Segment} {rest : List Char} (hrest : c.rest = s.text ++ rest)
    (hfits : s.Fits (rest ++ ['\n'])) :
    c.turn.yields = (s.reports before (rest ++ ['\n'])).map .reported ++ s.token?.toList.map .token ∧
      c.turn.cursor.Follows reads (before ++ s.text) ∧ c.turn.cursor.pending = some rs ∧
        c.turn.cursor.rest = rest ∧ c.turn.cursor.toFeed = c.toFeed := by
  have hlines : CompleteLines (s.text ++ (rest ++ ['\n'])) := by
    rw [← List.append_assoc]
    exact .inr (by simp)
  have hfits' := hfits.append hlines (delivered rs)
  have hreports := hfits.reports_append hlines before (delivered rs)
  rw [List.append_assoc, List.singleton_append] at hfits' hreports
  obtain ⟨hanswer, hreported, hcursor⟩ := h.turn_within hreads hp hrest hfits'
  have hstream : c.stream = s.text ++ (rest ++ '\n' :: delivered rs) := by
    rw [stream_of_pending hp, hrest, List.append_assoc]
  have hfeed : '\n' ∉ s.text := fun hmem => h.feed_not_mem_rest (hrest ▸ List.mem_append_left _ hmem)
  rw [hcursor]
  refine ⟨?_, (h.skip hstream hfeed hfits.text_ne_nil).2, hp, ?_, toFeed_skip c ?_⟩
  · rw [Turn.yields, hanswer, hreported, hreports]
    cases s.token? <;> rfl
  · show c.rest.drop s.text.length = rest
    rw [hrest, List.drop_left]
  · rw [hrest, List.length_append]
    exact Nat.le_add_right ..

/-- Looks along a line yield what its segments yield, and then go on from the line feed. -/
theorem Follows.looks_line (hreads : Feedless reads) (h : c.Follows reads before)
    (hp : c.pending = some rs) (ht : Tiles segs (c.rest ++ ['\n']))
    (later : Looks c.toFeed.turn.cursor ys last) :
    Looks c (yieldsOf before segs ++ (c.toFeed.turn.yields ++ ys)) last := by
  generalize hcs : c.rest ++ ['\n'] = cs at ht
  induction ht generalizing c before with
  | nil => simp at hcs
  | @cons s segs rest fits tiles ih =>
    by_cases hnil : rest = []
    · subst hnil
      obtain rfl : segs = [] := tiles.unique .nil
      rw [List.append_nil] at hcs
      obtain ⟨hturn, hyields⟩ := turn_eq_toFeed before hp fits hcs
      rw [hyields, ← hturn]
      rw [← hturn] at later
      exact later.turn
    · obtain ⟨rest', rfl⟩ : ∃ rest', rest = rest' ++ ['\n'] := by
        have hlines : CompleteLines (s.text ++ rest) := by
          rw [← hcs]
          exact .inr (by simp)
        exact List.getLast?_eq_some_iff.mp (hlines.of_append.resolve_left hnil)
      rw [← List.append_assoc] at hcs
      obtain ⟨hyields, hfollows, hpending, hrest, hfeed⟩ :=
        h.turn_within_line hreads hp (List.append_cancel_right hcs) fits
      rw [← hfeed] at later
      have hlooks := ih hfollows hpending later (by rw [hrest])
      rw [yieldsOf, tiles.flatMap_text, ← hyields, List.append_assoc, ← hfeed]
      exact hlooks.turn

end Line

end Cursor

end MiniLex
