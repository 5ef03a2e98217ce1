import MiniLex.Proofs.Outcomes

/-!
# Where string literals and block comments end

A string literal ends at the first quote with an even number of backslashes right before it, a block
comment at the first star and slash after those that open it. Either is said by the text alone: the
rules by which a passage finds its end, one character after the other, come to the same place.

- `SomeCut P cs`: somewhere `cs` can be cut in two so that `P` holds of the parts.
- `FirstCut P cs before behind`: the first place for such a cut is between `before` and `behind`.
- `EndsString before behind`: a string literal whose characters are `before` ends in front of `behind`.
- `escaping`: what the rule for string literals keeps of the characters that it has passed.

Main statements: `Cursor.Seen.takes_string`, `Cursor.Seen.passes_comment`.
-/

namespace MiniLex

/-! ## First cuts -/

/-- Somewhere a text can be cut in two so that `P` holds of the parts. -/
def SomeCut (P : List Char → List Char → Prop) (cs : List Char) : Prop :=
  ∃ before behind, cs = before ++ behind ∧ P before behind

/-- The first place where a text can be cut in two so that `P` holds of the parts. -/
structure FirstCut (P : List Char → List Char → Prop) (cs before behind : List Char) : Prop where
  text : cs = before ++ behind
  holds : P before behind
  first : ∀ before' behind', cs = before' ++ behind' → P before' behind' →
    before.length ≤ before'.length

section Cuts

variable {P : List Char → List Char → Prop} {c : Char} {cs before behind : List Char}

/-- A cut that is not in front of the first character is behind it. -/
theorem exists_tail_of_cut (hnone : ¬ P [] (c :: cs)) (hcs : c :: cs = before ++ behind)
    (hP : P before behind) : ∃ tail, before = c :: tail ∧ cs = tail ++ behind := by
  cases before with
  | nil =>
    obtain rfl : c :: cs = behind := hcs
    exact absurd hP hnone
  | cons d tail =>
    obtain ⟨rfl, htail⟩ := List.cons.inj hcs
    exact ⟨tail, rfl, htail⟩

theorem not_someCut_nil (hnone : ¬ P [] []) : ¬ SomeCut P [] := by
  rintro ⟨before, behind, hnil, hP⟩
  obtain ⟨rfl, rfl⟩ := List.append_eq_nil_iff.mp hnil.symm
  exact hnone hP

theorem not_someCut_cons (hnone : ¬ P [] (c :: cs)) (h : ¬ SomeCut (fun w => P (c :: w)) cs) :
    ¬ SomeCut P (c :: cs) := by
  rintro ⟨before, behind, hcs, hP⟩
  obtain ⟨tail, rfl, htail⟩ := exists_tail_of_cut hnone hcs hP
  exact h ⟨tail, behind, htail, hP⟩

theorem FirstCut.someCut (h : FirstCut P cs before behind) : SomeCut P cs :=
  ⟨before, behind, h.text, h.holds⟩

theorem FirstCut.nil (h : P [] cs) : FirstCut P cs [] cs :=
  ⟨rfl, h, fun _ _ _ _ => Nat.zero_le _⟩

/-- The first cut is behind the first character, if no cut is in front of it. -/
theorem FirstCut.cons (hnone : ¬ P [] (c :: cs)) (h : FirstCut (fun w => P (c :: w)) cs before behind) :
    FirstCut P (c :: cs) (c :: before) behind := by
  constructor
  · rw [h.text]
    rfl
  · exact h.holds
  · intro before' behind' hcs hP
    obtain ⟨tail, rfl, htail⟩ := exists_tail_of_cut hnone hcs hP
    exact Nat.succ_le_succ (h.first tail behind' htail hP)

end Cuts

/-! ## String literals -/

/-- How many backslashes a text ends with. -/
def backslashes (cs : List Char) : Nat :=
  (cs.rtakeWhile (· == '\\')).length

/-- A string literal whose characters are `before` ends in front of `behind`: a quote comes, and an even
number of backslashes is right before it. -/
def EndsString (before behind : List Char) : Prop :=
  behind.head? = some '"' ∧ Even (backslashes before)

instance (before behind : List Char) : Decidable (EndsString before behind) :=
  inferInstanceAs (Decidable (_ ∧ _))

/-- Whether the last of the characters is a backslash that escapes what comes next. -/
def escaping (passed : List Char) : Bool :=
  decide (¬ Even (backslashes passed))

theorem backslashes_concat (passed : List Char) (ch : Char) :
    backslashes (passed ++ [ch]) = if ch = '\\' then backslashes passed + 1 else 0 := by
  unfold backslashes
  by_cases hback : ch = '\\'
  · rw [List.rtakeWhile_concat_pos _ _ _ (by simpa using hback), if_pos hback, List.length_append]
    rfl
  · rw [List.rtakeWhile_concat_neg _ _ _ (by simpa using hback), if_neg hback]
    rfl

/-- The rule for string literals closes at a quote after an even number of backslashes, and else keeps
whether the number is odd. -/
theorem closesString_escaping (passed : List Char) (ch : Char) :
    closesString (escaping passed) ch =
      if ch = '"' ∧ Even (backslashes passed) then none else some (escaping (passed ++ [ch])) := by
  have hconcat := backslashes_concat passed ch
  by_cases heven : Even (backslashes passed)
  · have hstate : escaping passed = false := by simpa [escaping] using heven
    rw [hstate]
    by_cases hquote : ch = '"'
    · rw [if_pos ⟨hquote, heven⟩, hquote]
      rfl
    · rw [if_neg (fun h => hquote h.1), escaping, hconcat]
      by_cases hback : ch = '\\' <;> simp [closesString, hquote, hback, heven, Nat.even_add_one]
  · have hstate : escaping passed = true := by simpa [escaping] using heven
    rw [hstate, if_neg (fun h => heven h.2), escaping, hconcat]
    by_cases hback : ch = '\\' <;> simp [closesString, hback, heven, Nat.even_add_one]

/-- What the passage of a string literal comes to, after the characters `passed`: the first place where
the literal ends, if there is one. -/
theorem cutAtClosing_escaping (passed cs : List Char) :
    (∀ body rest, cutAtClosing closesString (escaping passed) cs = some (body, rest) →
        FirstCut (fun w => EndsString (passed ++ w)) cs body rest) ∧
      (cutAtClosing closesString (escaping passed) cs = none →
        ¬ SomeCut (fun w => EndsString (passed ++ w)) cs) := by
  -- the characters go over to `passed` one after the other, and the state with them
  induction cs generalizing passed with
  | nil =>
    constructor
    · intro body rest hcut
      cases hcut
    · intro _
      exact not_someCut_nil fun hends => by cases hends.1
  | cons ch cs ih =>
    have hhere : EndsString (passed ++ []) (ch :: cs) ↔ ch = '"' ∧ Even (backslashes passed) := by
      simp [EndsString]
    have hstep := closesString_escaping passed ch
    by_cases hends : ch = '"' ∧ Even (backslashes passed)
    · rw [if_pos hends] at hstep
      rw [cutAtClosing_stop hstep]
      constructor
      · intro body rest hcut
        obtain ⟨rfl, rfl⟩ := Prod.mk.inj (Option.some.inj hcut)
        exact .nil (hhere.mpr hends)
      · intro hcut
        cases hcut
    · rw [if_neg hends] at hstep
      rw [cutAtClosing_step hstep]
      obtain ⟨hsome, hnone⟩ := ih (passed ++ [ch])
      simp only [List.append_assoc, List.singleton_append] at hsome hnone
      constructor
      · intro body rest hcut
        obtain ⟨⟨body', rest'⟩, hcut', heq⟩ := Option.map_eq_some_iff.mp hcut
        obtain ⟨rfl, rfl⟩ := Prod.mk.inj heq
        exact .cons (fun h => hends (hhere.mp h)) (hsome body' rest' hcut')
      · intro hcut
        exact not_someCut_cons (fun h => hends (hhere.mp h)) (hnone (Option.map_eq_none_iff.mp hcut))

/-- What stands before the first quote that ends a string literal is a string body. -/
theorem exists_first_quote {cs : List Char} (h : SomeCut EndsString cs) :
    ∃ body rest, IsStringBody body ∧ FirstCut EndsString cs body ('"' :: rest) := by
  obtain ⟨hsome, hnone⟩ := cutAtClosing_escaping [] cs
  cases hcut : cutAtClosing closesString (escaping []) cs with
  | none => exact absurd h (hnone hcut)
  | some cut =>
    obtain ⟨hbody, hquote⟩ : IsStringBody cut.1 ∧ cut.2.head? = some '"' := isStringBody_of_cut hcut
    obtain ⟨rest, hrest⟩ := List.head?_eq_some_iff.mp hquote
    have hfirst := hsome cut.1 cut.2 hcut
    rw [hrest] at hfirst
    exact ⟨cut.1, rest, hbody, hfirst⟩

/-- A string literal that no quote ends is not closed. -/
theorem unterminated_of_no_quote {cs : List Char} (h : ¬ SomeCut EndsString cs) :
    Unterminated ('"' :: cs) := by
  refine unterminated_string ?_
  cases hcut : cutAtClosing closesString false cs with
  | none => rfl
  | some cut => exact absurd ((cutAtClosing_escaping [] cs).1 cut.1 cut.2 hcut).someCut h

/-! ## Block comments -/

/-- The star and slash after a text without any are the first. -/
theorem firstCut_of_not_closed {body rest : List Char} (h : ¬ ['*', '/'] <:+: body) :
    FirstCut (fun _ behind => ['*', '/'] <+: behind) (body ++ '*' :: '/' :: rest) body
      ('*' :: '/' :: rest) := by
  induction body with
  | nil => exact .nil ⟨rest, rfl⟩
  | cons c body ih =>
    obtain ⟨hhead, hbody⟩ := not_closed_cons.mp h
    refine .cons ?_ (ih hbody)
    intro hclose
    obtain ⟨hstar, hslash⟩ := List.cons_prefix_cons.mp hclose
    cases body with
    | nil => exact absurd (List.cons_prefix_cons.mp hslash).1 (by decide)
    | cons d body => exact hhead ⟨hstar.symm, by rw [← (List.cons_prefix_cons.mp hslash).1]; rfl⟩

namespace Cursor

/-! ## Looks at literals and comments -/

variable {text r : List Char} {c : Cursor}

/-- A string literal is taken up to the first quote that ends it. -/
theorem Seen.takes_closed_string (h : Seen (LineRead.ofText text) c) (hr : c.stream = '"' :: r)
    (hquote : SomeCut EndsString r) :
    ∃ body rest, FirstCut EndsString r body ('"' :: rest) ∧
      c.Takes (.spelled .stringLiteral ('"' :: body ++ ['"'])) ('"' :: body ++ ['"']) ∧
        c.scan.cursor.stream = rest := by
  obtain ⟨body, rest, hbody, hfirst⟩ := exists_first_quote hquote
  have hstream : c.stream = '"' :: body ++ ['"'] ++ rest := by simp [hr, hfirst.text]
  have hliteral : IsStringLiteral ('"' :: body ++ ['"']) := ⟨body, hbody, rfl⟩
  exact ⟨body, rest, hfirst, h.takes_of_fits hstream (.string hliteral) (hliteral.fits rest)⟩

/-- A string literal that no quote ends is read to the end of the source. -/
theorem Seen.runsOut_of_no_quote (h : Seen (LineRead.ofText text) c) (hr : c.stream = '"' :: r)
    (hnone : ¬ SomeCut EndsString r) : c.RunsOut (lineCount text) := by
  refine h.runsOut_of_unterminated ?_
  rw [hr]
  exact unterminated_of_no_quote hnone

/-- Wherever the run of a scanner comes to a quote that opens a string literal: the scan makes a token if
and only if a quote comes with an even number of backslashes right before it. It takes all up to the
first such quote, or it comes to the end of the source. -/
theorem Seen.takes_string (h : Seen (LineRead.ofText text) c) (hr : c.stream = '"' :: r) :
    ((∃ t, c.scan.answer = .ok t) ↔ SomeCut EndsString r) ∧
      (SomeCut EndsString r →
        ∃ body rest, FirstCut EndsString r body ('"' :: rest) ∧
          c.Takes (.spelled .stringLiteral ('"' :: body ++ ['"'])) ('"' :: body ++ ['"']) ∧
            c.scan.cursor.stream = rest) ∧
      (¬ SomeCut EndsString r → c.RunsOut (lineCount text)) := by
  refine ⟨⟨?_, ?_⟩, h.takes_closed_string hr, h.runsOut_of_no_quote hr⟩
  · rintro ⟨t, hanswer⟩
    by_contra hnone
    rw [(h.runsOut_of_no_quote hr hnone).answer] at hanswer
    cases hanswer
  · intro hquote
    obtain ⟨body, rest, -, htakes, -⟩ := h.takes_closed_string hr hquote
    exact ⟨_, htakes.answer⟩

/-- A literal over two lines with an escaped quote, and one whose only other quote is escaped. -/
theorem Seen.takes_string_over_lines :
    let r := ['\\', '"', '\n', '\\', '\\', '"', ';', '\n']
    let unclosed := ['"', '\\', '"']
    let c : Cursor := ⟨some [.line ['\\', '\\', '"', ';']], ['"', '\\', '"'], ['"', '\\', '"'], 1, 1⟩
    let last : Cursor := ⟨some [], ['"', '\\', '"'], ['"', '\\', '"'], 1, 1⟩
    (Seen (LineRead.ofText ('"' :: r)) c ∧ c.stream = '"' :: r ∧
        ∃ body rest, FirstCut EndsString r body ('"' :: rest) ∧
          c.Takes (.spelled .stringLiteral ('"' :: body ++ ['"'])) ('"' :: body ++ ['"']) ∧
            c.scan.cursor.stream = rest) ∧
      Seen (LineRead.ofText unclosed) last ∧ last.stream = unclosed ++ ['\n'] ∧ last.RunsOut 1 := by
  intro r unclosed c last
  have hseen : Seen (LineRead.ofText ('"' :: r)) c := .first (by decide)
  have hlast : Seen (LineRead.ofText unclosed) last := .first (by decide)
  have hquote : SomeCut EndsString r :=
    ⟨['\\', '"', '\n', '\\', '\\'], ['"', ';', '\n'], rfl, by decide⟩
  have hnone : ¬ SomeCut EndsString ['\\', '"', '\n'] := (cutAtClosing_escaping [] _).2 (by decide)
  have hclosed := (hseen.takes_string (r := r) rfl).2.1 hquote
  have hopen := (hlast.takes_string (r := ['\\', '"', '\n']) rfl).2.2 hnone
  exact ⟨⟨hseen, rfl, hclosed⟩, hlast, rfl, hopen⟩

/-- Wherever the run of a scanner comes to a slash and a star: the look passes all up to the first star
and slash after them, makes no token and reports nothing, or it comes to the end of the source. -/
theorem Seen.passes_comment (h : Seen (LineRead.ofText text) c) (hr : c.stream = '/' :: '*' :: r) :
    (['*', '/'] <:+: r →
        ∃ body rest, FirstCut (fun _ behind => ['*', '/'] <+: behind) r body ('*' :: '/' :: rest) ∧
          c.Passes ('/' :: '*' :: body ++ ['*', '/']) [] ∧ c.turn.cursor.stream = rest) ∧
      (¬ ['*', '/'] <:+: r → c.RunsOut (lineCount text)) := by
  constructor
  · intro hclose
    obtain ⟨body, rest, hbody, rfl⟩ := exists_first_close hclose
    have hstream : c.stream = '/' :: '*' :: body ++ ['*', '/'] ++ rest := by simp [hr]
    have hfits : (Segment.comment ('/' :: '*' :: body ++ ['*', '/'])).Fits rest := .comment (.block hbody)
    obtain ⟨before, -, hpasses⟩ := h.passes_of_fits hstream hfits rfl
    exact ⟨body, rest, firstCut_of_not_closed hbody, hpasses⟩
  · intro hopen
    refine h.runsOut_of_unterminated ?_
    rw [hr]
    exact .comment hopen

/-- A comment that goes on with a slash, and one that this slash does not close. -/
theorem Seen.passes_comment_after_slash :
    let r := ['/', '*', '*', '/', 'a', '\n']
    let unclosed := ['/', '*', '/']
    let c : Cursor := ⟨some [], '/' :: '*' :: r.dropLast, '/' :: '*' :: r.dropLast, 1, 1⟩
    let last : Cursor := ⟨some [], unclosed, unclosed, 1, 1⟩
    (Seen (LineRead.ofText ('/' :: '*' :: r)) c ∧ c.stream = '/' :: '*' :: r ∧ ['*', '/'] <:+: r ∧
        ∃ body rest, FirstCut (fun _ behind => ['*', '/'] <+: behind) r body ('*' :: '/' :: rest) ∧
          c.Passes ('/' :: '*' :: body ++ ['*', '/']) [] ∧ c.turn.cursor.stream = rest) ∧
      Seen (LineRead.ofText unclosed) last ∧ last.stream = '/' :: '*' :: ['/', '\n'] ∧
        ¬ ['*', '/'] <:+: ['/', '\n'] ∧ last.RunsOut 1 := by
  intro r unclosed c last
  have hseen : Seen (LineRead.ofText ('/' :: '*' :: r)) c := .first (by decide)
  have hlast : Seen (LineRead.ofText unclosed) last := .first (by decide)
  have hclose : ['*', '/'] <:+: r := by decide
  have hnone : ¬ ['*', '/'] <:+: ['/', '\n'] := by decide
  have hclosed := (hseen.passes_comment (r := r) rfl).1 hclose
  have hopen := (hlast.passes_comment (r := ['/', '\n']) rfl).2 hnone
  exact ⟨⟨hseen, rfl, hclose, hclosed⟩, hlast, rfl, hnone, hopen⟩

end Cursor

end MiniLex
