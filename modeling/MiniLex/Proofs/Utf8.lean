import Mathlib
import MiniLex.Text.Utf8

/-!
# Decoding with replacement

What bytes are decoded to, as UTF-8 says it: each encoded character gives itself, and each maximal
beginning of an encoding that is not carried on, like each byte that begins none, gives one U+FFFD.

- `Utf8.First`: what a byte comes to that no open sequence comes before.
- `Utf8.Opened w s`: the open sequence `s` says which bytes make the encoding of a character after
  `w`.
- `Utf8.Lossy bs cs`: the characters `cs` are those of the bytes `bs`. It holds of `Utf8.decode bs` and
  of nothing else (`Utf8.lossy_iff`).
- `Utf8.decode_encode`: the bytes of a text are decoded to the text.
- `Utf8.decodeFrom_append_feed`: what comes after the byte of a line feed is decoded on its own.
-/

namespace MiniLex

namespace Utf8

/-! ## Encodings of characters -/

/-- The bytes of a text. -/
def encode (text : List Char) : List UInt8 :=
  text.flatMap String.utf8EncodeChar

section Encodings

variable {a b d e : UInt8} {c : Char} {tail : List UInt8}

theorem toNat_valid (c : Char) : c.toNat < 0xD800 ∨ 0xDFFF < c.toNat ∧ c.toNat < 0x110000 :=
  c.valid

theorem eq_ofNat_iff {n : Nat} (h : n.isValidChar) : c = Char.ofNat n ↔ c.toNat = n := by
  have hn : (Char.ofNat n).toNat = n := by
    rw [Char.ofNat, dif_pos h]
    rfl
  constructor
  · rintro rfl
    exact hn
  · rintro rfl
    exact (Char.ofNat_toNat c).symm

/-- The first byte of an encoding tells how many more there are. -/
theorem lead_of_encode (h : String.utf8EncodeChar c = a :: tail) :
    (a.toNat < 0x80 ∧ tail.length = 0) ∨ ((0xC2 ≤ a.toNat ∧ a.toNat < 0xE0) ∧ tail.length = 1) ∨
      ((0xE0 ≤ a.toNat ∧ a.toNat < 0xF0) ∧ tail.length = 2) ∨
        (0xF0 ≤ a.toNat ∧ a.toNat < 0xF5) ∧ tail.length = 3 := by
  have hv : c.val.toNat = c.toNat := rfl
  have hvalid := toNat_valid c
  simp only [String.utf8EncodeChar, hv] at h
  split_ifs at h <;> obtain ⟨rfl, rfl⟩ := List.cons.inj h <;> simp <;> omega

theorem encode_ne_nil (c : Char) : String.utf8EncodeChar c ≠ [] := by
  unfold String.utf8EncodeChar
  dsimp only
  split_ifs <;> simp

/-! One lemma for each length. -/

theorem encode_one : String.utf8EncodeChar c = [a] ↔ a.toNat < 0x80 ∧ c.toNat = a.toNat := by
  have hv : c.val.toNat = c.toNat := rfl
  simp only [String.utf8EncodeChar, hv]
  split_ifs <;> simp [← UInt8.toNat_inj] <;> omega

theorem encode_two :
    String.utf8EncodeChar c = [a, b] ↔
      (0xC2 ≤ a.toNat ∧ a.toNat < 0xE0) ∧ (0x80 ≤ b.toNat ∧ b.toNat ≤ 0xBF) ∧
        c.toNat = (a.toNat - 0xC0) * 64 + (b.toNat - 0x80) := by
  have hv : c.val.toNat = c.toNat := rfl
  simp only [String.utf8EncodeChar, hv]
  split_ifs <;> simp [← UInt8.toNat_inj] <;> omega

theorem encode_three :
    String.utf8EncodeChar c = [a, b, d] ↔
      (0xE0 ≤ a.toNat ∧ a.toNat < 0xF0) ∧ (0x80 ≤ b.toNat ∧ b.toNat ≤ 0xBF) ∧
        (0x80 ≤ d.toNat ∧ d.toNat ≤ 0xBF) ∧ 0x800 ≤ c.toNat ∧
          c.toNat = ((a.toNat - 0xE0) * 64 + (b.toNat - 0x80)) * 64 + (d.toNat - 0x80) := by
  have hv : c.val.toNat = c.toNat := rfl
  simp only [String.utf8EncodeChar, hv]
  split_ifs <;> simp [← UInt8.toNat_inj] <;> omega

theorem encode_four :
    String.utf8EncodeChar c = [a, b, d, e] ↔
      (0xF0 ≤ a.toNat ∧ a.toNat < 0xF5) ∧ (0x80 ≤ b.toNat ∧ b.toNat ≤ 0xBF) ∧
        (0x80 ≤ d.toNat ∧ d.toNat ≤ 0xBF) ∧ (0x80 ≤ e.toNat ∧ e.toNat ≤ 0xBF) ∧ 0x10000 ≤ c.toNat ∧
          c.toNat = (((a.toNat - 0xF0) * 64 + (b.toNat - 0x80)) * 64 + (d.toNat - 0x80)) * 64 +
            (e.toNat - 0x80) := by
  have hv : c.val.toNat = c.toNat := rfl
  have hvalid := toNat_valid c
  simp only [String.utf8EncodeChar, hv]
  split_ifs <;> simp [← UInt8.toNat_inj] <;> omega

end Encodings

/-! ## First bytes -/

/-- What a byte comes to that no open sequence comes before. -/
inductive First (a : UInt8) : List Char × Option Sequence → Prop where
  | ascii (byte : a.toNat < 0x80) : First a ([Char.ofNat a.toNat], none)
  /-- A byte that no character begins with. -/
  | stray (byte : 0x80 ≤ a.toNat ∧ a.toNat < 0xC2 ∨ 0xF5 ≤ a.toNat) : First a ([replacement], none)
  | two (byte : 0xC2 ≤ a.toNat ∧ a.toNat < 0xE0) : First a ([], some ⟨a.toNat - 0xC0, 1, 0x80, 0xBF⟩)
  | three {low high : UInt8} (byte : 0xE0 ≤ a.toNat ∧ a.toNat < 0xF0)
      (lower : low.toNat = if a.toNat = 0xE0 then 0xA0 else 0x80)
      (upper : high.toNat = if a.toNat = 0xED then 0x9F else 0xBF) :
      First a ([], some ⟨a.toNat - 0xE0, 2, low, high⟩)
  | four {low high : UInt8} (byte : 0xF0 ≤ a.toNat ∧ a.toNat < 0xF5)
      (lower : low.toNat = if a.toNat = 0xF0 then 0x90 else 0x80)
      (upper : high.toNat = if a.toNat = 0xF4 then 0x8F else 0xBF) :
      First a ([], some ⟨a.toNat - 0xF0, 3, low, high⟩)

theorem toNat_ite (a x y z : UInt8) :
    (if a = x then y else z).toNat = if a.toNat = x.toNat then y.toNat else z.toNat := by
  rw [apply_ite UInt8.toNat]
  simp only [UInt8.toNat_inj]

theorem first_spec (a : UInt8) : First a (first a) := by
  simp only [first, UInt8.lt_iff_toNat_lt]
  split
  · rename_i h1
    exact .ascii h1
  rename_i h1
  split
  · rename_i h2
    exact .stray (.inl ⟨Nat.le_of_not_lt h1, h2⟩)
  rename_i h2
  split
  · rename_i h3
    exact .two ⟨Nat.le_of_not_lt h2, h3⟩
  rename_i h3
  split
  · rename_i h4
    exact .three ⟨Nat.le_of_not_lt h3, h4⟩ (toNat_ite ..) (toNat_ite ..)
  rename_i h4
  split
  · rename_i h5
    exact .four ⟨Nat.le_of_not_lt h4, h5⟩ (toNat_ite ..) (toNat_ite ..)
  · rename_i h5
    exact .stray (.inr (Nat.le_of_not_lt h5))

/-! ## Open sequences -/

/-- The byte carries the open sequence on. -/
def Sequence.Takes (s : Sequence) (b : UInt8) : Prop :=
  s.low.toNat ≤ b.toNat ∧ b.toNat ≤ s.high.toNat

/-- The open sequence with one byte more, which is not the last. -/
def Sequence.next (s : Sequence) (b : UInt8) : Sequence :=
  ⟨s.bits * 64 + (b.toNat - 0x80), s.lacking - 1, 0x80, 0xBF⟩

/-- The bytes carry the open sequence on to the end of the encoding of the character. -/
def Sequence.Carries (s : Sequence) : List UInt8 → Char → Prop
  | [], _ => False
  | b :: bs, c =>
    s.Takes b ∧
      if s.lacking ≤ 1 then bs = [] ∧ c = Char.ofNat (s.bits * 64 + (b.toNat - 0x80))
      else (s.next b).Carries bs c

section Steps

variable {s : Sequence} {a b d e : UInt8} {c : Char} {w tail : List UInt8}

theorem step_last (hb : s.Takes b) (hs : s.lacking ≤ 1) :
    step (some s) b = ([Char.ofNat (s.bits * 64 + (b.toNat - 0x80))], none) := by
  have hb : s.low ≤ b ∧ b ≤ s.high := by rwa [UInt8.le_iff_toNat_le, UInt8.le_iff_toNat_le]
  simp only [step, if_pos hb, if_pos hs]

theorem step_next (hb : s.Takes b) (hs : ¬ s.lacking ≤ 1) : step (some s) b = ([], some (s.next b)) := by
  have hb : s.low ≤ b ∧ b ≤ s.high := by rwa [UInt8.le_iff_toNat_le, UInt8.le_iff_toNat_le]
  simp only [step, if_pos hb, if_neg hs]
  rfl

/-- A byte that does not carry an open sequence on is looked at afresh. -/
theorem step_afresh (hb : ¬ s.Takes b) : step (some s) b = (replacement :: (first b).1, (first b).2) := by
  have hb : ¬ (s.low ≤ b ∧ b ≤ s.high) := by rwa [UInt8.le_iff_toNat_le, UInt8.le_iff_toNat_le]
  simp only [step, if_neg hb]

theorem carries_last (hs : s.lacking ≤ 1) :
    s.Carries [b] c ↔ s.Takes b ∧ c = Char.ofNat (s.bits * 64 + (b.toNat - 0x80)) := by
  rw [Sequence.Carries, if_pos hs]
  simp only [true_and]

theorem carries_next (hs : ¬ s.lacking ≤ 1) : s.Carries (b :: tail) c ↔ s.Takes b ∧ (s.next b).Carries tail c := by
  rw [Sequence.Carries, if_neg hs]

theorem takes_next : (s.next a).Takes b ↔ 0x80 ≤ b.toNat ∧ b.toNat ≤ 0xBF :=
  Iff.rfl

theorem Sequence.Carries.length (h : s.Carries tail c) (hs : 1 ≤ s.lacking) : tail.length = s.lacking := by
  induction tail generalizing s with
  | nil => exact h.elim
  | cons b bs ih =>
    obtain ⟨-, h⟩ := h
    split at h
    · obtain ⟨rfl, -⟩ := h
      show 1 = s.lacking
      omega
    · have hlater : bs.length = s.lacking - 1 := ih h (by show 1 ≤ s.lacking - 1; omega)
      rw [List.length_cons]
      omega

/-- The bytes after an open sequence are decoded to the character that they carry it on to. -/
theorem Sequence.Carries.decodeFrom (h : s.Carries tail c) (bs : List UInt8) :
    Utf8.decodeFrom (some s) (tail ++ bs) = c :: Utf8.decodeFrom none bs := by
  induction tail generalizing s with
  | nil => exact h.elim
  | cons b tail ih =>
    obtain ⟨hb, h⟩ := h
    rw [List.cons_append, Utf8.decodeFrom]
    split at h
    · rename_i hs
      obtain ⟨rfl, hc⟩ := h
      rw [step_last hb hs, hc]
      rfl
    · rename_i hs
      rw [step_next hb hs]
      exact ih h

/-- Every open sequence can be carried on. -/
theorem Sequence.exists_carries (hs : s.low.toNat ≤ s.high.toNat) : ∃ tail c, s.Carries tail c := by
  have hlow : s.Takes s.low := ⟨Nat.le_refl _, hs⟩
  generalize hn : s.lacking = n
  induction n using Nat.strong_induction_on generalizing s with
  | h n ih =>
    by_cases hlast : s.lacking ≤ 1
    · exact ⟨[s.low], _, hlow, by rw [if_pos hlast]; exact ⟨rfl, rfl⟩⟩
    · have htail : (s.next s.low).low.toNat ≤ (s.next s.low).high.toNat := by
        show (0x80 : UInt8).toNat ≤ (0xBF : UInt8).toNat
        decide
      obtain ⟨tail, c, hc⟩ := ih (s.lacking - 1) (by omega) htail ⟨Nat.le_refl _, htail⟩ rfl
      exact ⟨s.low :: tail, c, hlow, by rwa [if_neg hlast]⟩

/-! ### What a first byte opens -/

theorem carries_two (ha : 0xC2 ≤ a.toNat ∧ a.toNat < 0xE0) :
    Sequence.Carries ⟨a.toNat - 0xC0, 1, 0x80, 0xBF⟩ [b] c ↔ String.utf8EncodeChar c = [a, b] := by
  rw [encode_two, carries_last (Nat.le_refl 1), and_iff_right ha]
  refine and_congr_right fun hb => eq_ofNat_iff (.inl ?_)
  have hb : 0x80 ≤ b.toNat ∧ b.toNat ≤ 0xBF := hb
  show (a.toNat - 0xC0) * 64 + (b.toNat - 0x80) < 0xD800
  omega

/-- The bounds of the second of three bytes keep out what two bytes encode, and surrogates. -/
theorem carries_three (ha : 0xE0 ≤ a.toNat ∧ a.toNat < 0xF0) (hbits : s.bits = a.toNat - 0xE0)
    (hlacking : s.lacking = 2) (hlow : s.low.toNat = if a.toNat = 0xE0 then 0xA0 else 0x80)
    (hhigh : s.high.toNat = if a.toNat = 0xED then 0x9F else 0xBF) :
    s.Carries [b, d] c ↔ String.utf8EncodeChar c = [a, b, d] := by
  have hvalid := toNat_valid c
  have hnext : (s.next b).lacking = 1 := congrArg (· - 1) hlacking
  have hvalue : (s.next b).bits = (a.toNat - 0xE0) * 64 + (b.toNat - 0x80) := by rw [← hbits]; rfl
  rw [encode_three, carries_next (by omega), carries_last (by omega), takes_next, and_iff_right ha,
    Sequence.Takes, hlow, hhigh, hvalue]
  constructor
  · rintro ⟨hb, hd, hc⟩
    rw [eq_ofNat_iff (by unfold Nat.isValidChar; split_ifs at hb <;> omega)] at hc
    split_ifs at hb <;> omega
  · rintro ⟨hb, hd, hlong, hc⟩
    refine ⟨?_, hd, (eq_ofNat_iff (hc ▸ hvalid)).mpr hc⟩
    split_ifs <;> omega

/-- The bounds of the second of four bytes keep out what three bytes encode, and what is above
`10FFFF`. -/
theorem carries_four (ha : 0xF0 ≤ a.toNat ∧ a.toNat < 0xF5) (hbits : s.bits = a.toNat - 0xF0)
    (hlacking : s.lacking = 3) (hlow : s.low.toNat = if a.toNat = 0xF0 then 0x90 else 0x80)
    (hhigh : s.high.toNat = if a.toNat = 0xF4 then 0x8F else 0xBF) :
    s.Carries [b, d, e] c ↔ String.utf8EncodeChar c = [a, b, d, e] := by
  have hvalid := toNat_valid c
  have hnext : (s.next b).lacking = 2 := congrArg (· - 1) hlacking
  have hlast : ((s.next b).next d).lacking = 1 := congrArg (· - 1) hnext
  have hvalue : ((s.next b).next d).bits =
      ((a.toNat - 0xF0) * 64 + (b.toNat - 0x80)) * 64 + (d.toNat - 0x80) := by rw [← hbits]; rfl
  rw [encode_four, carries_next (by omega), carries_next (by omega), carries_last (by omega), takes_next,
    takes_next, and_iff_right ha, Sequence.Takes, hlow, hhigh, hvalue]
  constructor
  · rintro ⟨hb, hd, he, hc⟩
    rw [eq_ofNat_iff (by unfold Nat.isValidChar; split_ifs at hb <;> omega)] at hc
    split_ifs at hb <;> omega
  · rintro ⟨hb, hd, he, hlong, hc⟩
    refine ⟨?_, hd, he, (eq_ofNat_iff (hc ▸ hvalid)).mpr hc⟩
    split_ifs <;> omega

/-- The sequence that a first byte opens is carried on by the bytes that it is encoded with. -/
theorem carries_first (h : (first a).2 = some s) :
    s.Carries tail c ↔ String.utf8EncodeChar c = a :: tail := by
  have hfirst := first_spec a
  generalize first a = r at h hfirst
  -- on both sides as many bytes follow as the first byte says
  cases hfirst with
  | ascii _ | stray _ => cases h
  | two byte =>
    obtain rfl := Option.some.inj h
    by_cases hlength : tail.length = 1
    · obtain ⟨b, rfl⟩ := List.length_eq_one_iff.mp hlength
      exact carries_two byte
    · refine iff_of_false (fun hs => hlength (hs.length (Nat.le_refl 1))) fun hc => ?_
      have hlead := lead_of_encode hc
      omega
  | three byte lower upper =>
    obtain rfl := Option.some.inj h
    by_cases hlength : tail.length = 2
    · obtain ⟨b, d, rfl⟩ := List.length_eq_two.mp hlength
      exact carries_three byte rfl rfl lower upper
    · refine iff_of_false (fun hs => hlength (hs.length (Nat.le_add_left 1 1))) fun hc => ?_
      have hlead := lead_of_encode hc
      omega
  | four byte lower upper =>
    obtain rfl := Option.some.inj h
    by_cases hlength : tail.length = 3
    · obtain ⟨b, d, e, rfl⟩ := List.length_eq_three.mp hlength
      exact carries_four byte rfl rfl lower upper
    · refine iff_of_false (fun hs => hlength (hs.length (Nat.le_add_left 1 2))) fun hc => ?_
      have hlead := lead_of_encode hc
      omega

end Steps

/-! ## Bytes that are no encoding -/

/-- The bytes are the first of the encoding of a character, or all of it. -/
def Begins (w : List UInt8) : Prop :=
  ∃ c, w <+: String.utf8EncodeChar c

theorem begins_encode (c : Char) : Begins (String.utf8EncodeChar c) :=
  ⟨c, List.prefix_refl _⟩

/-- The open sequence says which bytes make the encoding of a character after `w`. -/
structure Opened (w : List UInt8) (s : Sequence) : Prop where
  nonempty : w ≠ []
  carries : ∀ tail c, s.Carries tail c ↔ String.utf8EncodeChar c = w ++ tail
  takes : s.low.toNat ≤ s.high.toNat

section Opened

variable {s : Sequence} {a b : UInt8} {c : Char} {w v tail : List UInt8}

theorem Opened.of_first (h : (first a).2 = some s) : Opened [a] s := by
  refine ⟨by simp, fun tail c => carries_first h, ?_⟩
  have hfirst := first_spec a
  generalize first a = r at h hfirst
  cases hfirst with
  | ascii _ | stray _ => cases h
  | two _ =>
    obtain rfl := Option.some.inj h
    show (0x80 : UInt8).toNat ≤ (0xBF : UInt8).toNat
    decide
  | three _ lower upper | four _ lower upper =>
    obtain rfl := Option.some.inj h
    rw [lower, upper]
    split_ifs <;> omega

theorem Opened.next (h : Opened w s) (hb : s.Takes b) (hs : ¬ s.lacking ≤ 1) : Opened (w ++ [b]) (s.next b) := by
  refine ⟨by simp, fun tail c => ?_, ?_⟩
  · rw [List.append_assoc, List.singleton_append, ← h.carries, carries_next hs, and_iff_right hb]
  · show (0x80 : UInt8).toNat ≤ (0xBF : UInt8).toNat
    decide

theorem Opened.begins (h : Opened w s) : Begins w := by
  obtain ⟨tail, c, hc⟩ := Sequence.exists_carries h.takes
  exact ⟨c, tail, ((h.carries tail c).mp hc).symm⟩

theorem Opened.encode_ne (h : Opened w s) (c : Char) : String.utf8EncodeChar c ≠ w := by
  intro hc
  exact (h.carries [] c).mpr (by rw [hc, List.append_nil])

/-- The last byte of a sequence makes an encoding. -/
theorem Opened.encode_eq (h : Opened w s) (hb : s.Takes b) (hs : s.lacking ≤ 1) :
    String.utf8EncodeChar (Char.ofNat (s.bits * 64 + (b.toNat - 0x80))) = w ++ [b] :=
  (h.carries [b] _).mp ((carries_last hs).mpr ⟨hb, rfl⟩)

/-- A sequence takes the bytes that make a longer beginning of an encoding. -/
theorem Opened.takes_iff (h : Opened w s) : s.Takes b ↔ Begins (w ++ [b]) := by
  constructor
  · intro hb
    by_cases hs : s.lacking ≤ 1
    · rw [← h.encode_eq hb hs]
      exact begins_encode _
    · exact (h.next hb hs).begins
  · rintro ⟨c, tail, hc⟩
    rw [List.append_assoc, List.singleton_append] at hc
    exact ((h.carries (b :: tail) c).mpr hc.symm).1

/-- The bytes of an encoding but the last ones leave a sequence open. -/
theorem Opened.of_carries (h : Opened w s) (hc : s.Carries (v ++ tail) c) (htail : tail ≠ []) :
    ∃ s', Opened (w ++ v) s' ∧ ∀ bs, decodeFrom (some s) (v ++ bs) = decodeFrom (some s') bs := by
  induction v generalizing w s with
  | nil => exact ⟨s, by rwa [List.append_nil], fun _ => rfl⟩
  | cons b v ih =>
    obtain ⟨hb, hc⟩ := hc
    split at hc
    · exact absurd (List.append_eq_nil_iff.mp hc.1).2 htail
    · rename_i hs
      obtain ⟨s', hopened, hdecode⟩ := ih (h.next hb hs) hc
      refine ⟨s', by rwa [List.append_cons], fun bs => ?_⟩
      rw [List.cons_append, decodeFrom, step_next hb hs]
      exact hdecode bs

/-- A byte that no open sequence comes before is a character, begins none, or opens a sequence. -/
theorem first_cases (a : UInt8) :
    (a.toNat < 0x80 ∧ first a = ([Char.ofNat a.toNat], none)) ∨
      (¬ Begins [a] ∧ first a = ([replacement], none)) ∨ ∃ s, first a = ([], some s) ∧ Opened [a] s := by
  have hfirst := first_spec a
  have hopened := fun s => Opened.of_first (a := a) (s := s)
  generalize first a = r at hfirst hopened
  cases hfirst with
  | ascii byte => exact .inl ⟨byte, rfl⟩
  | stray byte =>
    refine .inr (.inl ⟨?_, rfl⟩)
    rintro ⟨c, tail, hc⟩
    have hlead := lead_of_encode hc.symm
    omega
  | two _ | three _ _ _ | four _ _ _ => exact .inr (.inr ⟨_, rfl, hopened _ rfl⟩)

end Opened

/-! ## Decoding -/

section Decoding

variable {a : UInt8} {c : Char} {w : List UInt8}

theorem decodeFrom_cons (a : UInt8) (bs : List UInt8) :
    decodeFrom none (a :: bs) = (first a).1 ++ decodeFrom (first a).2 bs := by
  rw [decodeFrom]
  rfl

theorem encode_of_ascii (h : a.toNat < 0x80) : String.utf8EncodeChar (Char.ofNat a.toNat) = [a] := by
  have hvalid : a.toNat.isValidChar := .inl (by omega)
  exact encode_one.mpr ⟨h, (eq_ofNat_iff hvalid).mp rfl⟩

/-- The encoding of a character is decoded to the character. -/
theorem decodeFrom_encodeChar (c : Char) (bs : List UInt8) :
    decodeFrom none (String.utf8EncodeChar c ++ bs) = c :: decodeFrom none bs := by
  obtain ⟨a, tail, hc⟩ := List.exists_cons_of_ne_nil (encode_ne_nil c)
  rw [hc, List.cons_append, decodeFrom_cons]
  rcases first_cases a with ⟨hascii, hfirst⟩ | ⟨hstray, -⟩ | ⟨s, hfirst, hs⟩
  · have hlead := lead_of_encode hc
    obtain rfl : tail = [] := List.length_eq_zero_iff.mp (by omega)
    obtain ⟨-, hchar⟩ := encode_one.mp hc
    rw [hfirst, ← hchar, Char.ofNat_toNat]
    rfl
  · exact absurd ⟨c, tail, hc.symm⟩ hstray
  · rw [hfirst]
    exact ((hs.carries tail c).mpr hc).decodeFrom bs

/-- The bytes of a text are decoded to the text. -/
theorem decode_encode (text : List Char) : decode (encode text) = text := by
  induction text with
  | nil => rfl
  | cons c text ih =>
    rw [decode, encode, List.flatMap_cons, decodeFrom_encodeChar]
    exact congrArg (c :: ·) ih

/-- A beginning of an encoding that is not all of it leaves a sequence open. -/
theorem exists_opened (hne : w ≠ []) (hbegins : Begins w) (hopen : ∀ c, String.utf8EncodeChar c ≠ w) :
    ∃ s, Opened w s ∧ ∀ bs, decodeFrom none (w ++ bs) = decodeFrom (some s) bs := by
  obtain ⟨c, tail, hc⟩ := hbegins
  obtain ⟨a, v, rfl⟩ := List.exists_cons_of_ne_nil hne
  have htail : tail ≠ [] := by
    rintro rfl
    exact hopen c (by rw [← hc, List.append_nil])
  have hc : String.utf8EncodeChar c = a :: (v ++ tail) := hc.symm
  rcases first_cases a with ⟨hascii, -⟩ | ⟨hstray, -⟩ | ⟨s, hfirst, hs⟩
  · have hlead := lead_of_encode hc
    have hlength := List.length_pos_iff.mpr htail
    rw [List.length_append] at hlead
    omega
  · exact absurd ⟨c, v ++ tail, hc.symm⟩ hstray
  · obtain ⟨s', hs', hdecode⟩ := hs.of_carries ((hs.carries _ c).mpr hc) htail
    refine ⟨s', hs', fun bs => ?_⟩
    rw [List.cons_append, decodeFrom_cons, hfirst]
    exact hdecode bs

end Decoding

/-! ## What bytes are decoded to -/

/-- The characters of bytes, where each maximal subpart that is no encoding gives one U+FFFD. -/
inductive Lossy : List UInt8 → List Char → Prop where
  | nil : Lossy [] []
  | char {c : Char} {bs : List UInt8} {cs : List Char} (rest : Lossy bs cs) :
      Lossy (String.utf8EncodeChar c ++ bs) (c :: cs)
  /-- A beginning of an encoding, as long as may be, but not all of it. -/
  | cut {w bs : List UInt8} {cs : List Char} (nonempty : w ≠ []) (begins : Begins w)
      (unfinished : ∀ c, String.utf8EncodeChar c ≠ w) (longest : ∀ b, bs.head? = some b → ¬ Begins (w ++ [b]))
      (rest : Lossy bs cs) : Lossy (w ++ bs) (replacement :: cs)
  /-- A byte that no encoding begins with. -/
  | stray {b : UInt8} {bs : List UInt8} {cs : List Char} (stray : ¬ Begins [b]) (rest : Lossy bs cs) :
      Lossy (b :: bs) (replacement :: cs)

/-- Bytes are decoded to their characters, also after an open sequence. -/
theorem lossy_decodeFrom (bs : List UInt8) :
    Lossy bs (decodeFrom none bs) ∧ ∀ w s, Opened w s → Lossy (w ++ bs) (decodeFrom (some s) bs) := by
  induction bs with
  | nil =>
    refine ⟨.nil, fun w s hs => ?_⟩
    exact .cut hs.nonempty hs.begins hs.encode_ne (by simp) .nil
  | cons b bs ih =>
    obtain ⟨hnone, hsome⟩ := ih
    have hafresh : Lossy (b :: bs) (decodeFrom none (b :: bs)) := by
      rw [decodeFrom_cons]
      rcases first_cases b with ⟨hascii, hfirst⟩ | ⟨hstray, hfirst⟩ | ⟨s, hfirst, hs⟩
      · rw [hfirst, ← List.singleton_append, ← encode_of_ascii hascii]
        exact .char hnone
      · rw [hfirst]
        exact .stray hstray hnone
      · rw [hfirst]
        exact hsome [b] s hs
    refine ⟨hafresh, fun w s hs => ?_⟩
    by_cases hb : s.Takes b
    · rw [decodeFrom]
      by_cases hlast : s.lacking ≤ 1
      · rw [step_last hb hlast, List.append_cons, ← hs.encode_eq hb hlast]
        exact .char hnone
      · rw [step_next hb hlast, List.append_cons]
        exact hsome _ _ (hs.next hb hlast)
    · -- the sequence is cut off before the byte
      rw [decodeFrom, step_afresh hb, List.cons_append, ← decodeFrom_cons]
      refine .cut hs.nonempty hs.begins hs.encode_ne ?_ hafresh
      rintro b' hb'
      obtain rfl : b = b' := Option.some.inj hb'
      exact fun hbegins => hb (hs.takes_iff.mpr hbegins)

/-- Only one text is decoded from bytes. -/
theorem Lossy.eq_decode {bs : List UInt8} {cs : List Char} (h : Lossy bs cs) : cs = decode bs := by
  induction h with
  | nil => rfl
  | char _ ih => rw [decode, decodeFrom_encodeChar, ih, decode]
  | @cut w bs cs nonempty begins unfinished longest _ ih =>
    obtain ⟨s, hs, hdecode⟩ := exists_opened nonempty begins unfinished
    rw [decode, hdecode, ih]
    cases bs with
    | nil => rfl
    | cons b bs =>
      have hb : ¬ s.Takes b := fun hb => longest b rfl (hs.takes_iff.mp hb)
      rw [decodeFrom, step_afresh hb, List.cons_append, ← decodeFrom_cons, decode]
  | @stray b bs cs stray _ ih =>
    rw [decode, decodeFrom_cons, ih]
    rcases first_cases b with ⟨hascii, -⟩ | ⟨-, hfirst⟩ | ⟨s, -, hs⟩
    · rw [← encode_of_ascii hascii] at stray
      exact absurd (begins_encode _) stray
    · rw [hfirst]
      rfl
    · exact absurd hs.begins stray

/-- The characters of bytes are those that they are decoded to, and no others. -/
theorem lossy_iff {bs : List UInt8} {cs : List Char} : Lossy bs cs ↔ cs = decode bs := by
  constructor
  · exact Lossy.eq_decode
  · rintro rfl
    exact (lossy_decodeFrom bs).1

/-! ## Line feeds -/

/-- An open sequence that gives no character below `10`, and that no byte below `80` carries on. -/
structure Sequence.Sound (s : Sequence) : Prop where
  bits : 0x10 ≤ s.bits * 64 + (s.low.toNat - 0x80)
  low : 0x80 ≤ s.low.toNat

/-- Whether the open sequence, if there is one, is sound. -/
def Sound (s : Option Sequence) : Prop :=
  ∀ q ∈ s, q.Sound

theorem sound_none : Sound none := by
  rintro q hq
  cases hq

theorem ofNat_ne_feed {n : Nat} (h : n ≠ 10) : Char.ofNat n ≠ '\n' := by
  intro heq
  unfold Char.ofNat at heq
  split at heq
  · exact h (congrArg Char.toNat heq)
  · exact absurd heq (by decide)

theorem sound_first (b : UInt8) : Sound (first b).2 := by
  have hfirst := first_spec b
  generalize first b = r at hfirst
  rintro q hq
  cases hfirst with
  | ascii _ | stray _ => cases hq
  | two byte =>
    obtain rfl := Option.some.inj hq
    constructor
    · show 0x10 ≤ (b.toNat - 0xC0) * 64 + (0x80 - 0x80)
      omega
    · show 0x80 ≤ (0x80 : UInt8).toNat
      decide
  | three byte lower _ | four byte lower _ =>
    -- if the first byte gives no bits, the second is bounded from below
    obtain rfl := Option.some.inj hq
    constructor <;> simp only [lower] <;> split <;> omega

theorem sound_step {s : Option Sequence} (hs : Sound s) (b : UInt8) : Sound (step s b).2 := by
  cases s with
  | none => exact sound_first b
  | some s =>
    have hbits := (hs s rfl).bits
    have hlow := (hs s rfl).low
    by_cases hb : s.Takes b
    · by_cases hlast : s.lacking ≤ 1
      · rw [step_last hb hlast]
        rintro q hq
        cases hq
      · rw [step_next hb hlast]
        rintro q hq
        obtain rfl := Option.some.inj hq
        have hle := hb.1
        constructor
        · show 0x10 ≤ (s.bits * 64 + (b.toNat - 0x80)) * 64 + (0x80 - 0x80)
          omega
        · show 0x80 ≤ (0x80 : UInt8).toNat
          decide
    · rw [step_afresh hb]
      exact sound_first b

/-- Only the byte of a line feed gives a line feed. -/
theorem feed_of_first {b : UInt8} (h : '\n' ∈ (first b).1) : b = 0x0A := by
  have hfirst := first_spec b
  generalize first b = r at h hfirst
  cases hfirst with
  | ascii _ =>
    rw [List.mem_singleton] at h
    by_contra hb
    exact ofNat_ne_feed (fun hn => hb (UInt8.toNat_inj.mp hn)) h.symm
  | stray _ => exact absurd h (by decide)
  | two _ | three _ _ _ | four _ _ _ => cases h

theorem feed_of_step {s : Option Sequence} {b : UInt8} (hs : Sound s) (h : '\n' ∈ (step s b).1) :
    b = 0x0A := by
  cases s with
  | none => exact feed_of_first h
  | some s =>
    have hbits := (hs s rfl).bits
    have hlow := (hs s rfl).low
    by_cases hb : s.Takes b
    · by_cases hlast : s.lacking ≤ 1
      · -- the last byte of a character: its bits are too many for a line feed
        rw [step_last hb hlast, List.mem_singleton] at h
        have hle := hb.1
        have hne : s.bits * 64 + (b.toNat - 0x80) ≠ 10 := by omega
        exact absurd h.symm (ofNat_ne_feed hne)
      · rw [step_next hb hlast] at h
        cases h
    · rw [step_afresh hb] at h
      rcases List.mem_cons.mp h with h | h
      · exact absurd h (by decide)
      · exact feed_of_first h

/-- The byte of a line feed closes an open sequence. -/
theorem step_feed {s : Option Sequence} (hs : Sound s) :
    ∃ cs, '\n' ∉ cs ∧ step s 0x0A = (cs ++ ['\n'], none) := by
  cases s with
  | none => exact ⟨[], by simp, rfl⟩
  | some s =>
    refine ⟨[replacement], by decide, ?_⟩
    have hout : ¬ s.Takes 0x0A := by
      intro hb
      have hle : s.low.toNat ≤ 10 := hb.1
      have hlow := (hs s rfl).low
      omega
    rw [step_afresh hout]
    rfl

theorem feed_not_mem_decodeFrom {s : Option Sequence} {bs : List UInt8} (hs : Sound s)
    (hbs : 0x0A ∉ bs) : '\n' ∉ decodeFrom s bs := by
  induction bs generalizing s with
  | nil => cases s <;> simp [decodeFrom, replacement]
  | cons b bs ih =>
    rw [List.mem_cons, not_or] at hbs
    rw [decodeFrom, List.mem_append, not_or]
    exact ⟨fun h => hbs.1 (feed_of_step hs h).symm, ih (sound_step hs b) hbs.2⟩

/-- The bytes of a line that is ended give one line feed, as the last character. -/
theorem decodeFrom_line {s : Option Sequence} {bs : List UInt8} (hs : Sound s) (hbs : 0x0A ∉ bs) :
    ∃ cs, '\n' ∉ cs ∧ decodeFrom s (bs ++ [0x0A]) = cs ++ ['\n'] := by
  induction bs generalizing s with
  | nil =>
    obtain ⟨cs, hcs, hstep⟩ := step_feed hs
    exact ⟨cs, hcs, by simp [decodeFrom, hstep]⟩
  | cons b bs ih =>
    rw [List.mem_cons, not_or] at hbs
    obtain ⟨cs, hcs, heq⟩ := ih (sound_step hs b) hbs.2
    refine ⟨(step s b).1 ++ cs, ?_, ?_⟩
    · rw [List.mem_append, not_or]
      exact ⟨fun h => hbs.1 (feed_of_step hs h).symm, hcs⟩
    · rw [List.cons_append, decodeFrom, heq, List.append_assoc]

/-- What comes after the byte of a line feed is decoded on its own. -/
theorem decodeFrom_append_feed {s : Option Sequence} (hs : Sound s) (bs cs : List UInt8) :
    decodeFrom s (bs ++ 0x0A :: cs) = decodeFrom s (bs ++ [0x0A]) ++ decode cs := by
  induction bs generalizing s with
  | nil =>
    obtain ⟨ds, -, hstep⟩ := step_feed hs
    simp [decodeFrom, hstep, decode]
  | cons b bs ih =>
    rw [List.cons_append, List.cons_append, decodeFrom, decodeFrom, ih (sound_step hs b), List.append_assoc]

/-- A byte gives a character or leaves a sequence open. -/
theorem step_ne (s : Option Sequence) (b : UInt8) : step s b ≠ ([], none) := by
  cases s with
  | none =>
    have hfirst := first_spec b
    rintro hstep
    rw [show first b = ([], none) from hstep] at hfirst
    cases hfirst
  | some s =>
    by_cases hb : s.Takes b
    · by_cases hlast : s.lacking ≤ 1
      · simp [step_last hb hlast]
      · simp [step_next hb hlast]
    · simp [step_afresh hb]

/-- Only no bytes at all are decoded to nothing. -/
theorem decodeFrom_eq_nil_iff {s : Option Sequence} {bs : List UInt8} :
    decodeFrom s bs = [] ↔ s = none ∧ bs = [] := by
  induction bs generalizing s with
  | nil => cases s <;> simp [decodeFrom]
  | cons b bs ih =>
    rw [decodeFrom, List.append_eq_nil_iff, ih]
    refine iff_of_false ?_ (by simp)
    rintro ⟨hchars, hnone, -⟩
    exact step_ne s b (Prod.ext hchars hnone)

end Utf8

end MiniLex
