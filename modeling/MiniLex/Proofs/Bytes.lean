import MiniLex.Proofs.Segmentation

/-!
# Sources of bytes

A source of bytes is scanned as the text that its bytes are decoded to, however the bytes arrive.
Lines are decoded one by one, which makes no difference: the byte of a line feed is never part of a
longer encoding, and it cuts off one that is not finished.

- `Delivers events b`: the bytes `b` arrive, in pieces of any size, and nothing fails.
- `LineRead.ofHeld_of_delivers`: the pieces make no difference to the lines.
- `splitLines_decode`: lines of bytes are decoded to the lines of the text.

Main statement: `tokenize_decode`.
-/

namespace MiniLex

/-- What happens while bytes are asked for gives the bytes `b`: no read fails, and the end is met only
after the last byte. -/
inductive Delivers : List ReadEvent → List UInt8 → Prop where
  | nil : Delivers [] []
  | chunk {bytes b : List UInt8} {events : List ReadEvent} (rest : Delivers events b) :
      Delivers (.chunk bytes :: events) (bytes ++ b)
  | interrupted {b : List UInt8} {events : List ReadEvent} (rest : Delivers events b) :
      Delivers (.interrupted :: events) b
  | ended {events : List ReadEvent} (rest : Delivers events []) : Delivers (.ended :: events) []

namespace LineRead

/-- The line reads of bytes that arrive in one piece. -/
theorem ofEvents_chunk (b : List UInt8) :
    ofEvents [.chunk b] =
      (splitLines 0x0A b).1.map ofBytes ++
        if (splitLines 0x0A b).2 = [] then [] else [ofBytes (splitLines 0x0A b).2] :=
  rfl

/-- Bytes that arrive in pieces are read as those that arrive in one. What is held of a line belongs to
the piece that comes next. -/
theorem ofHeld_of_delivers {events : List ReadEvent} {b : List UInt8} (h : Delivers events b)
    {held : List UInt8} (hheld : 0x0A ∉ held) : ofHeld held events = ofEvents [.chunk (held ++ b)] := by
  induction h generalizing held with
  | nil =>
    rw [List.append_nil, ofEvents_chunk, splitLines_of_not_mem hheld]
    rfl
  | @chunk bytes b events _ ih =>
    obtain ⟨-, hlast, -⟩ := splitLines_spec 0x0A (held ++ bytes)
    have hchunk : ofHeld held (.chunk bytes :: events) =
        (splitLines 0x0A (held ++ bytes)).1.map ofBytes ++ ofHeld (splitLines 0x0A (held ++ bytes)).2 events :=
      rfl
    rw [hchunk, ih hlast, ofEvents_chunk, ← List.append_assoc held, ofEvents_chunk,
      splitLines_append 0x0A (held ++ bytes) b, List.map_append, List.append_assoc]
  | interrupted _ ih => exact ih hheld
  | @ended events _ ih =>
    have hnone : ofHeld [] events = [] := ih List.not_mem_nil
    rw [List.append_nil, ofEvents_chunk, splitLines_of_not_mem hheld, ofHeld, hnone]
    rfl

end LineRead

/-! ## Decoding line by line -/

theorem decode_flatten {lines : List (List UInt8)} (last : List UInt8)
    (hlines : ∀ line ∈ lines, ∃ body, 0x0A ∉ body ∧ line = body ++ [0x0A]) :
    Utf8.decode (lines.flatten ++ last) = (lines.map Utf8.decode).flatten ++ Utf8.decode last := by
  induction lines with
  | nil => rfl
  | cons line lines ih =>
    obtain ⟨body, -, rfl⟩ := hlines line (List.mem_cons_self ..)
    have htail := ih fun line hline => hlines line (List.mem_cons_of_mem _ hline)
    rw [flatten_line_append, Utf8.decode, Utf8.decodeFrom_append_feed Utf8.sound_none, htail]
    simp [Utf8.decode]

/-- Lines of bytes are decoded to the lines of the text. -/
theorem splitLines_decode (b : List UInt8) :
    splitLines '\n' (Utf8.decode b) =
      ((splitLines 0x0A b).1.map Utf8.decode, Utf8.decode (splitLines 0x0A b).2) := by
  obtain ⟨hflatten, hlast, hlines⟩ := splitLines_spec 0x0A b
  conv_lhs => rw [← hflatten, decode_flatten _ hlines]
  refine splitLines_flatten ?_ (Utf8.feed_not_mem_decodeFrom Utf8.sound_none hlast)
  intro line hline
  obtain ⟨bytes, hbytes, rfl⟩ := List.mem_map.mp hline
  obtain ⟨body, hbody, rfl⟩ := hlines bytes hbytes
  exact Utf8.decodeFrom_line Utf8.sound_none hbody

/-- Bytes are read as the text that they are decoded to. -/
theorem LineRead.ofEvents_of_delivers {events : List ReadEvent} {b : List UInt8} (h : Delivers events b) :
    ofEvents events = ofText (Utf8.decode b) := by
  have hnil : Utf8.decode (splitLines 0x0A b).2 = [] ↔ (splitLines 0x0A b).2 = [] := by
    rw [Utf8.decode, Utf8.decodeFrom_eq_nil_iff, eq_self, true_and]
  rw [ofEvents, ofHeld_of_delivers h List.not_mem_nil, List.nil_append, ofEvents_chunk, ofText,
    splitLines_decode]
  simp only [hnil, List.map_map]
  rfl

/-! ## Scanning -/

/-- A source that delivers bytes is scanned as the text that the bytes are decoded to, which is what the
bytes stand for; a text is scanned as its bytes. -/
theorem tokenize_decode {events : List ReadEvent} {b : List UInt8} (h : Delivers events b) :
    (∀ text, Utf8.Lossy b text ↔ text = Utf8.decode b) ∧
      (∃ scanner, Scanner.ofReads (LineRead.ofEvents events) = .ok scanner ∧
        Tokenized.ofReplies scanner.drain.1 = tokenize (Utf8.decode b)) ∧
          ∀ text, tokenize text = tokenizeReads (LineRead.ofEvents [.chunk (Utf8.encode text)]) := by
  refine ⟨fun text => Utf8.lossy_iff, ?_, fun text => ?_⟩
  · obtain ⟨c, hc, -, -⟩ := exists_first (Utf8.decode b)
    refine ⟨⟨c, false⟩, by rw [LineRead.ofEvents_of_delivers h, Scanner.ofReads, hc], ?_⟩
    rw [Scanner.ofReplies_drain, tokenize, tokenizeReads_of_ok hc]
  · have hchunk : Delivers [.chunk (Utf8.encode text)] (Utf8.encode text ++ []) := .chunk .nil
    rw [LineRead.ofEvents_of_delivers hchunk, List.append_nil, Utf8.decode_encode, tokenize]

/-- An encoding and a line end are cut in two, a read is interrupted, and a line feed comes before the
last byte of an encoding. -/
theorem tokenize_decode_in_pieces :
    let events : List ReadEvent :=
      [.chunk [0x2F, 0x2F, 0xC3], .interrupted, .chunk [0xA9, 0x0D], .chunk [0x0A, 0xE2, 0x82],
        .chunk [0x0A, 0x78], .ended]
    let b : List UInt8 := [0x2F, 0x2F, 0xC3, 0xA9, 0x0D, 0x0A, 0xE2, 0x82, 0x0A, 0x78]
    let text : List Char := ['/', '/', 'é', '\r', '\n', '\uFFFD', '\n', 'x']
    Delivers events b ∧ Utf8.Lossy b text ∧
      (∃ scanner, Scanner.ofReads (LineRead.ofEvents events) = .ok scanner ∧
        Tokenized.ofReplies scanner.drain.1 = tokenize text) ∧
          tokenize text = tokenizeReads (LineRead.ofEvents [.chunk (Utf8.encode text)]) := by
  intro events b text
  have hb : Delivers events b :=
    .chunk (.interrupted (.chunk (.chunk (.chunk (.ended .nil)))))
  have htext : text = Utf8.decode b := by decide
  obtain ⟨hlossy, hdrain, hencode⟩ := tokenize_decode hb
  rw [← htext] at hdrain
  exact ⟨hb, (hlossy text).mpr htext, hdrain, hencode text⟩

end MiniLex
