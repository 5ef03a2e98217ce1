import MiniLex.Text.Utf8

/-!
# Reading a source by lines

A source is read one line at a time, from whatever delivers its bytes: the bytes may arrive in
pieces of any size, a read may be interrupted or fail, and the end may be met early.

- `ReadEvent`, `Opened`: one thing that happens while bytes are asked for, and what opening a source
  comes to.
- `LineRead`: one attempt to read a line, as the scanner sees it: the text of a line, or a failure.
- `LineRead.ofEvents`, `LineRead.ofText`: the line reads of a source of bytes, and of a text.
-/

namespace MiniLex

/-- One thing that happens while bytes are asked for. -/
inductive ReadEvent where
  /-- Some bytes become available. -/
  | chunk (bytes : List UInt8)
  /-- The read is interrupted; it is tried again at once. -/
  | interrupted
  /-- The read fails. -/
  | failed (message : String)
  /-- The source says that it has no more bytes. -/
  | ended
deriving DecidableEq

/-- What opening a source comes to: the reason why it cannot be opened, or what happens when bytes
are then asked for. -/
abbrev Opened := Except String (List ReadEvent)

/-! ## Lines -/

/-- The complete lines of a sequence, each with the feed that ends it, and what follows the last
feed. -/
def splitLines {α : Type} [DecidableEq α] (feed : α) : List α → List (List α) × List α
  | [] => ([], [])
  | a :: as =>
    let (lines, last) := splitLines feed as
    if a = feed then ([a] :: lines, last)
    else
      match lines with
      | [] => ([], a :: last)
      | line :: lines => ((a :: line) :: lines, last)

/-- The text of a line: without the line feed that ends it, and without one carriage return directly
before that. A line that no feed ends keeps all its characters. -/
def lineText : List Char → List Char
  | [] => []
  | ['\n'] => []
  | ['\r', '\n'] => []
  | c :: cs => c :: lineText cs

/-! ## Line reads -/

/-- One attempt to read a line. -/
inductive LineRead where
  /-- A line was read; its text does not show how it was ended. -/
  | line (text : List Char)
  /-- The attempt failed, and what it had read of a line is lost. -/
  | failed (message : String)
deriving DecidableEq

namespace LineRead

/-- The line read of the bytes of one line. -/
def ofBytes (bytes : List UInt8) : LineRead :=
  .line (lineText (Utf8.decode bytes))

/-- The line reads of a source of which some bytes of a line are `held` already. An end within a
line ends that line only; an end between lines is the end of the source. -/
def ofHeld (held : List UInt8) : List ReadEvent → List LineRead
  | [] => if held = [] then [] else [ofBytes held]
  | .chunk bytes :: events =>
    let (lines, last) := splitLines 0x0A (held ++ bytes)
    lines.map ofBytes ++ ofHeld last events
  | .interrupted :: events => ofHeld held events
  | .failed message :: events => .failed message :: ofHeld [] events
  | .ended :: events => if held = [] then [] else ofBytes held :: ofHeld [] events

/-- The line reads of a source, up to its end. -/
def ofEvents (events : List ReadEvent) : List LineRead :=
  ofHeld [] events

/-- The line reads of a text. -/
def ofText (text : List Char) : List LineRead :=
  let (lines, last) := splitLines '\n' text
  lines.map (fun line => .line (lineText line)) ++ if last = [] then [] else [.line (lineText last)]

/-- The part of the character stream that a line read delivers: the text of the line and one line
feed, however the line was ended. -/
def stream : LineRead → List Char
  | .line text => text ++ ['\n']
  | .failed _ => []

end LineRead

end MiniLex
