import MiniLex.Text.Quoted

/-!
# Diagnostics

What can go wrong while a source is read and scanned, where, and how it is put into words.

- `Cause`: the six causes, with their names, messages and tips.
- `Diagnostic`: a cause with the place it was met at and the line it was met on.
- `Diagnostic.isFatal`: whether the call that met the cause can go on.
-/

namespace MiniLex

/-- A place in a source. Lines and columns count from one; line zero stands for no place at all. -/
structure Position where
  line : Nat
  column : Nat
deriving DecidableEq

namespace Position

/-- No place in any source. -/
def nowhere : Position := ⟨0, 0⟩

end Position

/-! ## Causes -/

/-- What went wrong. A missing `found` is the end of the source. -/
inductive Cause where
  /-- A character that begins no token. -/
  | illegalCharacter (ch : Char)
  /-- One character had to come, and another came. -/
  | expectedCharacter (expected : Char) (found : Option Char)
  /-- An exponent without digits. -/
  | malformedExponent (found : Option Char)
  /-- A character was asked for after the end of the source. -/
  | readPastEnd
  /-- The source could not be opened. -/
  | sourceNotFound (path : String)
  /-- Reading from the source failed. -/
  | readFailed (message : String)
deriving DecidableEq

namespace Cause

/-- Whether the cause ends the call that meets it. The others are reported and recovered from. -/
def isFatal : Cause → Bool
  | .illegalCharacter _ | .expectedCharacter _ _ | .malformedExponent _ => false
  | .readPastEnd | .sourceNotFound _ | .readFailed _ => true

/-- The name of the cause. -/
def name : Cause → String
  | .illegalCharacter _ => "IllegalCharacter"
  | .expectedCharacter _ _ => "ExpectedCharacter"
  | .malformedExponent _ => "MalformedExponent"
  | .readPastEnd => "ReadPastEof"
  | .sourceNotFound _ => "SourceNotFound"
  | .readFailed _ => "Io"

/-- The cause in words. -/
def message : Cause → String
  | .illegalCharacter ch => "illegal character " ++ quoted ch
  | .expectedCharacter expected _ => "illegal character, expecting " ++ quoted expected
  | .malformedExponent _ => "illegal character, expecting +, -, digits"
  | .readPastEnd => "attempt to read past end of file"
  | .sourceNotFound path => "file not found: " ++ path
  | .readFailed message => "error reading source: " ++ message

/-- What was found, as tips put it. -/
def describe : Option Char → String
  | none => "end of file"
  | some '\n' => "end of line"
  | some ch => "`" ++ ch.toString ++ "`"

/-- A hint for whoever has to mend the source, where there is one. -/
def tip? : Cause → Option String
  | .illegalCharacter _ => none
  | .expectedCharacter expected found =>
    some ("Expected `" ++ expected.toString ++ "`, found " ++ describe found)
  | .malformedExponent found =>
    some ("Exponent needs `+`, `-` or a digit, found " ++ describe found)
  | .readPastEnd => some "Is a comment or literal left unterminated?"
  | .sourceNotFound path => some ("File not found: " ++ path)
  | .readFailed _ => none

end Cause

/-! ## Diagnostics -/

/-- A cause, the place of the character it was met at, and the text of the line it was met on. -/
structure Diagnostic where
  cause : Cause
  position : Position
  sourceLine : String
deriving DecidableEq

namespace Diagnostic

/-- Whether the diagnostic ends the call that meets it. -/
def isFatal (d : Diagnostic) : Bool :=
  d.cause.isFatal

/-- The diagnostic on one line: its place, then its cause in words. -/
def display (d : Diagnostic) : String :=
  toString d.position.line ++ ":" ++ toString d.position.column ++ ": " ++ d.cause.message

end Diagnostic

end MiniLex
