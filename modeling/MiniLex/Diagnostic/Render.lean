import MiniLex.Diagnostic.Basic
import MiniLex.Text.Blank

/-!
# Rendered diagnostics

A diagnostic is rendered as a header, the file, and, where it has a place, the line it was met on
with a caret under the character at fault:

    Error: IllegalCharacter: illegal character '@'
    -> prog.c
       |
    20 | int a = @;
       | --------^

The line is shown without its indentation, and the caret moves left with it.

- `Diagnostic.render`: the rendering. Its last line is not ended.
-/

namespace MiniLex

/-- A character of an indentation. -/
def isIndent (c : Char) : Bool :=
  c == ' ' || c == '\t'

/-- A string of `n` equal characters. -/
def repeated (n : Nat) (c : Char) : String :=
  String.ofList (List.replicate n c)

namespace Diagnostic

/-- What went wrong, under the name of the cause, with the tip in parentheses if there is one. -/
def header (d : Diagnostic) : String :=
  let sentence := "Error: " ++ d.cause.name ++ ": " ++ d.cause.message
  match d.cause.tip? with
  | none => sentence
  | some tip => sentence ++ " (" ++ tip ++ ")"

/-- The number of characters by which the line at fault is indented. -/
def indentation (d : Diagnostic) : Nat :=
  (d.sourceLine.toList.takeWhile isIndent).length

/-- The line at fault as it is shown: without its indentation and the white space at its end. -/
def shownLine (d : Diagnostic) : List Char :=
  trimEnd (d.sourceLine.toList.dropWhile isIndent)

/-- The number of dashes before the caret. A column inside the indentation leaves none. -/
def caretOffset (d : Diagnostic) : Nat :=
  d.position.column - d.indentation - 1

/-- The rendering of a diagnostic of the named file. Only the header and the file are shown of a
diagnostic without a place. -/
def render (d : Diagnostic) (file : String) : String :=
  let heading := d.header ++ "\n-> " ++ file ++ "\n"
  if d.position.line = 0 then heading
  else
    let number := toString d.position.line
    let gutter := repeated (number.length + 1) ' ' ++ "|"
    heading
      ++ gutter ++ "\n"
      ++ number ++ " | " ++ String.ofList d.shownLine ++ "\n"
      ++ gutter ++ " " ++ repeated d.caretOffset '-' ++ "^"

end Diagnostic

end MiniLex
