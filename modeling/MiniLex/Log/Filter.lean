import MiniLex.Log.Directive
import MiniLex.Text.Parts

/-!
# Filters of the log

A filter decides which records of the log are shown. Its directives come from a text, in which they
have commas between them.

- `Log.Filter`, `Log.Filter.shows`: which records are shown, by the most specific directive.
- `Log.Settings`: the filter of an environment, and what is passed over in its text.
-/

namespace MiniLex

namespace Log

/-- A filter is a list of directives. -/
structure Filter where
  directives : List Directive
deriving DecidableEq

namespace Filter

/-- The filter that shows errors and warnings. -/
def warnings : Filter :=
  ⟨[⟨"", .anything, Level.warn.number⟩]⟩

/-- The most specific of the directives that speak of a record; of equals the last. -/
def mostSpecific (r : Record) : List Directive → Option Directive
  | [] => none
  | d :: ds =>
    match mostSpecific r ds with
    | none => if d.speaksOf r then some d else none
    | some e => if d.speaksOf r && e.yieldsTo d then some d else some e

/-- Whether a record is shown. A record that no directive speaks of is not. -/
def shows (f : Filter) (r : Record) : Bool :=
  match mostSpecific r f.directives with
  | none => false
  | some d => r.level.number ≤ d.levels

/-- The pieces of a filter's text that are to be directives. Empty ones are not. -/
def pieces (text : String) : List (List Char) :=
  (parts ',' text.toList).filter (· ≠ [])

/-- The filter that a text gives if every piece of it is a directive. -/
def ofText? (text : String) : Option Filter :=
  ((pieces text).mapM fun piece => (Directive.ofText piece).toOption).map Filter.mk

end Filter

/-! ## Settings -/

/-- A piece of a filter's text that is passed over, and why. -/
structure Ignored where
  piece : String
  fault : Directive.Fault
deriving DecidableEq

/-- The line that tells of the piece, without its line feed. -/
def Ignored.line (i : Ignored) : String :=
  "ignoring `" ++ i.piece ++ "`: " ++ i.fault.message

/-- How the log is set up. -/
structure Settings where
  filter : Filter
  ignored : List Ignored
deriving DecidableEq

namespace Settings

/-- The settings that a text gives: its pieces are directives or passed over. -/
def ofText (text : String) : Settings :=
  let read := (Filter.pieces text).map fun piece => (piece, Directive.ofText piece)
  ⟨⟨read.filterMap fun r => r.2.toOption⟩,
    read.filterMap fun r =>
      match r.2 with
      | .ok _ => none
      | .error fault => some ⟨String.ofList r.1, fault⟩⟩

/-- The settings of an environment in which two variables may hold a text. The program's own
variable goes first, and faulty pieces of it are passed over. The one that it shares with other
programs is taken as a whole or not at all. Without either, warnings are shown. -/
def ofEnvironment (own shared : Option String) : Settings :=
  match own with
  | some text => ofText text
  | none => ⟨(shared.bind Filter.ofText?).getD .warnings, []⟩

end Settings

end Log

end MiniLex
