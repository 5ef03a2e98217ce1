/-!
# Log records

The program can tell what it does in log lines.

- `Log.Level`, `Log.Origin`: how much a record matters, and which part of the program it is from.
- `Log.Record`, `Log.Record.line`: a record, and the line under which it is shown.
-/

namespace MiniLex

namespace Log

/-- How much a record matters, in descending order. -/
inductive Level where
  | error | warn | info | debug | trace
deriving DecidableEq

namespace Level

/-- The level as it is shown. -/
def name : Level → String
  | .error => "ERROR"
  | .warn => "WARN"
  | .info => "INFO"
  | .debug => "DEBUG"
  | .trace => "TRACE"

/-- The number of the level; a filter that lets through `n` levels lets through those up to `n`. -/
def number : Level → Nat
  | .error => 1
  | .warn => 2
  | .info => 3
  | .debug => 4
  | .trace => 5

end Level

/-- The part of the program that a record is from. -/
inductive Origin where
  | program | scanner | source | diagnostics
deriving DecidableEq

/-- The name by which directives refer to a part of the program. -/
def Origin.target : Origin → String
  | .program => "cscan"
  | .scanner => "cscan::lexer::lexer"
  | .source => "cscan::lexer::source"
  | .diagnostics => "cscan::errors::errors"

/-- A message with named values. -/
structure Record where
  level : Level
  origin : Origin
  message : String
  fields : List (String × String)
deriving DecidableEq

namespace Record

/-- The line under which the record is shown, without its line feed. -/
def line (r : Record) : String :=
  r.fields.foldl (fun text field => text ++ " " ++ field.1 ++ "=" ++ field.2)
    (r.level.name ++ " " ++ r.origin.target ++ ": " ++ r.message)

/-- Whether the record has a value of a name. The message counts as a value. -/
def hasField (r : Record) (name : String) : Bool :=
  name = "message" ∨ (r.fields.lookup name).isSome

end Record

end Log

end MiniLex
