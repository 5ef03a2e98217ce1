import MiniLex.Log.Record
import MiniLex.Text.Alphanumeric
import MiniLex.Text.Blank

/-!
# Directives of the log

A directive says down to which level the records of a part of the program are shown. It is written
`level`, `target` or `target=level`. A condition in brackets may follow the target or stand in its
place: `[span]`, `[{field}]`, and with a value `[{field=value}]`.

- `Log.Directive`: a directive, and whether it `speaksOf` a record.
- `Log.Directive.Fault`: why a text is no directive.
- `Log.Directive.ofText`: the directive that a text gives.
-/

namespace MiniLex

namespace Log

/-- What a directive asks of a record besides its target. -/
inductive Condition where
  | anything
  /-- The record has a value of this name. -/
  | field (name : String)
  /-- The record is inside of a span that is told by its name or its values. No record of this
  program is inside of a span. -/
  | insideSpan
deriving DecidableEq

namespace Condition

/-- Whether a record meets the condition. -/
def holds (r : Record) : Condition → Bool
  | .anything => true
  | .field name => r.hasField name
  | .insideSpan => false

/-- Whether the condition yields to another of them, if both hold: any other asks for more than
`anything`, and of two names of values the later one goes first. -/
def yieldsTo : Condition → Condition → Bool
  | .anything, other => other ≠ .anything
  | .field name, .field other => name < other
  | _, _ => false

end Condition

/-- A directive lets through the given number of levels of the records from targets that begin with
a name, as far as they meet its condition. -/
structure Directive where
  target : String
  condition : Condition
  levels : Nat
deriving DecidableEq

namespace Directive

/-- Whether the directive speaks of a record. -/
def speaksOf (d : Directive) (r : Record) : Bool :=
  d.target.toList.isPrefixOf r.origin.target.toList && d.condition.holds r

/-- Whether the directive yields to another that speaks of the same record: the longer target goes
first, and then the condition decides. -/
def yieldsTo (d other : Directive) : Bool :=
  d.target.length < other.target.length
    || (d.target.length = other.target.length && d.condition.yieldsTo other.condition)

/-! ## Levels -/

/-- The number that a text of decimal digits gives, with a plus sign before them or not. -/
def number? (cs : List Char) : Option Nat :=
  let digits := match cs with
    | '+' :: rest => rest
    | _ => cs
  if digits = [] ∨ ¬digits.all Char.isDigit then none
  else some (digits.foldl (fun n d => n * 10 + (d.toNat - '0'.toNat)) 0)

/-- The number of levels that a text lets through, if it names one. Letter case does not matter. -/
def levels? (cs : List Char) : Option Nat :=
  match number? cs with
  | some n => if n ≤ Level.trace.number then some n else none
  | none =>
    match (String.ofList cs).toLower with
    | "off" => some 0
    | "error" => some Level.error.number
    | "warn" => some Level.warn.number
    | "info" => some Level.info.number
    | "debug" => some Level.debug.number
    | "trace" => some Level.trace.number
    | _ => none

/-! ## Reading a directive -/

/-- Why a text is no directive. -/
inductive Fault where
  /-- It does not have the form of one. -/
  | malformed
  /-- What stands after the equals sign is no level. -/
  | unknownLevel
deriving DecidableEq

/-- The fault in words. -/
def Fault.message : Fault → String
  | .malformed => "invalid filter directive"
  | .unknownLevel =>
    "error parsing level filter: expected one of \"off\", \"error\", \"warn\", \"info\", "
      ++ "\"debug\", \"trace\", or a number 0-5"

/-- What is left to be read. The form is what decides where a part ends, and leaves out the white
space around the whole; the parts are cut out of the text at the same distance from its beginning.
So white space in front moves every part. -/
structure Unread where
  form : List Char
  text : List Char
deriving DecidableEq

namespace Unread

/-- What is left after the next character. -/
def tail (u : Unread) : Unread :=
  ⟨u.form.tail, u.text.tail⟩

/-- The part that ends before the first of some characters or at the end, with that character if
there is one, and what is left after it. -/
def part (stops : List Char) (u : Unread) : List Char × Option Char × Unread :=
  let n := (u.form.takeWhile fun c => !stops.contains c).length
  (u.text.take n, u.form[n]?, ⟨u.form.drop (n + 1), u.text.drop (n + 1)⟩)

/-- The number of levels after the equals sign; all, if nothing is there. -/
def levels (u : Unread) : Except Fault Nat :=
  match u.text, levels? u.text with
  | [], _ => .ok Level.trace.number
  | _, some n => .ok n
  | _, none => .error .unknownLevel

/-- The directive of this target and condition, after the bracket that closes the condition. -/
def afterCondition (target : List Char) (condition : Condition) (u : Unread) :
    Except Fault Directive :=
  match u.form with
  | [] => .ok ⟨String.ofList target, condition, Level.trace.number⟩
  | '=' :: _ => u.tail.levels.map (⟨String.ofList target, condition, ·⟩)
  | _ => .error .malformed

/-- The directive of this target, after the bracket that opens its condition. -/
def inCondition (target : List Char) (u : Unread) : Except Fault Directive :=
  match u.part ['{', ']'] with
  | (_, none, _) => .error .malformed
  | (_, some ']', u) => u.afterCondition target .insideSpan
  | (span, some _, u) =>
    match u.part ['}'] with
    | ([], _, _) | (_, none, _) => .error .malformed
    | (field, some _, u) =>
      if u.form.head? = some ']' then
        u.tail.afterCondition target
          (if span = [] ∧ '=' ∉ field then .field (String.ofList field) else .insideSpan)
      else .error .malformed

end Unread

/-- Whether a target may begin with a character. -/
def beginsTarget (c : Char) : Bool :=
  isAlphanumeric c || c = '-' || c = ':' || c = '_'

/-- The directive that a text gives. A text that is no level by itself is a target, all levels of
which are let through. -/
def ofText (text : List Char) : Except Fault Directive :=
  let unread : Unread := ⟨trim text, text⟩
  match unread.form with
  | [] => .error .malformed
  | '[' :: _ => unread.tail.inCondition []
  | c :: _ =>
    if beginsTarget c then
      match unread.part ['=', '['] with
      | (target, some '=', u) => u.levels.map (⟨String.ofList target, .anything, ·⟩)
      | (target, some _, u) => u.inCondition target
      | (_, none, _) =>
        .ok (match levels? text with
          | some n => ⟨"", .anything, n⟩
          | none => ⟨String.ofList text, .anything, Level.trace.number⟩)
    else .error .malformed

end Directive

end Log

end MiniLex
