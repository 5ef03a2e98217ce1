import MiniLex.Diagnostic.Basic

/-!
# Sinks

Where the diagnostics go that a scan reports and recovers from.

- `Sink`: the three kinds of sink, each with what it has received so far.
- `Sink.report`: a sink after one more diagnostic.
- `Sink.count?`, `Sink.collected`: what a sink knows of the diagnostics it received.
-/

namespace MiniLex

/-- A receiver of diagnostics. -/
inductive Sink where
  /-- Keeps every diagnostic, in the order of arrival. -/
  | collecting (received : List Diagnostic)
  /-- Discards every diagnostic. -/
  | silent
  /-- Has every diagnostic shown at once, under the name of the file, and counts them. -/
  | console (file : String) (count : Nat)
deriving DecidableEq

namespace Sink

/-- The sink after one more diagnostic. -/
def report : Sink → Diagnostic → Sink
  | .collecting received, d => .collecting (received ++ [d])
  | .silent, _ => .silent
  | .console file count, _ => .console file (count + 1)

/-- The sink after several diagnostics. -/
def reportAll (s : Sink) (ds : List Diagnostic) : Sink :=
  ds.foldl report s

/-- The number of diagnostics received, if the sink keeps count of it. -/
def count? : Sink → Option Nat
  | .collecting received => some received.length
  | .silent => none
  | .console _ count => some count

/-- The diagnostics that the sink has kept. -/
def collected : Sink → List Diagnostic
  | .collecting received => received
  | _ => []

end Sink

end MiniLex
