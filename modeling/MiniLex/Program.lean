import MiniLex.CommandLine
import MiniLex.Diagnostic.Render
import MiniLex.Log.Filter
import MiniLex.Session

/-!
# The program

The program scans a file, prints its tokens, and renders what goes wrong for whoever has to mend
the file. Here it is a function from what it is asked to do, and from what opening the file comes
to, to what it writes and its exit status.

- `Output`, `Run`: what the program writes, in order, and the status it ends with.
- `Program.loop`, `Program.scan`: scanning a file, token by token.
- `Program.perform`: any request.
- `Program.run`: the log is set up before that.
-/

namespace MiniLex

/-- One piece of text that the program writes. -/
inductive Output where
  /-- Text for the standard output. -/
  | out (text : String)
  /-- Text for the standard error. -/
  | err (text : String)
  /-- A line of the log, for the standard error too. -/
  | log (record : Log.Record)
  /-- A complaint about the settings of the log, for the standard error too. -/
  | complaint (ignored : Log.Ignored)
deriving DecidableEq

namespace Output

/-- What the piece adds to the standard output. -/
def stdout : Output → String
  | .out text => text
  | .err _ | .log _ | .complaint _ => ""

/-- What the piece adds to the standard error. -/
def stderr : Output → String
  | .out _ => ""
  | .err text => text
  | .log record => record.line ++ "\n"
  | .complaint ignored => ignored.line ++ "\n"

end Output

/-- What a run of the program writes, in order, and the status it ends with. -/
structure Run where
  outputs : List Output
  status : Nat
deriving DecidableEq

namespace Run

/-- All that the run writes to the standard output. -/
def stdout (r : Run) : String :=
  String.join (r.outputs.map Output.stdout)

/-- All that the run writes to the standard error. -/
def stderr (r : Run) : String :=
  String.join (r.outputs.map Output.stderr)

end Run

namespace Program

/-! ## Statuses and texts -/

/-- All went well. -/
def success : Nat := 0

/-- The file could not be scanned to its end, or a diagnostic counts as failure. -/
def failure : Nat := 1

/-- The arguments ask for nothing that can be done. -/
def misuse : Nat := 2

/-- The name and the version of the program. -/
def version : String := "cscan 0.1.0\n"

/-- What the program does, and its arguments. -/
def help : String :=
  "Scan a C-subset source file and print its tokens\n\n"
    ++ "Usage: cscan [OPTIONS] <FILE>\n\n"
    ++ "Arguments:\n"
    ++ "  <FILE>  Source file to scan\n\n"
    ++ "Options:\n"
    ++ "      --fail-on-error  Exit with a non-zero status if any scan error was reported\n"
    ++ "  -q, --quiet          Only report diagnostics, do not print tokens\n"
    ++ "  -h, --help           Print help\n"
    ++ "  -V, --version        Print version\n"

/-- How the program is called. -/
def usage : String :=
  "\n\nUsage: cscan [OPTIONS] <FILE>\n\nFor more information, try '--help'.\n"

/-! ## Pieces of output -/

/-- A line of the log, if the filter lets it through. -/
def log (filter : Log.Filter) (record : Log.Record) : List Output :=
  if filter.shows record then [.log record] else []

/-- A rendered diagnostic. -/
def rendered (file : String) (d : Diagnostic) : Output :=
  .err (d.render file ++ "\n")

/-- What is written when a diagnostic is reported: it is logged where it is met and where it is
received, and rendered. -/
def report (filter : Log.Filter) (file : String) (d : Diagnostic) : List Output :=
  log filter ⟨.debug, .scanner, "scan error", [("error", d.display)]⟩
    ++ log filter ⟨.debug, .diagnostics, d.cause.message,
      [("line", toString d.position.line), ("column", toString d.position.column)]⟩
    ++ [rendered file d]

/-- What is written of a note. -/
def note (filter : Log.Filter) (file : String) : Note → List Output
  | .reported d => report filter file d
  | .comment firstLine lastLine =>
    log filter ⟨.trace, .scanner, "skipped block comment",
      [("from", toString firstLine), ("to", toString lastLine)]⟩
  | .exhausted lines =>
    log filter ⟨.debug, .source, "source exhausted", [("lines", toString lines)]⟩
  | .token line t =>
    log filter ⟨.trace, .scanner, "token", [("line", toString line), ("token", t.display)]⟩

/-- What is written of a token. -/
def printed (settings : CommandLine.Settings) (t : Token) : List Output :=
  if settings.quiet then [] else [.out (t.display ++ "\n")]

/-- What is written of a failure that ends the scan: it is logged and rendered. -/
def aborted (filter : Log.Filter) (file : String) (d : Diagnostic) : List Output :=
  log filter ⟨.error, .program, "scan aborted", [("error", d.display)]⟩ ++ [rendered file d]

/-! ## Scanning a file -/

/-- What is written of opening a file, before anything is read from it. -/
def opening (filter : Log.Filter) (file : String) : Opened → List Output
  | .error reason => log filter ⟨.debug, .scanner, "failed to open source", [("error", reason)]⟩
  | .ok _ => log filter ⟨.info, .scanner, "begin scanning", [("path", file)]⟩

/-- The end of a run that came to the end of the source, after so many tokens and diagnostics. -/
def ending (filter : Log.Filter) (settings : CommandLine.Settings) (tokens reported : Nat) : Run :=
  ⟨log filter ⟨.debug, .program, "scan finished",
      [("tokens", toString tokens), ("errors", toString reported)]⟩,
    if settings.failOnError ∧ 0 < reported then failure else success⟩

/-- Calls for the next token until the end of the source or a failure, after so many `tokens`. What is
reported on the way is rendered at once, and the sink counts it. -/
def loop (filter : Log.Filter) (settings : CommandLine.Settings) (s : Session) (tokens : Nat) : Run :=
  let reply := s.scanner.nextToken.1
  let scanner := s.scanner.nextToken.2
  let sink := s.sink.reportAll reply.reported
  let noted := reply.notes.flatMap (note filter settings.file)
  match h : s.scanner.cursor.scan.answer with
  | .error d => ⟨noted ++ aborted filter settings.file d, failure⟩
  | .ok t =>
    if ht : t.isEof = true then
      let last := ending filter settings tokens (sink.count?.getD 0)
      { last with outputs := noted ++ last.outputs }
    else
      have : scanner.cursor.stream.length < s.scanner.cursor.stream.length :=
        Cursor.length_stream_scan h (by simpa using ht)
      let later := loop filter settings ⟨scanner, sink⟩ (tokens + 1)
      { later with outputs := noted ++ printed settings t ++ later.outputs }
termination_by s.scanner.cursor.stream.length

/-- Scans a file, given what opening it comes to. -/
def scan (filter : Log.Filter) (settings : CommandLine.Settings)
    (opened : Opened) : Run :=
  let before := opening filter settings.file opened
  match Scanner.ofOpened settings.file opened with
  | .error d => ⟨before ++ [rendered settings.file d], failure⟩
  | .ok s =>
    let run := loop filter settings ⟨s, .console settings.file 0⟩ 0
    { run with
      outputs := before ++ s.openingNotes.flatMap (note filter settings.file) ++ run.outputs }

/-! ## Requests -/

/-- Does what the arguments ask for. `opened` tells what opening a path comes to. -/
def perform (filter : Log.Filter) (opened : String → Opened) :
    CommandLine.Settled → Run
  | .ok (.scan settings) => scan filter settings (opened settings.file)
  | .ok .printVersion => ⟨[.out version], success⟩
  | .ok .printHelp => ⟨[.out help], success⟩
  | .error e => ⟨[.err (e.message ++ usage)], misuse⟩

/-- Sets up the log, complains about what is passed over there, and does what the arguments ask
for. -/
def run (settings : Log.Settings) (opened : String → Opened) (settled : CommandLine.Settled) : Run :=
  let done := perform settings.filter opened settled
  ⟨settings.ignored.map .complaint ++ done.outputs, done.status⟩

end Program

end MiniLex
