/-!
# The command line

What the program is asked to do, as its arguments say it. Arguments are taken from left to right,
and the first that settles the matter, by an error or by asking for a text to be printed, does.

- `CommandLine.Settings`, `CommandLine.Request`: what is asked for.
- `CommandLine.UsageError`: why arguments ask for nothing that can be done.
- `CommandLine.parse`: the request of a list of arguments.
-/

namespace MiniLex

namespace CommandLine

/-- How a file is to be scanned. -/
structure Settings where
  file : String
  /-- Print no tokens. -/
  quiet : Bool
  /-- Count a reported diagnostic as failure. -/
  failOnError : Bool
deriving DecidableEq

/-- What the program is asked to do. -/
inductive Request where
  | scan (settings : Settings)
  | printVersion
  | printHelp
deriving DecidableEq

/-- Why arguments ask for nothing that can be done. -/
inductive UsageError where
  | unknownOption (option : String)
  | repeatedOption (option : String)
  | secondFile (file : String)
  | emptyFile
  | missingFile
deriving DecidableEq

/-- The error in words. -/
def UsageError.message : UsageError → String
  | .unknownOption option => "error: unexpected argument '" ++ option ++ "' found"
  | .repeatedOption option =>
    "error: the argument '" ++ option ++ "' cannot be used multiple times"
  | .secondFile file => "error: unexpected argument '" ++ file ++ "' found"
  | .emptyFile => "error: a value is required for '<FILE>' but none was supplied"
  | .missingFile => "error: the following required arguments were not provided:\n  <FILE>"

/-- What was taken from the arguments so far. -/
structure Taken where
  file : Option String
  quiet : Bool
  failOnError : Bool
deriving DecidableEq

/-- An answer that needs no further arguments. -/
abbrev Settled := Except UsageError Request

namespace Taken

/-- Nothing was taken so far. -/
def nothing : Taken := ⟨none, false, false⟩

/-- Takes the option that silences tokens; it may be given once. -/
def takeQuiet (t : Taken) : Except Settled Taken :=
  if t.quiet then .error (.error (.repeatedOption "--quiet")) else .ok { t with quiet := true }

/-- Takes the option that counts diagnostics as failure; it may be given once. -/
def takeFailOnError (t : Taken) : Except Settled Taken :=
  if t.failOnError then .error (.error (.repeatedOption "--fail-on-error"))
  else .ok { t with failOnError := true }

/-- Takes a file name; there is one, and it is not empty. -/
def takeFile (t : Taken) (file : String) : Except Settled Taken :=
  match t.file with
  | some _ => .error (.error (.secondFile file))
  | none => if file = "" then .error (.error .emptyFile) else .ok { t with file := some file }

/-- Takes an option with a long name, which is written in full and without a value. -/
def takeLong (t : Taken) : String → Except Settled Taken
  | "quiet" => t.takeQuiet
  | "fail-on-error" => t.takeFailOnError
  | "version" => .error (.ok .printVersion)
  | "help" => .error (.ok .printHelp)
  | name => .error (.error (.unknownOption ("--" ++ name)))

/-- Takes the options of a cluster of letters, one after another. -/
def takeShort (t : Taken) : List Char → Except Settled Taken
  | [] => .ok t
  | 'q' :: cs =>
    match t.takeQuiet with
    | .error settled => .error settled
    | .ok t => t.takeShort cs
  | 'V' :: _ => .error (.ok .printVersion)
  | 'h' :: _ => .error (.ok .printHelp)
  | c :: _ => .error (.error (.unknownOption ("-" ++ c.toString)))

/-- Takes an argument before any lone `--`. A lone `-` is a file name. -/
def take (t : Taken) (arg : String) : Except Settled Taken :=
  match arg.toList with
  | '-' :: '-' :: name => t.takeLong (String.ofList name)
  | '-' :: c :: cs => t.takeShort (c :: cs)
  | _ => t.takeFile arg

/-- The request once all arguments are taken. -/
def settle (t : Taken) : Settled :=
  match t.file with
  | none => .error .missingFile
  | some file => .ok (.scan ⟨file, t.quiet, t.failOnError⟩)

end Taken

/-- Goes on with arguments that are all file names. -/
def parseFiles (t : Taken) : List String → Settled
  | [] => t.settle
  | arg :: args =>
    match t.takeFile arg with
    | .error settled => settled
    | .ok t => parseFiles t args

/-- Goes on with further arguments. -/
def parseFrom (t : Taken) : List String → Settled
  | [] => t.settle
  | "--" :: args => parseFiles t args
  | arg :: args =>
    match t.take arg with
    | .error settled => settled
    | .ok t => parseFrom t args

/-- The request of a list of arguments. -/
def parse (args : List String) : Settled :=
  parseFrom .nothing args

end CommandLine

end MiniLex
