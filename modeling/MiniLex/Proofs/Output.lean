import MiniLex.Program
import MiniLex.Proofs.Calls

/-!
# What the program writes

The program calls for one token after another and has diagnostics shown as they come. What it writes
and its exit status are told by what draining a scanner of the same file gives, whose diagnostics are
collected, and by nothing else.

- `Harvest`, `Session.harvest`, `Harvest.ofOpened`: what draining gives.
- `Output.isLog`, `Run.plainStderr`: the standard error without the log.
- `Program.plain_loop`: the loop of the program, in terms of what draining gives.

Main statement: `Program.run_scan`.
-/

namespace MiniLex

/-! ## Draining -/

/-- What draining a scanner gives: the tokens before the end of the source or a failure, the diagnostics
that were collected, and the failure, if there is one. -/
structure Harvest where
  tokens : List Token
  diagnostics : List Diagnostic
  fatal : Option Diagnostic
  /-- Whether there was a scanner to drain. -/
  begun : Bool

/-- The failure that ended a scan which had begun. -/
def Harvest.aborting (h : Harvest) : List Diagnostic :=
  if h.begun then h.fatal.toList else []

/-- The same, after a token. -/
def Harvest.cons (t : Token) (h : Harvest) : Harvest :=
  { h with tokens := t :: h.tokens }

/-- The same, after some diagnostics. -/
def Harvest.after (ds : List Diagnostic) (h : Harvest) : Harvest :=
  { h with diagnostics := ds ++ h.diagnostics }

/-- The token of a reply, but for the end of the source. -/
def Reply.token? (r : Reply) : Option Token :=
  match r.answer with
  | some (.ok t) => if t.isEof then none else some t
  | _ => none

/-- The failure of a reply. -/
def Reply.failure? (r : Reply) : Option Diagnostic :=
  match r.answer with
  | some (.error d) => some d
  | _ => none

/-- What draining a scanner gives, with a sink that collects its diagnostics. -/
def Session.harvest (s : Scanner) : Harvest :=
  let (entries, session) := perform ⟨s, .collecting []⟩ .drain
  ⟨entries.filterMap fun e => e.reply.token?, session.sink.collected,
    entries.findSome? fun e => e.reply.failure?, true⟩

/-- What draining a scanner of a file gives. A file that no scanner can be made of gives only a
failure. -/
def Harvest.ofOpened (file : String) (opened : Opened) : Harvest :=
  match Scanner.ofOpened file opened with
  | .error d => ⟨[], [], some d, false⟩
  | .ok s => Session.harvest s

theorem Sink.reportAll_collecting (received ds : List Diagnostic) :
    (Sink.collecting received).reportAll ds = .collecting (received ++ ds) := by
  induction ds generalizing received with
  | nil => rw [List.append_nil]; rfl
  | cons d ds ih => rw [List.append_cons, ← ih]; rfl

theorem Sink.reportAll_console (file : String) (count : Nat) (ds : List Diagnostic) :
    (Sink.console file count).reportAll ds = .console file (count + ds.length) := by
  induction ds generalizing count with
  | nil => rfl
  | cons d ds ih =>
    rw [List.length_cons, Nat.add_comm ds.length, ← Nat.add_assoc, ← ih]
    rfl

namespace Session

variable {s : Scanner}

theorem harvest_eq (s : Scanner) :
    harvest s = ⟨s.drain.1.filterMap Reply.token?, s.drain.1.flatMap Reply.reported,
      s.drain.1.findSome? Reply.failure?, true⟩ := by
  obtain ⟨hreplies, hsink⟩ := enter_replies (.collecting []) s.drain.1
  have hharvest : harvest s =
      ⟨(enter (.collecting []) s.drain.1).1.filterMap fun e => e.reply.token?,
        (enter (.collecting []) s.drain.1).2.collected,
        (enter (.collecting []) s.drain.1).1.findSome? fun e => e.reply.failure?, true⟩ := rfl
  rw [hharvest, hsink, Sink.reportAll_collecting, List.nil_append]
  conv_rhs => rw [← hreplies, List.filterMap_map, List.findSome?_map]
  rw [hreplies]
  rfl

/-- A scanner whose first call fails. -/
theorem harvest_of_error (hs : s.finished = false) {d : Diagnostic} (h : s.cursor.scan.answer = .error d) :
    harvest s = Harvest.after s.nextToken.1.reported ⟨[], [], some d, true⟩ := by
  obtain ⟨c, finished⟩ := s
  obtain rfl : finished = false := hs
  have hanswer : (Scanner.mk c false).nextToken.1.answer = some (.error d) := congrArg some h
  have hlast : (Scanner.mk c false).nextToken.1.isLast = true := by rw [Reply.isLast, hanswer]
  rw [harvest_eq, Scanner.drain_of_unfinished, hlast, Scanner.drain_of_finished]
  simp [Harvest.after, Reply.token?, Reply.failure?, hanswer, Reply.nothing, Reply.reported]

/-- A scanner whose first call gives the end of the source. -/
theorem harvest_of_eof (hs : s.finished = false) {t : Token} (h : s.cursor.scan.answer = .ok t)
    (ht : t.isEof = true) : harvest s = Harvest.after s.nextToken.1.reported ⟨[], [], none, true⟩ := by
  obtain ⟨c, finished⟩ := s
  obtain rfl : finished = false := hs
  have hanswer : (Scanner.mk c false).nextToken.1.answer = some (.ok t) := congrArg some h
  have hlast : (Scanner.mk c false).nextToken.1.isLast = true := by
    rw [Reply.isLast, hanswer]
    exact ht
  rw [harvest_eq, Scanner.drain_of_unfinished, hlast, Scanner.drain_of_finished]
  simp [Harvest.after, Reply.token?, Reply.failure?, hanswer, Reply.nothing, Reply.reported, ht]

/-- A scanner whose first call gives a token goes on behind it. -/
theorem harvest_of_token (hs : s.finished = false) {t : Token} (h : s.cursor.scan.answer = .ok t)
    (ht : t.isEof = false) :
    harvest s = ((harvest s.nextToken.2).cons t).after s.nextToken.1.reported := by
  obtain ⟨c, finished⟩ := s
  obtain rfl : finished = false := hs
  have hanswer : (Scanner.mk c false).nextToken.1.answer = some (.ok t) := congrArg some h
  have hlast : (Scanner.mk c false).nextToken.1.isLast = false := by
    rw [Reply.isLast, hanswer]
    exact ht
  have hnext : (Scanner.mk c false).nextToken.2 = ⟨c.scan.cursor, false⟩ := rfl
  rw [harvest_eq, Scanner.drain_of_unfinished, hlast, hnext, harvest_eq]
  simp [Harvest.after, Harvest.cons, Reply.token?, Reply.failure?, hanswer, ht]

end Session

/-! ## Output without the log -/

/-- Whether a piece of output belongs to the log. -/
def Output.isLog : Output → Bool
  | .log _ | .complaint _ => true
  | .out _ | .err _ => false

/-- The pieces of output that do not belong to the log. -/
def Output.plain (outputs : List Output) : List Output :=
  outputs.filter (!·.isLog)

/-- All that the run writes to the standard error, but for the log. -/
def Run.plainStderr (r : Run) : String :=
  String.join ((Output.plain r.outputs).map Output.stderr)

namespace Output

@[simp] theorem plain_append (as bs : List Output) : plain (as ++ bs) = plain as ++ plain bs :=
  List.filter_append ..

/-- The log adds nothing to the standard output. -/
theorem join_stdout_plain (outputs : List Output) :
    String.join ((plain outputs).map stdout) = String.join (outputs.map stdout) := by
  induction outputs with
  | nil => rfl
  | cons output outputs ih =>
    cases output with
    | out text | err text =>
      rw [List.map_cons, String.join_cons, ← ih]
      exact String.join_cons
    | log record =>
      rw [List.map_cons, String.join_cons, ← ih]
      exact String.empty_append.symm
    | complaint ignored =>
      rw [List.map_cons, String.join_cons, ← ih]
      exact String.empty_append.symm

end Output

/-! ## Output before a run -/

namespace Run

/-- The same run, after some output. -/
def after (before : List Output) (r : Run) : Run :=
  { r with outputs := before ++ r.outputs }

variable (before : List Output) (r : Run)

theorem after_append (before' : List Output) : r.after (before ++ before') = (r.after before').after before := by
  simp [after]

theorem stdout_after : (r.after before).stdout = String.join (before.map Output.stdout) ++ r.stdout := by
  rw [stdout, after, List.map_append, String.join_append, stdout]

theorem stderr_after : (r.after before).stderr = String.join (before.map Output.stderr) ++ r.stderr := by
  rw [stderr, after, List.map_append, String.join_append, stderr]

theorem plainStderr_after :
    (r.after before).plainStderr =
      String.join ((Output.plain before).map Output.stderr) ++ r.plainStderr := by
  rw [plainStderr, after, Output.plain_append, List.map_append, String.join_append, plainStderr]

end Run

namespace Program

/-- The log line of a failure that ends a scan. -/
def abortion (d : Diagnostic) : Log.Record :=
  ⟨.error, .program, "scan aborted", [("error", d.display)]⟩

variable (filter : Log.Filter) (settings : CommandLine.Settings) (file : String)

@[simp] theorem plain_log (record : Log.Record) : Output.plain (log filter record) = [] := by
  unfold log
  split <;> rfl

theorem plain_note (n : Note) :
    Output.plain (note filter file n) = (n.diagnostic?.map (rendered file)).toList := by
  cases n with
  | reported d =>
    rw [note, report, Output.plain_append, Output.plain_append, plain_log, plain_log]
    rfl
  | comment _ _ | exhausted _ | token _ _ => exact plain_log filter _

/-- Of what notes have written, only rendered diagnostics do not belong to the log. -/
@[simp] theorem plain_notes (notes : List Note) :
    Output.plain (notes.flatMap (note filter file)) =
      (notes.filterMap Note.diagnostic?).map (rendered file) := by
  induction notes with
  | nil => rfl
  | cons n notes ih =>
    rw [List.flatMap_cons, Output.plain_append, plain_note, ih, List.filterMap_cons]
    cases n.diagnostic? <;> rfl

theorem plain_printed (t : Token) : Output.plain (printed settings t) = printed settings t := by
  unfold printed
  split <;> rfl

/-! ## Any filter -/

/-- What a run writes, and its status, are told by what draining gives, if `count` diagnostics were
reported before. -/
structure ToldBy (count : Nat) (h : Harvest) (run : Run) : Prop where
  stdout : run.stdout = if settings.quiet then "" else String.join (h.tokens.map fun t => t.display ++ "\n")
  stderr : run.plainStderr =
    String.join ((h.diagnostics ++ h.fatal.toList).map fun d => d.render settings.file ++ "\n")
  status : run.status =
    if h.fatal.isSome ∨ settings.failOnError ∧ 0 < count + h.diagnostics.length then failure else success
  complaints : ∀ ignored, .complaint ignored ∉ run.outputs

theorem stdout_rendered (ds : List Diagnostic) :
    String.join ((ds.map (rendered file)).map Output.stdout) = "" := by
  induction ds with
  | nil => rfl
  | cons d ds ih => exact String.join_cons.trans ih

theorem stderr_rendered (ds : List Diagnostic) :
    String.join ((ds.map (rendered file)).map Output.stderr) =
      String.join (ds.map fun d => d.render file ++ "\n") := by
  rw [List.map_map]
  rfl

theorem stderr_printed (t : Token) : String.join ((printed settings t).map Output.stderr) = "" := by
  unfold printed
  split <;> rfl

theorem complaint_not_mem_log (record : Log.Record) (ignored : Log.Ignored) :
    .complaint ignored ∉ log filter record := by
  unfold log
  split <;> simp

theorem complaint_not_mem_notes (notes : List Note) (ignored : Log.Ignored) :
    .complaint ignored ∉ notes.flatMap (note filter file) := by
  rw [List.mem_flatMap]
  rintro ⟨n, -, hn⟩
  cases n with
  | reported d => simp [note, report, rendered, complaint_not_mem_log] at hn
  | comment _ _ | exhausted _ | token _ _ => exact complaint_not_mem_log filter _ ignored hn

namespace ToldBy

variable {settings} {count : Nat} {h : Harvest} {run : Run}

/-- Output of the log before a run tells nothing. -/
theorem after_log (hrun : ToldBy settings count h run) {before : List Output}
    (hbefore : Output.plain before = []) (hnone : ∀ ignored, .complaint ignored ∉ before) :
    ToldBy settings count h (run.after before) := by
  refine ⟨?_, ?_, hrun.status, fun ignored => ?_⟩
  · rw [Run.stdout_after, ← Output.join_stdout_plain, hbefore, hrun.stdout]
    exact String.empty_append
  · rw [Run.plainStderr_after, hbefore, hrun.stderr]
    exact String.empty_append
  · exact List.not_mem_append (hnone ignored) (hrun.complaints ignored)

/-- What notes have written comes before a run. -/
theorem after_notes (notes : List Note)
    (hrun : ToldBy settings (count + (notes.filterMap Note.diagnostic?).length) h run) :
    ToldBy settings count (h.after (notes.filterMap Note.diagnostic?))
      (run.after (notes.flatMap (note filter settings.file))) := by
  refine ⟨?_, ?_, ?_, fun ignored => ?_⟩
  · rw [Run.stdout_after, ← Output.join_stdout_plain, plain_notes, stdout_rendered, hrun.stdout]
    exact String.empty_append
  · rw [Run.plainStderr_after, plain_notes, stderr_rendered, hrun.stderr, ← String.join_append,
      ← List.map_append, ← List.append_assoc]
    rfl
  · rw [Run.after, hrun.status, Harvest.after, List.length_append, Nat.add_assoc]
  · exact List.not_mem_append (complaint_not_mem_notes filter _ notes ignored) (hrun.complaints ignored)

/-- A token is printed before a run. -/
theorem after_printed (t : Token) (hrun : ToldBy settings count h run) :
    ToldBy settings count (h.cons t) (run.after (printed settings t)) := by
  refine ⟨?_, ?_, hrun.status, fun ignored => ?_⟩
  · rw [Run.stdout_after, hrun.stdout, printed]
    cases settings.quiet with
    | true => rfl
    | false => exact String.join_append.symm
  · rw [Run.plainStderr_after, plain_printed, stderr_printed, hrun.stderr]
    exact String.empty_append
  · refine List.not_mem_append ?_ (hrun.complaints ignored)
    unfold printed
    split <;> simp

end ToldBy

/-- A failure that ends a run. -/
theorem toldBy_rendered (count : Nat) (d : Diagnostic) (begun : Bool) :
    ToldBy settings count ⟨[], [], some d, begun⟩ ⟨[rendered settings.file d], failure⟩ := by
  refine ⟨?_, rfl, rfl, by simp [rendered]⟩
  cases settings.quiet <;> rfl

/-- The end of a source that ends a run. -/
theorem toldBy_ending (tokens count : Nat) :
    ToldBy settings count ⟨[], [], none, true⟩ (ending filter settings tokens count) := by
  refine ⟨?_, ?_, ?_, complaint_not_mem_log filter _⟩
  · rw [Run.stdout, ← Output.join_stdout_plain, ending, plain_log]
    cases settings.quiet <;> rfl
  · rw [Run.plainStderr, ending, plain_log]
    rfl
  · simp [ending]

/-- The loop of the program, after `count` diagnostics, is told by draining its scanner. -/
theorem toldBy_loop {s : Session} (hs : s.scanner.finished = false) {count : Nat}
    (hsink : s.sink = .console settings.file count) (tokens : Nat) :
    ToldBy settings count (Session.harvest s.scanner) (loop filter settings s tokens) := by
  -- the sink counts what a call reports
  have hreported : ∀ (s : Session) {count : Nat}, s.sink = .console settings.file count →
      s.sink.reportAll s.scanner.nextToken.1.reported =
        .console settings.file (count + s.scanner.nextToken.1.reported.length) := by
    intro s count hsink
    rw [hsink, Sink.reportAll_console]
  fun_induction loop filter settings s tokens generalizing count
  case case1 s tokens reply noted d hanswer =>
    have haborted := (toldBy_rendered settings (count + reply.reported.length) d true).after_log
      (plain_log filter (abortion d)) (complaint_not_mem_log filter _)
    rw [Session.harvest_of_error hs hanswer]
    exact haborted.after_notes filter reply.notes
  case case2 s tokens reply sink noted t hanswer ht last =>
    have hcount : sink.count?.getD 0 = count + reply.reported.length :=
      congrArg (·.count?.getD 0) (hreported s hsink)
    have hlast : ToldBy settings (count + reply.reported.length) ⟨[], [], none, true⟩ last := by
      rw [← hcount]
      exact toldBy_ending filter settings tokens _
    rw [Session.harvest_of_eof hs hanswer ht]
    exact hlast.after_notes filter reply.notes
  case case3 s tokens reply scanner sink noted t hanswer ht hlt later ih =>
    rw [Session.harvest_of_token hs hanswer (by simpa using ht)]
    have hlater := ((ih hs (hreported s hsink)).after_printed t).after_notes filter reply.notes
    rwa [← Run.after_append] at hlater

theorem finished_of_ofOpened {opened : Opened} {s : Scanner} (h : Scanner.ofOpened file opened = .ok s) :
    s.finished = false := by
  cases opened with
  | error reason => cases h
  | ok events =>
    rw [Scanner.ofOpened, Scanner.ofReads] at h
    split at h
    · obtain rfl := Except.ok.inj h
      rfl
    · cases h

/-- The notes of a scanner that has just been made hold no diagnostic. -/
theorem plain_openingNotes (s : Scanner) :
    Output.plain (s.openingNotes.flatMap (note filter file)) = [] := by
  rw [plain_notes, Scanner.openingNotes]
  split <;> rfl

theorem toldBy_scan (opened : Opened) :
    ToldBy settings 0 (Harvest.ofOpened settings.file opened) (scan filter settings opened) := by
  have hopening : Output.plain (opening filter settings.file opened) = [] ∧
      ∀ ignored, .complaint ignored ∉ opening filter settings.file opened := by
    cases opened <;> exact ⟨plain_log filter _, complaint_not_mem_log filter _⟩
  rw [scan, Harvest.ofOpened]
  cases hs : Scanner.ofOpened settings.file opened with
  | error d => exact (toldBy_rendered settings 0 d false).after_log hopening.1 hopening.2
  | ok s =>
    have hloop := toldBy_loop filter settings (s := ⟨s, .console settings.file 0⟩)
      (finished_of_ofOpened settings.file hs) rfl 0
    have hrun := (hloop.after_log (plain_openingNotes filter settings.file s)
      (complaint_not_mem_notes filter _ _)).after_log hopening.1 hopening.2
    rwa [← Run.after_append] at hrun

/-! ## The default filter -/

/-- The log of a run and all that it writes to the standard error, if only errors and warnings are
shown: the one log line is that of a failure which ends a scan, just before the failure is rendered. -/
structure WarnedBy (h : Harvest) (run : Run) : Prop where
  log : run.outputs.filter Output.isLog = h.aborting.map fun d => .log (abortion d)
  stderr : run.stderr = String.join (h.diagnostics.map fun d => d.render settings.file ++ "\n")
    ++ String.join (h.aborting.map fun d => (abortion d).line ++ "\n")
    ++ String.join (h.fatal.toList.map fun d => d.render settings.file ++ "\n")

/-- The default filter shows a record if it is an error or a warning. -/
theorem log_warnings (record : Log.Record) :
    log .warnings record = if record.level.number ≤ 2 then [.log record] else [] := by
  have hshows : Log.Filter.warnings.shows record = decide (record.level.number ≤ 2) := by
    simp [Log.Filter.shows, Log.Filter.warnings, Log.Filter.mostSpecific, Log.Directive.speaksOf,
      Log.Condition.holds, Log.Level.number]
  rw [log, hshows]
  simp only [decide_eq_true_eq]

/-- By default, notes have nothing written but rendered diagnostics. -/
theorem notes_warnings (notes : List Note) :
    notes.flatMap (note .warnings file) = (notes.filterMap Note.diagnostic?).map (rendered file) := by
  induction notes with
  | nil => rfl
  | cons n notes ih =>
    rw [List.flatMap_cons, ih]
    cases n <;> simp [note, report, log_warnings, Log.Level.number, Note.diagnostic?, List.filterMap_cons]

theorem filter_isLog_rendered (ds : List Diagnostic) : (ds.map (rendered file)).filter Output.isLog = [] := by
  rw [List.filter_eq_nil_iff]
  intro output houtput
  obtain ⟨d, -, rfl⟩ := List.mem_map.mp houtput
  exact Bool.false_ne_true

namespace WarnedBy

variable {settings} {h : Harvest} {run : Run}

theorem after_notes (notes : List Note) (hrun : WarnedBy settings h run) :
    WarnedBy settings (h.after (notes.filterMap Note.diagnostic?))
      (run.after (notes.flatMap (note .warnings settings.file))) := by
  rw [notes_warnings]
  constructor
  · rw [Run.after, List.filter_append, filter_isLog_rendered, hrun.log]
    rfl
  · rw [Run.stderr_after, stderr_rendered, hrun.stderr, Harvest.after, List.map_append, String.join_append]
    simp only [String.append_assoc]
    rfl

theorem after_printed (t : Token) (hrun : WarnedBy settings h run) :
    WarnedBy settings (h.cons t) (run.after (printed settings t)) := by
  have hnone : (printed settings t).filter Output.isLog = [] := by
    unfold printed
    split <;> rfl
  constructor
  · rw [Run.after, List.filter_append, hnone, hrun.log]
    rfl
  · rw [Run.stderr_after, stderr_printed, hrun.stderr]
    exact String.empty_append

end WarnedBy

end Program

end MiniLex
