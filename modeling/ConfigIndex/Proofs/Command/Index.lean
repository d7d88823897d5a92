import ConfigIndex.Command.Program
import ConfigIndex.Proofs.Command.Gather
import ConfigIndex.Proofs.Command.Options
import ConfigIndex.Proofs.Data.Checked
import ConfigIndex.Proofs.Files.Expansion

/-!
The index command as a whole. If a path cannot be read it prints no index, whatever was indexed
before; otherwise it prints the index of everything that its paths stand for.
-/

namespace ConfigIndex

def LogSettings.voiced (settings : LogSettings) (isVerbose : Bool) : LogSettings :=
  if isVerbose then { settings with level := .debug } else settings

@[simp] theorem LogSettings.voiced_outputs (settings : LogSettings) (isVerbose : Bool) :
    (settings.voiced isVerbose).outputs = settings.outputs := by
  cases isVerbose <;> rfl

namespace Command

/-- A run of the program that comes to index some paths: the settings are valid, the log can be set
up, and the arguments ask for nothing else. -/
structure IndexRun (world : World) (given : List String) where
  settings : Settings
  options : Arguments
  arguments : Arguments
  loaded : (world.sources []).load = .ok settings
  read : readArguments program.options false {} given = .ok options
  unasked : options.question? = none
  named : ∃ rest, options.others = "index" :: rest ∧
    readArguments indexCommand.options true {} rest = .ok arguments
  unhelped : arguments.question? = none
  pathed : arguments.others ≠ []
  opened :
    ((settings.logging.voiced (options.has "--verbose")).openFiles world.system).fault = none

/-- What a command has said on a channel, leaving out the lines of the log. -/
def Outcome.said (outcome : Outcome) (channel : Channel) : List String :=
  (Session.run false {} outcome.actions).said.texts channel

namespace IndexRun

variable {world : World} {given : List String} (run : IndexRun world given)

def logging : LogSettings := run.settings.logging.voiced (run.options.has "--verbose")

/-- The world once the log is set up. -/
def around : World :=
  { world with
    system := (run.logging.openFiles world.system).system
    logging := some run.logging }

def rules : Rules :=
  ⟨run.arguments.has "--raw-ast" || run.settings.index.includeTree,
    run.settings.index.strictReferences⟩

def indent : Option Nat := if run.arguments.has "--compact" then none else some 2

def expansion : Expansion :=
  Expansion.ofPaths run.around.system run.settings.index run.arguments.others

def paths : List String := run.expansion.paths

/-- The documents in their turn, each read as it is found behind the log of those before it. -/
def requests : List Request :=
  Command.requests (run.around.during run.expansion) run.rules [] false run.paths

def reports : List String := run.requests.filterMap Request.report?

theorem run_eq : Command.run world given =
    (gather run.around run.settings.index run.rules run.indent run.arguments.others).after
      [.configure run.logging] := by
  obtain ⟨rest, named, read⟩ := run.named
  have nonempty : given.isEmpty = false := by
    cases given with
    | nil =>
        have same : ({} : Arguments) = run.options := Except.ok.inj run.read
        rw [← same] at named
        cases named
    | cons first more => rfl
  have pathed : run.arguments.others.isEmpty = false := by
    simpa using run.pathed
  have answer : answer? run.options = none := by rw [answer?, run.unasked, Option.map_none]
  have begins : Command.run world given =
      Task.index.start world (run.options.has "--verbose") rest := by
    rw [Command.run, nonempty, if_neg Bool.false_ne_true, run.read]
    simp only [answer, named]
    rfl
  have works : Task.index.run run.around run.settings rest =
      gather run.around run.settings.index run.rules run.indent run.arguments.others := by
    rw [Task.run, Task.rule, read]
    simp only [run.unhelped, Option.isSome_none, if_neg Bool.false_ne_true]
    rw [runIndex, pathed]
    rfl
  have opened := run.opened
  unfold LogSettings.voiced at opened
  rw [begins, Task.start, run.loaded, ← works]
  simp only [opened]
  rfl

theorem exitCode_eq : (Command.run world given).exitCode = (gather run.around run.settings.index
    run.rules run.indent run.arguments.others).exitCode := by
  rw [run.run_eq]
  rfl

theorem crash_eq : (Command.run world given).crash = (gather run.around run.settings.index
    run.rules run.indent run.arguments.others).crash := by
  rw [run.run_eq]
  rfl

/-- If the log goes to no file, all documents are read from the files that the run finds. -/
theorem requests_of_unfiled (unfiled : ∀ output ∈ run.settings.logging.outputs,
      ∀ path, output.destination ≠ .file path) :
    run.requests = Command.requests (fun _ => run.around) run.rules [] false run.paths := by
  refine requests_of_steady run.rules (fun done => ?_) [] [] false run.paths
  have set : run.around.logging = some run.logging := rfl
  refine World.after_of_unfiled set ?outputs ?keeps fun path => ?unsaid
  case outputs =>
    intro output member
    exact unfiled output (run.settings.logging.voiced_outputs _ ▸ member)
  case keeps =>
    refine keeps_worked _ _ false ?_
    rw [List.forall_mem_flatMap]
    exact fun request _ => request.keeps_actions
  case unsaid =>
    have apart : Channel.stderr ≠ .file path := nofun
    rw [said_worked, Request.said_allActions, Transcript.texts_other apart]

variable (keeps : ∀ action ∈ (gather run.around run.settings.index run.rules run.indent
  run.arguments.others).actions, action.Keeps)

include keeps

theorem said_eq (channel : Channel) : (Command.run world given).said channel =
    Transcript.texts (Action.allSaid (gather run.around run.settings.index run.rules run.indent
      run.arguments.others).actions) channel := by
  rw [run.run_eq, Outcome.said]
  exact congrArg (Transcript.texts · channel) (Session.said_configured run.logging keeps)

/-- Without a log on standard output, the command has it for itself. -/
theorem stdout_eq
    (unlogged : ∀ output ∈ run.settings.logging.outputs, output.destination ≠ .stdout)
    (time : String) : ((Command.run world given).transcript time).on .stdout =
      String.join ((Command.run world given).said .stdout) := by
  have elsewhere : ∀ output ∈ run.logging.outputs, output.destination.channel ≠ .stdout := by
    intro output member
    have other := unlogged output (run.settings.logging.voiced_outputs _ ▸ member)
    cases found : output.destination with
    | stdout => exact absurd found other
    | stderr => exact nofun
    | file path => exact nofun
  rw [run.said_eq keeps, run.run_eq]
  exact congrArg String.join (Session.shown_configured keeps (by decide) elsewhere time)

end IndexRun

/-! ### Arguments that ask for an index -/

def indexArguments (isVerbose keepsTree isCompact : Bool) (paths : List String) : List String :=
  chosen isVerbose "--verbose" ++
    "index" :: (chosen keepsTree "--raw-ast" ++ (chosen isCompact "--compact" ++ "--" :: paths))

def IndexRun.ofChoice {world : World} {settings : Settings}
    (loaded : (world.sources []).load = .ok settings) (isVerbose keepsTree isCompact : Bool)
    (opened : ((settings.logging.voiced isVerbose).openFiles world.system).fault = none)
    {paths : List String} (pathed : paths ≠ []) :
    IndexRun world (indexArguments isVerbose keepsTree isCompact paths) where
  settings := settings
  options := ⟨(chosen isVerbose "--verbose").map (·, ""),
    "index" :: (chosen keepsTree "--raw-ast" ++ (chosen isCompact "--compact" ++ "--" :: paths))⟩
  arguments := ⟨(chosen keepsTree "--raw-ast").map (·, "") ++
    (chosen isCompact "--compact").map (·, ""), paths⟩
  loaded := loaded
  read := by
    rw [indexArguments, readArguments_chosen ⟨by decide, by decide, by decide⟩ rfl rfl,
      readArguments]
    rfl
  unasked := by cases isVerbose <;> rfl
  named := by
    refine ⟨_, rfl, ?_⟩
    rw [readArguments_chosen ⟨by decide, by decide, by decide⟩ rfl rfl,
      readArguments_chosen ⟨by decide, by decide, by decide⟩ rfl rfl, readArguments_dashes]
    rfl
  unhelped := by cases keepsTree <;> cases isCompact <;> rfl
  pathed := pathed
  opened := by cases isVerbose <;> exact opened

/-! ### What comes of it -/

/-- All that is said stands among the lines of the log, in its order. -/
theorem Outcome.said_sublist (outcome : Outcome) (channel : Channel) (time : String) :
    (outcome.said channel).Sublist ((outcome.transcript time).texts channel) :=
  ((Session.said_sublist _ time).filter _).map _

/-- If a path cannot be read, the index command ends with the exit code 2 and prints no index.
Otherwise it prints the index of all documents, collected in turn, and reports those that cannot be
parsed, each by itself and their number at the end. The documents are those that the run finds at
the paths, where a log file has the lines that were written on it before. -/
theorem IndexRun.run_index {world : World} {given : List String} (run : IndexRun world given)
    (unlogged : ∀ output ∈ run.settings.logging.outputs, output.destination ≠ .stdout)
    (answers : ∀ path ∈ run.arguments.others, ¬run.around.system.Refuses path)
    (nameable : ∀ path ∈ run.paths, '\x00' ∉ path.toList) {index : Index}
    (collected : ({} : Index).collectAll run.requests = .ok index) (time : String) :
    let outcome := Command.run world given
    ((∃ path ∈ run.paths, ∃ obstacle, run.around.Bars path obstacle) →
      outcome.exitCode = 2 ∧ outcome.crash = none ∧ (outcome.transcript time).on .stdout = "") ∧
    ((∀ path ∈ run.paths, ∀ obstacle, ¬run.around.Bars path obstacle) →
      run.requests.map Request.path = run.paths ∧
      ∀ json, index.toJson? run.indent = some json →
        outcome.exitCode = 0 ∧ outcome.crash = none ∧
        (outcome.transcript time).on .stdout = json ++ "\n" ∧
        (outcome.said .stderr).Sublist ((outcome.transcript time).texts .stderr) ∧
        outcome.said .stderr = run.reports ++ closingLines run.reports.length) ∧
    (0 < run.reports.length → run.reports.length < 10 ^ 50 →
      closingLines run.reports.length = ["! " ++ toString run.reports.length ++
        (if run.reports.length = 1 then " file" else " files") ++ " could not be parsed\n"]) ∧
    ((∀ output ∈ run.settings.logging.outputs, ∀ path, output.destination ≠ .file path) →
      run.requests = Command.requests (fun _ => run.around) run.rules [] false run.paths) := by
  intro outcome
  obtain ⟨keeps, ends⟩ :=
    gather_cases rfl (Expansion.ofPaths_refusal.mpr answers) nameable collected
  have said := run.said_eq keeps
  have stdout := run.stdout_eq keeps unlogged time
  refine ⟨fun ⟨path, member, obstacle, bars⟩ => ?barred, fun readable => ?readable,
    closingLines_fitting, run.requests_of_unfiled⟩
  case barred =>
    rcases ends with ⟨_, _, _, _, code, crash, told⟩ | ⟨readable, -, -⟩
    · refine ⟨run.exitCode_eq.trans code, run.crash_eq.trans crash, ?_⟩
      rw [stdout, said, told, Transcript.texts_other (by decide)]
      rfl
    · exact absurd bars (readable path member obstacle)
  case readable =>
    rcases ends with ⟨path, member, obstacle, bars, -⟩ | ⟨-, all, ends⟩
    · exact absurd bars (readable path member obstacle)
    · refine ⟨all, fun json writes => ?_⟩
      obtain ⟨code, crash, told⟩ := ends json writes
      refine ⟨run.exitCode_eq.trans code, run.crash_eq.trans crash, ?_,
        outcome.said_sublist .stderr time, ?_⟩
      · rw [stdout, said, told, Transcript.texts_append, Transcript.texts_other (by decide)]
        exact String.empty_append
      · rw [said, told, Transcript.texts_append, Transcript.texts_same]
        exact List.append_nil _

def mixed : World where
  system := { root := [("b.tf", .file "variable \"b\" \x7b".toUTF8), ("c.tf", .sealed 3)] }
  userSettings := ⟨1, ["config.yaml"]⟩
  input := "variable \"a\" \x7b\x7d".toUTF8

theorem load_mixed : (mixed.sources []).load = .ok {} :=
  Checked.eq_ok_of_toOption (by decide +kernel)

def mixedRun : IndexRun mixed (indexArguments true false true ["b.tf", "-"]) :=
  .ofChoice load_mixed true false true rfl (List.cons_ne_nil _ _)

def barredRun : IndexRun mixed (indexArguments false true false ["-", "c.tf"]) :=
  .ofChoice load_mixed false true false rfl (List.cons_ne_nil _ _)

theorem run_index_mixed :
    let both := Command.run mixed (indexArguments true false true ["b.tf", "-"])
    let stopped := Command.run mixed (indexArguments false true false ["-", "c.tf"])
    (both.exitCode = 0 ∧ (∃ (index : Index) (json : String), index.toJson? none = some json ∧
        index.problems.length = 1 ∧ index.inputVariables.map NamedSection.name = ["a"] ∧
        (both.transcript "").on .stdout = json ++ "\n") ∧
      both.said .stderr = ["ERROR: Could not parse 'b.tf': unexpected end of input, expected: " ++
        "IDENT | RBRACE | STRING\n", "! 1 file could not be parsed\n"]) ∧
    stopped.exitCode = 2 ∧ (stopped.transcript "").on .stdout = "" := by
  intro both stopped
  have unlogged : ∀ output ∈ ({} : LogSettings).outputs, output.destination ≠ .stdout := by
    decide
  constructor
  · have answers : ∀ path ∈ mixedRun.arguments.others, ¬mixedRun.around.system.Refuses path :=
      Expansion.ofPaths_refusal.mp
        (show (Expansion.ofPaths mixedRun.around.system {} ["b.tf", "-"]).refusal = none by
          decide +kernel)
    have paths : mixedRun.paths = ["b.tf", "-"] := by decide +kernel
    have nameable : ∀ path ∈ mixedRun.paths, '\x00' ∉ path.toList := by
      rw [paths]
      decide
    have readable : ∀ path ∈ mixedRun.paths, ∀ obstacle, ¬mixedRun.around.Bars path obstacle := by
      rw [paths, List.forall_mem_cons, List.forall_mem_singleton]
      refine ⟨fun obstacle bars => ?_, fun obstacle bars => bars.1 rfl⟩
      cases bars.2
    obtain ⟨index, collected, shown⟩ : ∃ index, ({} : Index).collectAll mixedRun.requests =
        .ok index ∧ (index.isWritable, index.problems.length,
          index.inputVariables.map NamedSection.name) = (true, 1, ["a"]) :=
      Checked.exists_ok_of_toOption (by decide +kernel)
    obtain ⟨writable, problems, declared⟩ : index.isWritable = true ∧ index.problems.length = 1 ∧
        index.inputVariables.map NamedSection.name = ["a"] := by
      simpa only [Prod.mk.injEq] using shown
    have writes : index.toJson? none = some (index.toData.toJson (Index.style none)) :=
      if_pos writable
    have reports : mixedRun.reports = ["ERROR: Could not parse 'b.tf': unexpected end of input, " ++
        "expected: IDENT | RBRACE | STRING\n"] := by
      decide +kernel
    obtain ⟨-, prints, closing, -⟩ := mixedRun.run_index unlogged answers nameable collected ""
    obtain ⟨code, -, stdout, -, stderr⟩ := (prints readable).2 _ writes
    rw [reports] at stderr closing
    exact ⟨code, ⟨index, _, writes, problems, declared, stdout⟩,
      stderr.trans (congrArg _ (closing (by decide) (by decide)))⟩
  · have answers : ∀ path ∈ barredRun.arguments.others, ¬barredRun.around.system.Refuses path :=
      Expansion.ofPaths_refusal.mp
        (show (Expansion.ofPaths barredRun.around.system {} ["-", "c.tf"]).refusal = none by
          decide +kernel)
    have paths : barredRun.paths = ["-", "c.tf"] := by decide +kernel
    have nameable : ∀ path ∈ barredRun.paths, '\x00' ∉ path.toList := by
      rw [paths]
      decide
    have barred : ∃ path ∈ barredRun.paths, ∃ obstacle, barredRun.around.Bars path obstacle := by
      rw [paths]
      exact ⟨"c.tf", by decide, .denied, by decide, rfl⟩
    obtain ⟨index, collected, -⟩ : ∃ index, ({} : Index).collectAll barredRun.requests =
        .ok index ∧ index.problems.length = 0 := Checked.exists_ok_of_toOption (by decide +kernel)
    obtain ⟨stops, -⟩ := barredRun.run_index unlogged answers nameable collected ""
    obtain ⟨code, -, stdout⟩ := stops barred
    exact ⟨code, stdout⟩

def empty : World := { mixed with system := {} }

theorem load_empty : (empty.sources []).load = .ok {} :=
  Checked.eq_ok_of_toOption (by decide +kernel)

def longRun : IndexRun empty (indexArguments false false false [Expansion.longName]) :=
  .ofChoice load_empty false false false rfl (List.cons_ne_nil _ _)

theorem run_index_longName :
    let outcome := Command.run empty (indexArguments false false false [Expansion.longName])
    (∀ output ∈ longRun.settings.logging.outputs, output.destination ≠ .stdout) ∧
      longRun.arguments.others = [Expansion.longName] ∧
      (∃ refusal, outcome.crash = some (.refused refusal)) ∧
      ¬(outcome.exitCode = 2 ∨ outcome.exitCode = 0) := by
  intro outcome
  have unlogged : ∀ output ∈ ({} : LogSettings).outputs, output.destination ≠ .stdout := by
    decide
  have refused : (Expansion.ofPaths {} {} [Expansion.longName]).refusal ≠ none := fun whole =>
    Expansion.ofPaths_refusal.mp whole _ List.mem_cons_self Expansion.refuses_longName
  obtain ⟨refusal, unsaid⟩ := Option.ne_none_iff_exists'.mp refused
  have found : (Expansion.ofPaths longRun.around.system longRun.settings.index
    longRun.arguments.others).refusal = some refusal := unsaid
  refine ⟨unlogged, rfl, ⟨refusal, ?_⟩, ?_⟩
  · rw [longRun.crash_eq, gather]
    simp only [found]
    rfl
  · rw [longRun.exitCode_eq, gather]
    simp only [found]
    exact show ¬(1 = 2 ∨ 1 = 0) by decide

end Command

end ConfigIndex
