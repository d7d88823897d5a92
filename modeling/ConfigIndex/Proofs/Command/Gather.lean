import ConfigIndex.Command.Gather
import ConfigIndex.Proofs.Command.Status
import ConfigIndex.Proofs.Files.Growth
import ConfigIndex.Proofs.Index.Merge
import ConfigIndex.Proofs.Index.Sections
import ConfigIndex.Proofs.Log.Transcript

/-!
Indexing many sources at once. The index is that of all documents collected in turn, each of those
that cannot be parsed is reported, and the first source that cannot be read ends the work.
-/

namespace ConfigIndex

def Request.report? (request : Request) : Option String :=
  match request.content.parse with
  | .ok _ => none
  | .error error =>
    some ("ERROR: Could not parse '" ++ request.path ++ "': " ++ error.message ++ "\n")

theorem Command.unparsable_eq (path : String) (error : Document.Error) :
    Command.unparsable path error.message =
      .say .stderr ("ERROR: Could not parse '" ++ path ++ "': " ++ error.message ++ "\n") := by
  simp only [unparsable, errorLine, String.append_assoc]
  rfl

namespace Request

/-- What comes with the collecting of a document: lines of the log, and a report if it cannot be
parsed. -/
def actions (request : Request) : List Action :=
  let (progress, error) := ({} : Index).collect request.rules request.path request.content
  progress.events.map .log ++
    (error.map fun error => Command.unparsable request.path error.message).toList

/-- What comes with a document is the same whichever index it is collected into. -/
theorem actions_eq (request : Request) (index : Index) :
    let (progress, error) := index.collect request.rules request.path request.content
    request.actions = progress.events.map .log ++
      (error.map fun error => Command.unparsable request.path error.message).toList := by
  unfold actions Index.collect
  cases request.content.parse with
  | ok file => simp only [Index.collectFile_events]
  | error error => rfl

theorem said_actions (request : Request) :
    Action.allSaid request.actions = request.report?.toList.map (Channel.stderr, ·) := by
  unfold actions Index.collect report?
  cases request.content.parse with
  | ok file =>
      rw [Action.allSaid_append, Action.allSaid_log]
      rfl
  | error error =>
      dsimp only
      rw [Action.allSaid_append, Action.allSaid_log, Option.map_some, Command.unparsable_eq]
      rfl

theorem said_allActions (requests : List Request) :
    Action.allSaid (requests.flatMap actions) =
      (requests.filterMap report?).map (Channel.stderr, ·) := by
  induction requests with
  | nil => rfl
  | cons request rest ih =>
      rw [List.flatMap_cons, Action.allSaid_append, said_actions, ih]
      cases report : request.report? with
      | none =>
          rw [List.filterMap_cons_none report]
          rfl
      | some text =>
          rw [List.filterMap_cons_some report]
          rfl

theorem keeps_actions (request : Request) : ∀ action ∈ request.actions, action.Keeps := by
  refine List.forall_mem_append.mpr ⟨Action.keeps_log _, ?_⟩
  intro action member
  rw [Option.mem_toList, Option.map_eq_some_iff] at member
  obtain ⟨error, -, rfl⟩ := member
  exact .say _ _

end Request

theorem Index.collectAll_append (index : Index) (first later : List Request) :
    index.collectAll (first ++ later) =
      (index.collectAll first).bind fun middle => middle.collectAll later := by
  rw [collectAll, List.foldlM_append]
  rfl

theorem Index.into_of_collectAll {index last : Index} {request : Request} {rest : List Request}
    (collected : index.collectAll (request :: rest) = .ok last) :
    ∃ middle, request.into index = .ok middle := by
  rw [collectAll_cons] at collected
  cases into : request.into index with
  | ok middle => exact ⟨middle, rfl⟩
  | error digits =>
      rw [into] at collected
      cases collected

namespace Command

def World.Bars (world : World) (path : String) (obstacle : Obstacle) : Prop :=
  path ≠ "-" ∧ world.system.read (Path.ofText path) = .error obstacle

/-- The documents at some paths, read in turn up to the first path that cannot be read. Each is read
as it is found after the work up to there. -/
def requests (around : List Action → World) (rules : Rules) (work : List Action)
    (isInputRead : Bool) : List String → List Request
  | [] => []
  | path :: rest =>
    match (around work).source isInputRead path with
    | .ok content =>
      let request : Request := ⟨rules, path, .bytes content.data.toList⟩
      request :: requests around rules (work ++ request.actions)
        (isInputRead || path == standardInput) rest
    | .error _ => []

theorem Transcript.resembles_written (transcript : Transcript) (system : FileSystem) :
    (Transcript.written transcript system).Resembles system := by
  unfold written
  induction transcript generalizing system with
  | nil => exact .refl system
  | cons line rest ih =>
      rw [List.foldl_cons]
      refine (ih _).trans ?_
      obtain ⟨channel, text⟩ := line
      cases channel with
      | file path => exact FileSystem.resembles_grow system _ _
      | _ => exact .refl system

theorem Transcript.written_of_unfiled {transcript : Transcript} {system : FileSystem}
    (unfiled : ∀ path, transcript.texts (.file path) = []) :
    Transcript.written transcript system = system := by
  unfold written
  induction transcript with
  | nil => rfl
  | cons line rest ih =>
      obtain ⟨channel, text⟩ := line
      have others (path : String) : Transcript.texts rest (.file path) = [] := by
        have all := unfiled path
        rw [← List.singleton_append, Transcript.texts_append] at all
        exact (List.append_eq_nil_iff.mp all).2
      rw [List.foldl_cons]
      cases channel with
      | file path =>
          have none := unfiled path
          simp [Transcript.texts] at none
      | _ => exact ih others

namespace World

variable {world : World} {isInputRead : Bool} {path : String}

/-- A path that a system can hold is read, or there is an obstacle. -/
theorem source_cases (nameable : '\x00' ∉ path.toList) (world : World) (isInputRead : Bool) :
    (∃ content, world.source isInputRead path = .ok content ∧
        ∀ obstacle, ¬world.Bars path obstacle) ∨
      ∃ obstacle, world.source isInputRead path = .error (.unreadable path obstacle) ∧
        world.Bars path obstacle := by
  by_cases input : path = "-"
  · subst input
    exact Or.inl ⟨_, rfl, fun _ bars => bars.1 rfl⟩
  · have asked : world.source isInputRead path = world.system.source path := by
      rw [source, standardInput, if_neg (by simpa using input)]
    rw [asked, FileSystem.source, if_neg (by simpa using nameable)]
    cases found : world.system.read (Path.ofText path) with
    | ok content =>
        exact Or.inl ⟨content, rfl, fun obstacle bars => nomatch found.symm.trans bars.2⟩
    | error obstacle => exact Or.inr ⟨obstacle, rfl, input, found⟩

/-- Writing the log does not bar a path, nor does it open one. -/
theorem bars_after (world : World) (work : List Action) {obstacle : Obstacle} :
    (world.after work).Bars path obstacle ↔ world.Bars path obstacle := by
  have alike : (world.after work).system.Resembles world.system := by
    unfold after
    cases world.logging with
    | none => exact .refl world.system
    | some logging => exact Transcript.resembles_written _ world.system
  exact and_congr_right fun _ => alike.read_eq_error

/-- A log that goes to no file leaves all files as they are. -/
theorem after_of_unfiled {logging : LogSettings} (set : world.logging = some logging)
    (unfiled : ∀ output ∈ logging.outputs, ∀ path, output.destination ≠ .file path)
    {work : List Action} (keeps : ∀ action ∈ work, action.Keeps)
    (unsaid : ∀ path, (Action.allSaid work).texts (.file path) = []) :
    world.after work = world := by
  have none (path : String) : ((Session.run false {} (.configure logging :: work)).transcript
      world.time).texts (.file path) = [] := by
    have other : Channel.file path ≠ .stderr := nofun
    refine (Session.shown_configured keeps other (fun output member same => ?_) _).trans
      (unsaid path)
    cases found : output.destination with
    | file other => exact unfiled output member other found
    | stdout | stderr =>
        rw [found] at same
        cases same
  unfold after
  split
  · rfl
  · rename_i other also
    cases set.symm.trans also
    dsimp only
    rw [Transcript.written_of_unfiled none]

end World

theorem unreadable_eq (path : String) (obstacle : Obstacle) :
    unreadable path obstacle =
      .say .stderr ("ERROR: Cannot open path '" ++ path ++ "': " ++ obstacle.text ++ "\n") := by
  simp only [unreadable, errorLine, Report.sourceUnreadable, String.append_assoc]
  rfl

namespace Gathering

/-- A gathering goes on with some documents, nothing breaking it off. -/
structure Extends (before after : Gathering) (requests : List Request) : Prop where
  index : before.index.collectAll requests = .ok after.index
  failures : after.failures = before.failures + (requests.filterMap Request.report?).length
  actions : after.actions = before.actions ++ requests.flatMap Request.actions
  breach : after.breach = before.breach

namespace Extends

variable {before middle after : Gathering} {first later : List Request}

theorem refl (state : Gathering) : Extends state state [] :=
  ⟨rfl, rfl, (List.append_nil _).symm, rfl⟩

theorem trans (begins : Extends before middle first) (goesOn : Extends middle after later) :
    Extends before after (first ++ later) where
  index := by rw [Index.collectAll_append, begins.index, Except.bind, goesOn.index]
  failures := by
    rw [goesOn.failures, begins.failures, List.filterMap_append, List.length_append, Nat.add_assoc]
  actions := by rw [goesOn.actions, begins.actions, List.flatMap_append, List.append_assoc]
  breach := goesOn.breach.trans begins.breach

/-- What is left to collect is collected into the index reached. -/
theorem collectAll_rest (begins : Extends before middle first) :
    before.index.collectAll (first ++ later) = middle.index.collectAll later := by
  rw [Index.collectAll_append, begins.index]
  rfl

end Extends

theorem extends_addContent (state : Gathering) (rules : Rules) (path : String)
    (content : ByteArray) {index : Index}
    (collected : Request.into ⟨rules, path, .bytes content.data.toList⟩ state.index = .ok index) :
    Extends state (state.addContent rules path content)
      [⟨rules, path, .bytes content.data.toList⟩] := by
  have alone : state.index.collectAll [⟨rules, path, .bytes content.data.toList⟩] = .ok index := by
    rw [Index.collectAll_cons, collected]
    rfl
  have actions := Request.actions_eq ⟨rules, path, .bytes content.data.toList⟩ state.index
  unfold Request.into at collected
  cases parsed : (Document.Content.bytes content.data.toList).parse with
  | ok file =>
      have report : Request.report? ⟨rules, path, .bytes content.data.toList⟩ = none := by
        rw [Request.report?, parsed]
      simp only [Index.collect, parsed] at collected actions
      unfold addContent
      simp only [Index.collect, parsed]
      generalize state.index.collectFile rules path file = progress at collected actions ⊢
      cases whole : progress.oversized with
      | some digits =>
          rw [whole] at collected
          cases collected
      | none =>
          rw [whole] at collected
          refine ⟨alone.trans collected.symm, ?_, ?_, rfl⟩
          · rw [List.filterMap_cons_none report]
            rfl
          · rw [List.flatMap_singleton, actions]
            simp
  | error error =>
      have report : Request.report? ⟨rules, path, .bytes content.data.toList⟩ =
          some ("ERROR: Could not parse '" ++ path ++ "': " ++ error.message ++ "\n") := by
        rw [Request.report?, parsed]
      simp only [Index.collect, parsed, Except.ok.injEq] at collected actions
      unfold addContent
      simp only [Index.collect, parsed]
      refine ⟨alone.trans (congrArg _ collected.symm), ?_, ?_, rfl⟩
      · rw [List.filterMap_cons_some report]
        rfl
      · rw [List.flatMap_singleton, actions]
        simp

theorem addContent_isInputRead (state : Gathering) (rules : Rules) (path : String)
    (content : ByteArray) : (state.addContent rules path content).isInputRead =
      (state.isInputRead || path == standardInput) := by
  unfold addContent
  dsimp only
  split <;> rfl

variable {around : List Action → World} {rules : Rules} {state : Gathering} {path : String}
  {rest : List String}

theorem addAll_read {content : ByteArray}
    (found : (around state.actions).source state.isInputRead path = .ok content)
    (whole : (state.addContent rules path content).breach = none) :
    addAll around rules state (path :: rest) =
      addAll around rules (state.addContent rules path content) rest := by
  have added : state.add around rules path = state.addContent rules path content := by
    rw [add, found]
  rw [addAll, added, whole]
  rfl

theorem addAll_barred {obstacle : Obstacle} (found :
      (around state.actions).source state.isInputRead path = .error (.unreadable path obstacle)) :
    addAll around rules state (path :: rest) =
      { state with
        actions := state.actions ++ [Command.unreadable path obstacle]
        breach := some .unreadable } := by
  rw [addAll, add, found]
  rfl

/-- Sources are gathered as far as they can be read. The first one that cannot be ends the work,
with a report of its own. -/
theorem addAll_cases {world : World} {paths : List String} {index : Index}
    (steady : ∀ work {path obstacle}, (around work).Bars path obstacle ↔ world.Bars path obstacle)
    (whole : state.breach = none) (nameable : ∀ path ∈ paths, '\x00' ∉ path.toList)
    (collected : state.index.collectAll
      (requests around rules state.actions state.isInputRead paths) = .ok index) :
    ∃ after, Extends state after (requests around rules state.actions state.isInputRead paths) ∧
      ((∀ path ∈ paths, ∀ obstacle, ¬world.Bars path obstacle) ∧
          (requests around rules state.actions state.isInputRead paths).map Request.path = paths ∧
          addAll around rules state paths = after ∨
        ∃ path ∈ paths, ∃ obstacle, world.Bars path obstacle ∧
          addAll around rules state paths =
            { after with
              actions := after.actions ++ [Command.unreadable path obstacle]
              breach := some .unreadable }) := by
  induction paths generalizing state with
  | nil => exact ⟨state, .refl state, Or.inl ⟨List.forall_mem_nil _, rfl, rfl⟩⟩
  | cons path rest ih =>
      obtain ⟨first, others⟩ := List.forall_mem_cons.mp nameable
      have asked := World.source_cases first (around state.actions) state.isInputRead
      simp only [steady] at asked
      rcases asked with ⟨content, found, readable⟩ | ⟨obstacle, found, bars⟩
      · have here : requests around rules state.actions state.isInputRead (path :: rest) =
            [⟨rules, path, .bytes content.data.toList⟩] ++
              requests around rules (state.actions ++
                Request.actions ⟨rules, path, .bytes content.data.toList⟩)
                (state.addContent rules path content).isInputRead rest := by
          rw [requests, found, addContent_isInputRead]
          rfl
        rw [here] at collected ⊢
        obtain ⟨middle, into⟩ := Index.into_of_collectAll collected
        have begins := extends_addContent state rules path content into
        -- The rest is collected into the index that this document leaves.
        rw [begins.collectAll_rest] at collected
        have unbroken := begins.breach.trans whole
        have actions := begins.actions
        rw [List.flatMap_singleton] at actions
        rw [addAll_read found unbroken]
        rw [← actions] at collected ⊢
        obtain ⟨after, goesOn, ends⟩ := ih unbroken others collected
        refine ⟨after, begins.trans goesOn, ?_⟩
        rcases ends with ⟨all, paths, same⟩ | ⟨other, member, obstacle, bars, same⟩
        · refine Or.inl ⟨List.forall_mem_cons.mpr ⟨readable, all⟩, ?_, same⟩
          rw [List.map_append, paths]
          rfl
        · exact Or.inr ⟨other, List.mem_cons_of_mem _ member, obstacle, bars, same⟩
      · have none : requests around rules state.actions state.isInputRead (path :: rest) = [] := by
          rw [requests, found]
        rw [none, addAll_barred found]
        exact ⟨state, .refl state, Or.inr ⟨path, List.mem_cons_self, obstacle, bars, rfl⟩⟩

theorem closing_eq {state : Gathering} (some : state.failures ≠ 0) :
    state.closing = (closingLines state.failures).map (.say .stderr) ++
      [.log (statusEvent (counted state.failures "file" none ++ " could not be parsed")
        "warning")] := by
  have text := statusText_warning (printable_failures state.failures)
  rw [closing, if_neg some]
  simp only [status, text, closingLines, if_neg some, String.append_assoc]
  rfl

/-- How many documents could not be parsed is said at the end, if there are any. -/
theorem said_closing (state : Gathering) :
    Action.allSaid state.closing = (closingLines state.failures).map (Channel.stderr, ·) := by
  by_cases none : state.failures = 0
  · rw [closing, closingLines, if_pos none, if_pos none, Action.allSaid, List.map_nil]
  · rw [closing_eq none, Action.allSaid_append, Action.allSaid_say, Action.allSaid, Action.said_log,
      Action.allSaid, List.append_nil, List.append_nil]

theorem keeps_closing (state : Gathering) : ∀ action ∈ state.closing, action.Keeps := by
  by_cases none : state.failures = 0
  · rw [closing, if_pos none]
    exact List.forall_mem_nil _
  · rw [closing_eq none, List.forall_mem_append, List.forall_mem_map]
    exact ⟨fun _ _ => .say _ _, List.forall_mem_singleton.mpr (.log _)⟩

theorem keeps_print (state : Gathering) (indent : Option Nat) :
    ∀ action ∈ (state.print indent).actions, action.Keeps := by
  unfold print
  split
  · exact List.forall_mem_singleton.mpr (.say _ _)
  · exact List.forall_mem_nil _

end Gathering

/-! ### Working through files -/

section

variable (isTerminal isForced : Bool) (description : String) (total : Nat) (work : List Action)
  (isFinished : Bool)

/-- A display or lines of the log go with the work; they say nothing themselves. -/
theorem said_track : Action.allSaid (track isTerminal isForced description total work isFinished) =
    Action.allSaid work := by
  unfold track
  split
  · rw [Action.allSaid, Action.said, Action.allSaid, List.append_nil]
  · rw [Action.allSaid_append, Action.allSaid_append, Action.allSaid, Action.said_log,
      Action.allSaid]
    cases isFinished <;> simp [Action.allSaid, Action.said_log]

theorem keeps_track {work : List Action} (keeps : ∀ action ∈ work, action.Keeps) :
    ∀ action ∈ track isTerminal isForced description total work isFinished, action.Keeps := by
  unfold track
  split
  · exact List.forall_mem_singleton.mpr (.quietly keeps)
  · simp only [List.forall_mem_append]
    refine ⟨⟨List.forall_mem_singleton.mpr (.log _), keeps⟩, ?_⟩
    cases isFinished with
    | true => exact List.forall_mem_singleton.mpr (.log _)
    | false => exact List.forall_mem_nil _

end

theorem said_worked (world : World) (expansion : Expansion) (work : List Action)
    (isFinished : Bool) :
    Action.allSaid (worked world expansion work isFinished) = Action.allSaid work := by
  rw [worked, Action.allSaid_append, Action.allSaid_log, said_track, List.nil_append]

theorem keeps_worked (world : World) (expansion : Expansion) {work : List Action}
    (isFinished : Bool) (keeps : ∀ action ∈ work, action.Keeps) :
    ∀ action ∈ worked world expansion work isFinished, action.Keeps :=
  List.forall_mem_append.mpr ⟨Action.keeps_log _, keeps_track _ _ _ _ _ keeps⟩

/-- If no work changes the world, all documents are read from the world as it was. -/
theorem requests_of_steady {around : List Action → World} {world : World} (rules : Rules)
    (steady : ∀ done : List Request, around (done.flatMap Request.actions) = world)
    (done : List Request) (work : List Action) (isInputRead : Bool) (paths : List String) :
    requests around rules (done.flatMap Request.actions) isInputRead paths =
      requests (fun _ => world) rules work isInputRead paths := by
  induction paths generalizing done work isInputRead with
  | nil => rfl
  | cons path rest ih =>
      rw [requests, requests, steady done]
      cases world.source isInputRead path with
      | error failure => rfl
      | ok content =>
          have longer := ih (done ++ [⟨rules, path, .bytes content.data.toList⟩])
          rw [List.flatMap_append, List.flatMap_singleton] at longer
          exact congrArg _ (longer _ _)

section

variable {world : World} {settings : IndexSettings} {rules : Rules} {given : List String}
  {expansion : Expansion} (expands : Expansion.ofPaths world.system settings given = expansion)
  (whole : expansion.refusal = none)

include expands whole

theorem gather_barred (indent : Option Nat) {state : Gathering}
    (added : Gathering.addAll (world.during expansion) rules {} expansion.paths = state)
    (barred : state.breach = some .unreadable) :
    gather world settings rules indent given =
      .ended (worked world expansion state.actions false) 2 := by
  subst expands added
  simp only [gather, whole, barred]
  rfl

theorem gather_read (indent : Option Nat) {state : Gathering}
    (added : Gathering.addAll (world.during expansion) rules {} expansion.paths = state)
    (unbroken : state.breach = none) :
    gather world settings rules indent given = (state.print indent).after
      (worked world expansion state.actions true ++ state.closing) := by
  subst expands added
  simp only [gather, whole, unbroken]
  rfl

/-- The outcome of indexing sources. If one of them cannot be read, nothing is said but the reports
up to it; otherwise the index is printed behind the reports. -/
theorem gather_cases {indent : Option Nat} {index : Index}
    (nameable : ∀ path ∈ expansion.paths, '\x00' ∉ path.toList)
    (collected : ({} : Index).collectAll
      (requests (world.during expansion) rules [] false expansion.paths) = .ok index) :
    let paths := expansion.paths
    let requests := requests (world.during expansion) rules [] false paths
    let reports := requests.filterMap Request.report?
    let outcome := gather world settings rules indent given
    (∀ action ∈ outcome.actions, action.Keeps) ∧
      ((∃ path ∈ paths, ∃ obstacle, world.Bars path obstacle ∧ outcome.exitCode = 2 ∧
          outcome.crash = none ∧ Action.allSaid outcome.actions =
            (reports ++ ["ERROR: Cannot open path '" ++ path ++ "': " ++ obstacle.text ++
              "\n"]).map (.stderr, ·)) ∨
        (∀ path ∈ paths, ∀ obstacle, ¬world.Bars path obstacle) ∧
          requests.map Request.path = paths ∧
          ∀ json, index.toJson? indent = some json → outcome.exitCode = 0 ∧ outcome.crash = none ∧
            Action.allSaid outcome.actions =
              (reports ++ closingLines reports.length).map (.stderr, ·) ++
                [(.stdout, json ++ "\n")]) := by
  intro paths requests reports outcome
  have fresh : ({} : Gathering).breach = none := rfl
  have steady (work : List Action) {path : String} {obstacle : Obstacle} :
      (world.during expansion work).Bars path obstacle ↔ world.Bars path obstacle :=
    world.bars_after (worked world expansion work false)
  obtain ⟨after, gathers, ends⟩ := Gathering.addAll_cases steady fresh nameable collected
  have index : after.index = index := Except.ok.inj (gathers.index.symm.trans collected)
  have failures : after.failures = reports.length := gathers.failures.trans (Nat.zero_add _)
  have actions : after.actions = requests.flatMap Request.actions := gathers.actions
  have keeps : ∀ action ∈ after.actions, action.Keeps := by
    rw [actions, List.forall_mem_flatMap]
    exact fun request _ => request.keeps_actions
  have said : Action.allSaid after.actions = reports.map (Channel.stderr, ·) :=
    actions ▸ Request.said_allActions requests
  rcases ends with ⟨readable, all, same⟩ | ⟨path, member, obstacle, bars, same⟩
  · have ended := gather_read expands whole indent same gathers.breach
    refine ⟨?keeps, Or.inr ⟨readable, all, fun json writes => ?prints⟩⟩
    case keeps =>
      rw [show outcome = _ from ended]
      exact List.forall_mem_append.mpr ⟨List.forall_mem_append.mpr
        ⟨keeps_worked _ _ true keeps, after.keeps_closing⟩, after.keeps_print indent⟩
    case prints =>
      rw [show outcome = _ from ended, Gathering.print, index, writes]
      refine ⟨rfl, rfl, ?_⟩
      simp only [Outcome.after, Outcome.ended, Action.allSaid_append, said_worked, said,
        Gathering.said_closing, failures, List.map_append]
      rw [Action.allSaid, Action.said, Action.allSaid]
      rfl
  · have ended := gather_barred expands whole indent same rfl
    rw [unreadable_eq] at ended
    refine ⟨?keeps, Or.inl ⟨path, member, obstacle, bars, ?ends⟩⟩
    case keeps =>
      rw [show outcome = _ from ended]
      exact keeps_worked _ _ false (List.forall_mem_append.mpr
        ⟨keeps, List.forall_mem_singleton.mpr (.say _ _)⟩)
    case ends =>
      rw [show outcome = _ from ended]
      refine ⟨rfl, rfl, ?_⟩
      simp only [Outcome.ended, said_worked, Action.allSaid_append, said, List.map_append]
      rw [Action.allSaid, Action.said, Action.allSaid]
      rfl

end

end Command

end ConfigIndex
