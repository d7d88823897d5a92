import ConfigIndex.Log.Session
import Mathlib.Data.List.Nodup
import Mathlib.Data.List.Range

/-!
Which outputs receive what is logged. Only the outputs that were set up last receive anything, each
of them every event once that is above its levels, but for consoles while they are kept quiet.
-/

namespace ConfigIndex

inductive Action.Keeps : Action → Prop
  | say (channel : Channel) (text : String) : Keeps (.say channel text)
  | log (event : Event) : Keeps (.log event)
  | installDefaults : Keeps .installDefaults
  | observe : Keeps .observe
  | quietly {actions : List Action} (inner : ∀ action ∈ actions, Keeps action) :
      Keeps (.quietly actions)

mutual

/-- The events that are logged by an action, each with whether the console is quiet meanwhile. -/
def Action.events (isQuiet : Bool) : Action → List (Bool × Event)
  | .log event => [(isQuiet, event)]
  | .quietly actions => Action.allEvents true actions
  | _ => []

def Action.allEvents (isQuiet : Bool) : List Action → List (Bool × Event)
  | [] => []
  | action :: rest => action.events isQuiet ++ Action.allEvents isQuiet rest

end

/-- An output is due an event: the event is above the level of the log and above that of the output,
if it has one, and no console has to be quiet. -/
structure LogOutput.Due (output : LogOutput) (settings : LogSettings) (isQuiet : Bool)
    (event : Event) : Prop where
  above : settings.level.rank ≤ event.level.rank
  aboveOwn : ∀ own ∈ output.level, own.rank ≤ event.level.rank
  heard : isQuiet = true → output.destination ≠ .stderr ∧ output.destination ≠ .stdout

instance (output : LogOutput) (settings : LogSettings) (isQuiet : Bool) (event : Event) :
    Decidable (output.Due settings isQuiet event) :=
  decidable_of_iff (_ ∧ _ ∧ _)
    ⟨fun due => ⟨due.1, due.2.1, due.2.2⟩, fun due => ⟨due.1, due.2, due.3⟩⟩

def Happening.receivedBy? (handler : Handler) : Happening → Option Event
  | .logged other event => if other = handler then some event else none
  | _ => none

namespace Session

def received (session : Session) (handler : Handler) : List Event :=
  session.happenings.filterMap (Happening.receivedBy? handler)

/-- What a handler is due of some events that are logged in a session. -/
def share (session : Session) (handler : Handler) (events : List (Bool × Event)) : List Event :=
  if handler ∈ session.handlers then
    (events.filter fun (isQuiet, event) =>
      session.level.rank ≤ event.level.rank && handler.takes isQuiet event).map Prod.snd
  else []

/-- A session goes on with the log set up as it was, and hands out some events. -/
structure Continues (before after : Session) (events : List (Bool × Event)) : Prop where
  settings : after.settings = before.settings
  handlers : after.handlers = before.handlers
  received : ∀ handler, after.received handler = before.received handler ++
    before.share handler events

theorem received_add (session : Session) (happenings : List Happening) (handler : Handler) :
    (session.add happenings).received handler =
      session.received handler ++ happenings.filterMap (Happening.receivedBy? handler) :=
  List.filterMap_append

theorem share_nil (session : Session) (handler : Handler) : session.share handler [] = [] := by
  rw [share]
  split <;> rfl

theorem share_append (session : Session) (handler : Handler) (first later : List (Bool × Event)) :
    session.share handler (first ++ later) =
      session.share handler first ++ session.share handler later := by
  simp only [share]
  split
  · rw [List.filter_append, List.map_append]
  · rfl

namespace Continues

variable {before middle after : Session} {first later : List (Bool × Event)}

theorem refl (session : Session) : Continues session session [] :=
  ⟨rfl, rfl, fun handler => by rw [share_nil, List.append_nil]⟩

theorem trans (begins : Continues before middle first) (goesOn : Continues middle after later) :
    Continues before after (first ++ later) where
  settings := goesOn.settings.trans begins.settings
  handlers := goesOn.handlers.trans begins.handlers
  received handler := by
    have same : middle.share handler later = before.share handler later := by
      rw [share, share, level, level, begins.settings, begins.handlers]
    rw [goesOn.received, begins.received, share_append, same, List.append_assoc]

/-- Whatever else happens is received by nobody. -/
theorem aside (session : Session) {happening : Happening}
    (other : ∀ handler, happening.receivedBy? handler = none) :
    Continues session (session.add [happening]) [] := by
  refine ⟨rfl, rfl, fun handler => ?_⟩
  rw [received_add, share_nil, List.filterMap_cons_none (other handler), List.filterMap_nil]

end Continues

/-- Each of some handlers, no two alike, receives what is handed to it once. -/
theorem receivedBy_handed {handlers : List Handler} (distinct : handlers.Nodup)
    (handler : Handler) (event : Event) :
    (handlers.map fun other => Happening.logged other event).filterMap
      (Happening.receivedBy? handler) = if handler ∈ handlers then [event] else [] := by
  induction handlers with
  | nil => rfl
  | cons first rest ih =>
      rw [List.nodup_cons] at distinct
      by_cases same : first = handler
      · have taken : (Happening.logged first event).receivedBy? handler = some event :=
          if_pos same
        rw [List.map_cons, List.filterMap_cons_some taken, ih distinct.2, ← same,
          if_neg distinct.1, if_pos List.mem_cons_self]
      · have passed : (Happening.logged first event).receivedBy? handler = none := if_neg same
        rw [List.map_cons, List.filterMap_cons_none passed, ih distinct.2]
        simp [Ne.symm same]

theorem continues_log (session : Session) (distinct : session.handlers.Nodup) (isQuiet : Bool)
    (event : Event) :
    Continues session (session.add (session.eventHappenings isQuiet event)) [(isQuiet, event)] := by
  refine ⟨rfl, rfl, fun handler => ?_⟩
  rw [received_add, eventHappenings, share]
  congr 1
  by_cases low : event.level.rank < session.level.rank
  · rw [if_pos low]
    simp [low]
  · rw [if_neg low]
    by_cases empty : session.handlers.isEmpty = true
    · rw [if_pos empty, List.isEmpty_iff.mp empty]
      split <;> simp [Happening.receivedBy?]
    · rw [if_neg empty, receivedBy_handed (distinct.filter _)]
      have high : session.level.rank ≤ event.level.rank := Nat.le_of_not_lt low
      by_cases listed : handler ∈ session.handlers <;>
        cases takes : handler.takes isQuiet event <;>
          simp [listed, takes, high]

mutual

theorem continues_act (session : Session) (distinct : session.handlers.Nodup) (isQuiet : Bool)
    (action : Action) (keeps : action.Keeps) :
    Continues session (session.act isQuiet action) (action.events isQuiet) := by
  match action, keeps with
  | .say channel text, .say _ _ =>
      rw [act, Action.events]
      · exact .aside session fun _ => rfl
      all_goals exact fun _ => Action.noConfusion
  | .log event, .log _ =>
      rw [act, Action.events]
      exact continues_log session distinct isQuiet event
  | .installDefaults, .installDefaults =>
      rw [act, Action.events]
      · exact .refl session
      all_goals exact fun _ => Action.noConfusion
  | .observe, .observe =>
      rw [act, Action.events]
      · exact .aside session fun _ => rfl
      all_goals exact fun _ => Action.noConfusion
  | .quietly actions, .quietly inner =>
      rw [act, Action.events]
      exact continues_run session distinct true actions inner

theorem continues_run (session : Session) (distinct : session.handlers.Nodup) (isQuiet : Bool)
    (actions : List Action) (keeps : ∀ action ∈ actions, action.Keeps) :
    Continues session (session.run isQuiet actions) (Action.allEvents isQuiet actions) := by
  match actions with
  | [] =>
      rw [run, Action.allEvents]
      exact .refl session
  | action :: rest =>
      obtain ⟨first, others⟩ := List.forall_mem_cons.mp keeps
      have begins := continues_act session distinct isQuiet action first
      rw [run, Action.allEvents]
      exact begins.trans (continues_run _ (begins.handlers ▸ distinct) isQuiet rest others)

end

/-! ### Setting up the log -/

theorem handlersOf_outputs (settings : LogSettings) (first : Nat) :
    (handlersOf settings first).map Handler.output = settings.outputs := by
  rw [handlersOf, List.map_map]
  exact List.map_fst_zip (by rw [List.length_range'])

theorem handlersOf_nodup (settings : LogSettings) (first : Nat) :
    (handlersOf settings first).Nodup := by
  have numbers : (handlersOf settings first).map Handler.number =
      List.range' first settings.outputs.length := by
    rw [handlersOf, List.map_map]
    exact List.map_snd_zip (by rw [List.length_range'])
  exact List.Nodup.of_map Handler.number (numbers ▸ List.nodup_range')

theorem handlersOf_level {settings : LogSettings} {first : Nat} {handler : Handler}
    (member : handler ∈ handlersOf settings first) :
    handler.level = handler.output.level.getD settings.level := by
  obtain ⟨_, _, rfl⟩ := List.mem_map.mp member
  rfl

/-- What passes the level of the log and then a handler is what its output is due. -/
theorem takes_iff_due {settings : LogSettings} {first : Nat} {handler : Handler}
    (member : handler ∈ handlersOf settings first) (isQuiet : Bool) (event : Event) :
    (settings.level.rank ≤ event.level.rank && handler.takes isQuiet event) = true ↔
      handler.output.Due settings isQuiet event := by
  have console : handler.output.destination.isConsole = false ↔
      handler.output.destination ≠ .stderr ∧ handler.output.destination ≠ .stdout := by
    cases handler.output.destination <;> simp [Destination.isConsole]
  rw [Handler.takes, handlersOf_level member]
  constructor
  · intro passes
    simp only [Bool.and_eq_true, decide_eq_true_eq, Bool.not_eq_true', Bool.and_eq_false_iff]
      at passes
    obtain ⟨above, own, quiet⟩ := passes
    refine ⟨above, fun level same => ?_, fun isQuiet => console.mp (quiet.resolve_left ?_)⟩
    · rwa [same] at own
    · rw [isQuiet]
      exact Bool.noConfusion
  · rintro ⟨above, aboveOwn, heard⟩
    have own : (handler.output.level.getD settings.level).rank ≤ event.level.rank := by
      cases given : handler.output.level with
      | none => exact above
      | some level => exact aboveOwn level given
    cases isQuiet with
    | false => simp [above, own]
    | true => simp [above, own, console.mpr (heard rfl)]

theorem received_configure (session : Session) (settings : LogSettings) (handler : Handler) :
    (session.configure settings).received handler = session.received handler := by
  have opened : ((settings.outputs.filterMap filePath?).map Happening.opened).filterMap
      (Happening.receivedBy? handler) = [] := by
    rw [List.filterMap_map]
    exact List.filterMap_eq_nil_iff.mpr fun _ _ => rfl
  rw [received, configure, List.filterMap_append, opened, List.append_nil]
  rfl

theorem received_configurations (session : Session) (isQuiet : Bool) (all : List LogSettings)
    (handler : Handler) :
    (session.run isQuiet (all.map .configure)).received handler = session.received handler := by
  induction all generalizing session with
  | nil => rw [List.map_nil, run]
  | cons settings rest ih => rw [List.map_cons, run, act, ih, received_configure]

theorem run_append (session : Session) (isQuiet : Bool) (first later : List Action) :
    session.run isQuiet (first ++ later) = (session.run isQuiet first).run isQuiet later := by
  induction first generalizing session with
  | nil => rw [List.nil_append, run]
  | cons action rest ih => rw [List.cons_append, run, run, ih]

/-- However often the log has been set up, each output of the last time receives the events that it
is due, once and in their order, and no other output receives anything. -/
theorem run_received (earlier : List LogSettings) (last : LogSettings) (actions : List Action)
    (keeps : ∀ action ∈ actions, action.Keeps) :
    let session := run false {} (earlier.map .configure ++ .configure last :: actions)
    session.handlers.map Handler.output = last.outputs ∧ session.handlers.Nodup ∧
      (∀ handler ∈ session.handlers, session.received handler =
        ((Action.allEvents false actions).filter fun (isQuiet, event) =>
          handler.output.Due last isQuiet event).map Prod.snd) ∧
      ∀ handler ∉ session.handlers, session.received handler = [] := by
  intro session
  let before := run false {} (earlier.map .configure)
  let start := before.configure last
  have handlers : start.handlers = handlersOf last before.installed := rfl
  have distinct : start.handlers.Nodup := handlersOf_nodup last before.installed
  have nothing (handler : Handler) : start.received handler = [] :=
    (received_configure before last handler).trans
      (received_configurations {} false earlier handler)
  have goesOn : Continues start session (Action.allEvents false actions) := by
    have whole : session = start.run false actions := by
      have unfolded : session =
          run false {} (earlier.map .configure ++ .configure last :: actions) := rfl
      rw [unfolded, run_append, run, act]
    exact whole ▸ continues_run start distinct false actions keeps
  refine ⟨?outputs, goesOn.handlers ▸ distinct, fun handler member => ?due,
    fun handler other => ?none⟩
  case outputs =>
    rw [goesOn.handlers]
    exact handlersOf_outputs last before.installed
  case due =>
    rw [goesOn.handlers] at member
    rw [goesOn.received, nothing, List.nil_append, share, if_pos member]
    congr 1
    refine List.filter_congr fun entry _ => ?_
    rw [Bool.eq_iff_iff, decide_eq_true_iff]
    exact takes_iff_due member entry.1 entry.2
  case none =>
    rw [goesOn.handlers] at other
    rw [goesOn.received, nothing, share, if_neg other, List.append_nil]

/-- A console and a file that takes warnings only, and blocks in which the console is quiet. -/
theorem run_received_nested :
    let file : LogOutput := { destination := .file "/log", level := some .warning }
    let last : LogSettings := { outputs := [{}, file] }
    let event (level : Level) (name : String) : Event := ⟨level, name, []⟩
    let actions : List Action := [.installDefaults, .log (event .debug "a"), .log (event .info "b"),
      .quietly [.log (event .warning "c"), .quietly [.log (event .info "d")],
        .log (event .error "e")], .log (event .critical "f")]
    let session := run false {} ([({} : LogSettings)].map .configure ++ .configure last :: actions)
    (∀ action ∈ actions, action.Keeps) ∧
      session.received ⟨1, {}, .info⟩ = [event .info "b", event .critical "f"] ∧
      session.received ⟨2, file, .warning⟩ =
        [event .warning "c", event .error "e", event .critical "f"] ∧
      session.received ⟨0, {}, .info⟩ = [] := by
  intro file last event actions session
  have keeps : ∀ action ∈ actions, action.Keeps := by
    simp only [actions, List.forall_mem_cons]
    refine ⟨.installDefaults, .log _, .log _, .quietly ?_, .log _, List.forall_mem_nil _⟩
    simp only [List.forall_mem_cons]
    exact ⟨.log _, .quietly (List.forall_mem_singleton.mpr (.log _)), .log _, List.forall_mem_nil _⟩
  obtain ⟨-, -, due, none⟩ := run_received [{}] last actions keeps
  have handlers : session.handlers = [⟨1, {}, .info⟩, ⟨2, file, .warning⟩] := rfl
  refine ⟨keeps, (due _ ?_).trans rfl, (due _ ?_).trans rfl, none _ ?_⟩
  all_goals rw [handlers]
  · exact List.mem_cons_self
  · exact List.mem_cons_of_mem _ List.mem_cons_self
  · decide

end Session

end ConfigIndex
