import ConfigIndex.Proofs.Log.Session

/-!
What a program says apart from its log. It stands on the channels as it was said, among the lines of
the log; where no output of the log writes to, it stands alone.
-/

namespace ConfigIndex

mutual

def Action.said : Action → Transcript
  | .say channel text => [(channel, text)]
  | .quietly actions => Action.allSaid actions
  | _ => []

def Action.allSaid : List Action → Transcript
  | [] => []
  | action :: rest => action.said ++ Action.allSaid rest

end

def Happening.said? : Happening → Option (Channel × String)
  | .said channel text => some (channel, text)
  | _ => none

def Session.said (session : Session) : Transcript := session.happenings.filterMap Happening.said?

namespace Action

theorem allSaid_append (first later : List Action) :
    allSaid (first ++ later) = allSaid first ++ allSaid later := by
  induction first with
  | nil => rw [allSaid, List.nil_append, List.nil_append]
  | cons action rest ih => rw [List.cons_append, allSaid, allSaid, ih, List.append_assoc]

theorem said_log (event : Event) : (Action.log event).said = [] := by
  rw [said]
  all_goals nofun

theorem allSaid_log (events : List Event) : allSaid (events.map .log) = [] := by
  induction events with
  | nil => rw [List.map_nil, allSaid]
  | cons event rest ih => rw [List.map_cons, allSaid, ih, said_log, List.nil_append]

theorem allSaid_say (channel : Channel) (texts : List String) :
    allSaid (texts.map (.say channel)) = texts.map (channel, ·) := by
  induction texts with
  | nil => rw [List.map_nil, allSaid, List.map_nil]
  | cons text rest ih => rw [List.map_cons, allSaid, ih, said, List.map_cons, List.singleton_append]

theorem keeps_log (events : List Event) : ∀ action ∈ events.map Action.log, action.Keeps :=
  List.forall_mem_map.mpr fun event _ => .log event

end Action

namespace Transcript

def texts (transcript : Transcript) (channel : Channel) : List String :=
  (transcript.filter (·.1 = channel)).map (·.2)

theorem texts_append (first later : Transcript) (channel : Channel) :
    texts (first ++ later) channel = texts first channel ++ texts later channel := by
  rw [texts, List.filter_append, List.map_append]
  rfl

theorem texts_same (channel : Channel) (all : List String) :
    texts (all.map (channel, ·)) channel = all := by
  rw [texts, List.filter_eq_self.mpr]
  · rw [List.map_map]
    exact List.map_id all
  · intro entry member
    obtain ⟨text, -, rfl⟩ := List.mem_map.mp member
    exact decide_eq_true rfl

theorem texts_other {other channel : Channel} (apart : other ≠ channel) (all : List String) :
    texts (all.map (other, ·)) channel = [] := by
  rw [texts, List.filter_eq_nil_iff.mpr, List.map_nil]
  intro entry member
  obtain ⟨text, -, rfl⟩ := List.mem_map.mp member
  simpa using apart

end Transcript

/-- All that is said stands in the transcript, in its order. -/
theorem Session.said_sublist (session : Session) (time : String) :
    session.said.Sublist (session.transcript time) := by
  unfold said transcript
  induction session.happenings with
  | nil => exact .refl []
  | cons happening rest ih =>
      cases happening with
      | said channel text => exact ih.cons_cons (channel, text)
      | observed isQuiet => exact ih
      | opened path => exact ih.cons _
      | logged handler event => exact ih.cons _
      | unhandled event isConfigured => exact ih.cons _

namespace Session

structure Spares (session : Session) (channel : Channel) : Prop where
  other : channel ≠ .stderr
  handlers : ∀ handler ∈ session.handlers, handler.output.destination.channel ≠ channel

structure Speaks (before after : Session) (texts : Transcript) : Prop where
  handlers : after.handlers = before.handlers
  said : after.said = before.said ++ texts
  shown : ∀ time channel, before.Spares channel →
    (after.transcript time).texts channel =
      (before.transcript time).texts channel ++ texts.texts channel

namespace Speaks

variable {before middle after : Session} {first later : Transcript}

theorem refl (session : Session) : Speaks session session [] :=
  ⟨rfl, (List.append_nil _).symm, fun _ _ _ => (List.append_nil _).symm⟩

theorem trans (begins : Speaks before middle first) (goesOn : Speaks middle after later) :
    Speaks before after (first ++ later) where
  handlers := goesOn.handlers.trans begins.handlers
  said := by rw [goesOn.said, begins.said, List.append_assoc]
  shown time channel spares := by
    have still : middle.Spares channel := ⟨spares.other, begins.handlers ▸ spares.handlers⟩
    rw [goesOn.shown time channel still, begins.shown time channel spares,
      Transcript.texts_append, List.append_assoc]

theorem add (session : Session) {happenings : List Happening} {texts : Transcript}
    (said : happenings.filterMap Happening.said? = texts)
    (shown : ∀ time channel, session.Spares channel →
      Transcript.texts (happenings.filterMap (Happening.text? time)) channel =
        texts.texts channel) :
    Speaks session (session.add happenings) texts where
  handlers := rfl
  said := by rw [Session.said, Session.add, List.filterMap_append, said, Session.said]
  shown time channel spares := by
    rw [transcript, Session.add, List.filterMap_append, Transcript.texts_append,
      shown time channel spares, transcript]

end Speaks

theorem mem_eventHappenings {session : Session} {isQuiet : Bool} {event : Event}
    {happening : Happening} (member : happening ∈ session.eventHappenings isQuiet event) :
    (∃ isConfigured, happening = .unhandled event isConfigured) ∨
      ∃ handler ∈ session.handlers, happening = .logged handler event := by
  unfold eventHappenings at member
  split at member
  · cases member
  · split at member
    · split at member
      · exact Or.inl ⟨_, List.mem_singleton.mp member⟩
      · cases member
    · obtain ⟨handler, taken, rfl⟩ := List.mem_map.mp member
      exact Or.inr ⟨handler, (List.mem_filter.mp taken).1, rfl⟩

theorem speaks_log (session : Session) (isQuiet : Bool) (event : Event) :
    Speaks session (session.add (session.eventHappenings isQuiet event)) [] := by
  refine .add session (List.filterMap_eq_nil_iff.mpr fun happening member => ?said)
    fun time channel spares => ?shown
  case said =>
    obtain ⟨isConfigured, rfl⟩ | ⟨handler, -, rfl⟩ := mem_eventHappenings member <;> rfl
  case shown =>
    have elsewhere : ∀ entry ∈ (session.eventHappenings isQuiet event).filterMap
        (Happening.text? time), entry.1 ≠ channel := by
      intro entry member
      obtain ⟨happening, member, shows⟩ := List.mem_filterMap.mp member
      obtain ⟨isConfigured, rfl⟩ | ⟨handler, listed, rfl⟩ := mem_eventHappenings member
      · cases shows
        exact spares.other.symm
      · cases shows
        exact spares.handlers handler listed
    rw [Transcript.texts, List.filter_eq_nil_iff.mpr]
    · rfl
    · exact fun entry member same => elsewhere entry member (of_decide_eq_true same)

mutual

theorem speaks_act (session : Session) (isQuiet : Bool) (action : Action) (keeps : action.Keeps) :
    Speaks session (session.act isQuiet action) action.said := by
  match action, keeps with
  | .say channel text, .say _ _ =>
      rw [act, Action.said]
      exact .add session rfl fun _ _ _ => rfl
  | .log event, .log _ =>
      rw [act, Action.said_log]
      exact speaks_log session isQuiet event
  | .installDefaults, .installDefaults =>
      rw [act, Action.said]
      · exact .refl session
      all_goals nofun
  | .observe, .observe =>
      rw [act, Action.said]
      · exact .add session rfl fun _ _ _ => rfl
      all_goals nofun
  | .quietly actions, .quietly inner =>
      rw [act, Action.said]
      exact speaks_run session true actions inner

theorem speaks_run (session : Session) (isQuiet : Bool) (actions : List Action)
    (keeps : ∀ action ∈ actions, action.Keeps) :
    Speaks session (session.run isQuiet actions) (Action.allSaid actions) := by
  match actions with
  | [] =>
      rw [run, Action.allSaid]
      exact .refl session
  | action :: rest =>
      obtain ⟨first, others⟩ := List.forall_mem_cons.mp keeps
      rw [run, Action.allSaid]
      exact (speaks_act session isQuiet action first).trans (speaks_run _ isQuiet rest others)

end

/-! ### A log that is set up first -/

theorem channel_of_filePath? {output : LogOutput} {path : String}
    (found : filePath? output = some path) : output.destination.channel = .file path := by
  unfold filePath? at found
  split at found
  · rename_i same
    cases found
    rw [same]
    rfl
  · cases found

variable {settings : LogSettings} {actions : List Action}

theorem said_configured (settings : LogSettings) (keeps : ∀ action ∈ actions, action.Keeps) :
    (run false {} (.configure settings :: actions)).said = Action.allSaid actions := by
  have silent : (configure {} settings).said = [] := by
    rw [said, configure, List.nil_append, List.filterMap_map]
    exact List.filterMap_eq_nil_iff.mpr fun _ _ => rfl
  rw [run, act, (speaks_run _ false actions keeps).said, silent, List.nil_append]

theorem shown_configured (keeps : ∀ action ∈ actions, action.Keeps) {channel : Channel}
    (other : channel ≠ .stderr)
    (elsewhere : ∀ output ∈ settings.outputs, output.destination.channel ≠ channel)
    (time : String) :
    ((run false {} (.configure settings :: actions)).transcript time).texts channel =
      (Action.allSaid actions).texts channel := by
  have spares : (configure {} settings).Spares channel := by
    refine ⟨other, fun handler member => elsewhere _ ?_⟩
    rw [← handlersOf_outputs settings 0]
    exact List.mem_map_of_mem member
  -- Opening the files of the outputs leaves an entry for each of them, all on their channels.
  have opened : ((configure {} settings).transcript time).texts channel = [] := by
    rw [transcript, configure, List.nil_append, Transcript.texts, List.filter_eq_nil_iff.mpr,
      List.map_nil]
    intro entry member same
    obtain ⟨happening, opened, shows⟩ := List.mem_filterMap.mp member
    obtain ⟨path, named, rfl⟩ := List.mem_map.mp opened
    obtain ⟨output, listed, found⟩ := List.mem_filterMap.mp named
    cases shows
    refine elsewhere output listed ((channel_of_filePath? found).trans ?_)
    exact of_decide_eq_true same
  rw [run, act, (speaks_run _ false actions keeps).shown time channel spares, opened,
    List.nil_append]

end Session

end ConfigIndex
