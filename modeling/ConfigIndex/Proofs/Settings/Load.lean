import ConfigIndex.Proofs.Settings.Stable
import ConfigIndex.Settings.Load

/-!
Loading settings step by step. Settings are checked twice, and the second check never fails.
-/

namespace ConfigIndex

open Data (Fields)

theorem Settings.ofKnownFields_eq_ok {homes : Homes} {fields : Fields} {settings : Settings} :
    Settings.ofKnownFields homes fields = .ok settings ↔
      Settings.ofFields homes fields = .ok settings ∧ Settings.strangers fields = [] := by
  unfold Settings.ofKnownFields
  cases Settings.ofFields homes fields <;> cases Settings.strangers fields <;> simp

namespace Sources

theorem checked_eq_ok {homes : Homes} {showing : Nat} {fields : Fields} {settings : Settings} :
    checked homes showing fields = .ok settings ↔
      Settings.ofKnownFields homes fields = .ok settings := by
  unfold checked
  cases read : Settings.ofKnownFields homes fields with
  | ok accepted => simp
  | error issues =>
      have some := Settings.reasoned_ofKnownFields homes fields issues read
      cases issues with
      | nil => contradiction
      | cons issue others =>
          dsimp only
          split <;> simp

/-- What the first check accepts the second one leaves as it is. -/
theorem checked_bind_rechecked (homes : Homes) (showing : Nat) (fields : Fields) :
    (checked homes showing fields >>= rechecked homes) = checked homes showing fields := by
  cases read : checked homes showing fields with
  | error failure => rfl
  | ok settings =>
      have accepted := (Settings.ofKnownFields_eq_ok.mp (checked_eq_ok.mp read)).1
      have again := (Settings.settled_of_ofFields accepted).ofData_toData homes
      show rechecked homes settings = .ok settings
      rw [rechecked, again]

/-! ### The steps of loading -/

section

variable {sources : Sources}

theorem files_of_user {failure : LoadFailure}
    (failed : sources.user.read sources.reader = .error failure) :
    sources.files = .error failure := by
  simp only [files, failed, bind, Except.bind]

theorem files_of_project {user : Yaml.Document} {failure : LoadFailure}
    (userRead : sources.user.read sources.reader = .ok user)
    (failed : sources.project.read sources.reader = .error failure) :
    sources.files = .error failure := by
  simp only [files, userRead, failed, bind, Except.bind]

theorem files_of_read {user project : Yaml.Document}
    (userRead : sources.user.read sources.reader = .ok user)
    (projectRead : sources.project.read sources.reader = .ok project) :
    sources.files =
      if user.loops.meet project.loops (sources.stack.merging + 1) 0 0 then
        .error (.overrun (Data.tooDeepMessage ""))
      else .ok (Fields.merge user.fields project.fields, user.isNamed && project.isNamed) := by
  simp only [files, userRead, projectRead, bind, Except.bind]
  rfl

theorem loadWithin_of_files_error {failure : LoadFailure}
    (failed : sources.files = .error failure) : sources.loadWithin = .error failure := by
  simp only [loadWithin, failed, bind, Except.bind]

variable {files : Fields}

theorem load_of_variables {isNamed : Bool} {fault : Environment.Fault}
    (filesRead : sources.files = .ok (files, isNamed))
    (failed : sources.environment.toFields sources.stack.json = .error fault) :
    sources.load = .error (variableFailure fault) := by
  simp only [load, filesRead, failed, bind, Except.bind]

theorem loadWithin_of_variables {isNamed : Bool} {fault : Environment.Fault}
    (filesRead : sources.files = .ok (files, isNamed))
    (failed : sources.environment.toFields sources.stack.json = .error fault) :
    sources.loadWithin = .error (variableFailure fault) := by
  simp only [loadWithin, filesRead, failed, bind, Except.bind]
  exact load_of_variables filesRead failed

variable {environment : Fields}
  (environmentRead : sources.environment.toFields sources.stack.json = .ok environment)

include environmentRead

/-- Loading goes on as if the stack were endless, if laying the layers over one another does not
exhaust it. -/
theorem loadWithin_of_read {isNamed : Bool} (filesRead : sources.files = .ok (files, isNamed)) :
    sources.loadWithin =
      if sources.overlaps files environment then .error (.overrun (Data.tooDeepMessage ""))
      else sources.load := by
  simp only [loadWithin, filesRead, environmentRead, bind, Except.bind]
  rfl

theorem load_of_foreign (filesRead : sources.files = .ok (files, false)) :
    sources.load = .error .foreignKey := by
  simp only [load, filesRead, environmentRead, bind, Except.bind, Bool.false_eq_true, if_false]

theorem load_of_named (filesRead : sources.files = .ok (files, true)) :
    sources.load = checked sources.homes sources.stack.showing
      (layered files environment sources.overrides) := by
  rw [← checked_bind_rechecked]
  simp only [load, filesRead, environmentRead, bind, Except.bind, if_true]

end

end Sources

end ConfigIndex
