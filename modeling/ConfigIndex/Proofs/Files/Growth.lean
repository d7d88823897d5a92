import ConfigIndex.Files.Tree
import Mathlib.Data.List.Basic

/-!
Writing on files that are there. All paths lead where they led before, and what could not be read
cannot be read afterwards.
-/

namespace ConfigIndex

namespace Entry

mutual

/-- An entry with all files in it emptied. -/
def bare : Entry → Entry
  | file _ => file .empty
  | folder entries => folder (bareIn entries)
  | other => other

def bareIn : List (String × Entry) → List (String × Entry)
  | [] => []
  | (name, entry) :: rest => (name, entry.bare) :: bareIn rest

end

theorem bareIn_eq (entries : List (String × Entry)) :
    bareIn entries = entries.map fun entry => (entry.1, entry.2.bare) := by
  induction entries with
  | nil => rfl
  | cons entry rest ih => rw [bareIn, ih, List.map_cons]

-- By induction on the names, which lead one folder deeper each.
theorem bare_grow (bytes : ByteArray) (names : List String) (entry : Entry) :
    (grow bytes names entry).bare = entry.bare := by
  induction names generalizing entry with
  | nil => cases entry <;> rfl
  | cons name rest ih =>
      cases entry with
      | folder entries =>
          rw [grow, bare, bare, bareIn_eq, bareIn_eq, List.map_map]
          refine congrArg folder (List.map_congr_left fun entry _ => ?_)
          dsimp only [Function.comp_apply]
          split
          · rw [ih]
          · rfl
      | _ => rfl

theorem find?_bareIn (entries : List (String × Entry)) (name : String) :
    (bareIn entries).find? (·.1 == name) =
      (entries.find? (·.1 == name)).map fun entry => (entry.1, entry.2.bare) := by
  rw [bareIn_eq, List.find?_map]
  rfl

/-- The way through an entry does not depend on what the files hold. -/
theorem walk_bare (above : List Entry) (here : Entry) (names : List String) :
    walk (above.map bare) here.bare names = (walk above here names).map bare := by
  induction names generalizing above here with
  | nil => rfl
  | cons name rest ih =>
      cases here with
      | folder entries =>
          rw [bare, walk.eq_def, walk.eq_def]
          dsimp only
          split
          · cases above with
            | nil => exact ih [] (folder entries)
            | cons up above => exact ih above up
          · split
            · rfl
            · rw [find?_bareIn]
              cases entries.find? (·.1 == name) with
              | none => rfl
              | some found => exact ih (folder entries :: above) found.2
      | _ => rfl

theorem content_bare (entry : Entry) {obstacle : Obstacle} :
    entry.bare.content = .error obstacle ↔ entry.content = .error obstacle := by
  cases entry with
  | file content => exact iff_of_false nofun nofun
  | _ => rfl

end Entry

namespace FileSystem

/-- Two systems differ in nothing but what their files hold. -/
structure Resembles (system other : FileSystem) : Prop where
  here : system.here = other.here
  root : (Entry.folder system.root).bare = (Entry.folder other.root).bare

namespace Resembles

variable {system other third : FileSystem}

theorem refl (system : FileSystem) : Resembles system system := ⟨rfl, rfl⟩

theorem trans (first : Resembles system other) (later : Resembles other third) :
    Resembles system third :=
  ⟨first.here.trans later.here, first.root.trans later.root⟩

theorem find_bare (alike : Resembles system other) (path : Path) :
    (system.find path).map Entry.bare = (other.find path).map Entry.bare := by
  unfold find
  split
  · rfl
  · rw [← Entry.walk_bare [], ← Entry.walk_bare [], alike.root, alike.here]

theorem read_eq_error (alike : Resembles system other) {path : Path} {obstacle : Obstacle} :
    system.read path = .error obstacle ↔ other.read path = .error obstacle := by
  have same := alike.find_bare path
  unfold read
  cases here : system.find path with
  | error fault =>
      rw [here] at same
      cases there : other.find path with
      | error also =>
          rw [there] at same
          cases same
          rfl
      | ok entry =>
          rw [there] at same
          cases same
  | ok entry =>
      rw [here] at same
      cases there : other.find path with
      | error fault =>
          rw [there] at same
          cases same
      | ok also =>
          rw [there] at same
          have bare : entry.bare = also.bare := Except.ok.inj same
          exact (Entry.content_bare entry).symm.trans (bare ▸ Entry.content_bare also)

end Resembles

theorem resembles_grow (system : FileSystem) (path : Path) (bytes : ByteArray) :
    Resembles (system.grow path bytes) system := by
  have bare := Entry.bare_grow bytes (system.names path) (.folder system.root)
  unfold grow
  split
  · rename_i entries grown
    exact ⟨rfl, grown ▸ bare⟩
  · exact .refl system

end FileSystem

end ConfigIndex
