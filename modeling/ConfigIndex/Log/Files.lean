import ConfigIndex.Files.Tree
import ConfigIndex.Settings.Model

/-!
The files that a log is written to. Setting up the log makes them, and the folders that they are
in; a file that is there already is kept and written on.
-/

namespace ConfigIndex

inductive LogFileFault
  | occupied (path : String)
  | blocked (path : String) (obstacle : Obstacle)
deriving DecidableEq, Repr

def LogFileFault.message : LogFileFault → String
  | .occupied path => "[Errno 17] File exists: " ++ Text.quoted path
  | .blocked path obstacle => obstacle.message path

namespace FileSystem

/-- Makes a folder and all folders on the way to it, also those that double dots leave again. -/
def addFolders (system : FileSystem) (path : Path) : FileSystem :=
  (List.range path.parts.length).foldl
    (fun system count => system.addFolder { path with parts := path.parts.take (count + 1) }) system

def openFolder (system : FileSystem) (path : Path) : Except LogFileFault FileSystem :=
  match system.find path with
  | .ok entry => if entry.isFolder then .ok system else .error (.occupied path.text)
  | .error .missing => .ok (system.addFolders path)
  | .error obstacle => .error (.blocked path.text obstacle)

def openLogFile (system : FileSystem) (path : Path) : Except LogFileFault FileSystem := do
  let system ← system.openFolder path.parent
  let direct : Path := { path with parts := system.names path }
  let blocked (obstacle : Obstacle) : Except LogFileFault FileSystem :=
    .error (.blocked direct.text obstacle)
  match system.find direct with
  | .ok (.folder _) | .ok .shut => blocked .isFolder
  | .ok (.sealed _) => blocked .denied
  | .ok (.special (.error obstacle)) => blocked obstacle
  | .error obstacle =>
    if obstacle.isAbsence then .ok (system.append direct .empty) else blocked obstacle
  | .ok _ => .ok (system.append direct .empty)

end FileSystem

/-- The outputs whose files could be opened, in their order up to the first fault. -/
structure OpenedOutputs where
  system : FileSystem
  outputs : List LogOutput := []
  fault : Option LogFileFault := none

def LogOutput.openAll (system : FileSystem) (before : List LogOutput) :
    List LogOutput → OpenedOutputs
  | [] => ⟨system, before, none⟩
  | output :: rest =>
    match output.destination with
    | .file path =>
      match system.openLogFile (Path.ofText path) with
      | .ok system => openAll system (before ++ [output]) rest
      | .error fault => ⟨system, before, some fault⟩
    | _ => openAll system (before ++ [output]) rest

def LogSettings.openFiles (settings : LogSettings) (system : FileSystem) : OpenedOutputs :=
  LogOutput.openAll system [] settings.outputs

end ConfigIndex
