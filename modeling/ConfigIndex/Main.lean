import ConfigIndex.Command.Program
import ConfigIndex.Log.Clock
import Std.Time.DateTime.Timestamp

/-!
The command line: it looks up what the arguments may refer to, runs the program on that, and writes
what came of it.
-/

namespace ConfigIndex.Main

/-- Reads what stands at a path, a folder with all that is below it. Inside a folder, links to
folders are not followed, and of what is no file nothing is read. -/
partial def readEntry (path : String) (isInside : Bool) : IO (Option Entry) := do
  let place := (← IO.currentDir).join path
  match ← place.metadata.toBaseIO with
  | .error _ => return none
  | .ok data => match data.type with
    | .dir =>
      try
        let mut entries := []
        for found in ← place.readDir do
          let isLink := (← found.path.symlinkMetadata).type == .symlink
          match ← readEntry (path ++ "/" ++ found.fileName) true with
          | some entry =>
            if !(isLink && entry.isFolder) then entries := (found.fileName, entry) :: entries
          | none => pure ()
        return some (.folder entries)
      catch _ => return some .shut
    | .file =>
      try return some (.file (← IO.FS.readBinFile place))
      catch _ => return some (.sealed data.byteSize.toNat)
    | _ =>
      if isInside then return some (.special (.ok .empty))
      else
        try return some (.special (.ok (← IO.FS.readBinFile place)))
        catch _ => return some (.special (.error .noReader))

def isFolder (path : String) : IO Bool := do
  try
    discard ((← IO.currentDir).join path).readDir
    return true
  catch _ => return false

def look (system : FileSystem) (path : Path) : IO FileSystem := do
  let names := system.names path
  for count in List.range (names.length + 1) do
    let above : Path := ⟨1, names.take count⟩
    if count = names.length || !(← isFolder above.text) then
      return match ← readEntry above.text false with
        | none => system
        | some (.folder entries) =>
          if above.parts.isEmpty then { system with root := entries }
          else system.alter above fun _ => .folder entries
        | some other => system.alter above fun _ => other
  return system

def world (arguments : List String) : IO Command.World := do
  let here := Path.ofText (← IO.currentDir).toString
  let environment ←
    try pure (Environment.ofBlock (← IO.FS.readFile "/proc/self/environ")) catch _ => pure []
  let accounts ← try IO.FS.readFile "/etc/passwd" catch _ => pure ""
  let homes : Homes := ⟨← IO.getEnv "HOME", Homes.ofAccounts accounts⟩
  let userSettings := Command.userSettingsPath homes
  let settings := [userSettings, here.child Command.projectSettingsName]
  let start := ({ here := here } : FileSystem).addFolder here
  let system ← (settings ++ arguments.map Path.ofText).foldlM look start
  let input ←
    if Command.mayReadInput arguments then (← IO.getStdin).readBinToEnd else pure .empty
  let isTerminal ← (← IO.getStderr).isTty
  let now ← Std.Time.Timestamp.now
  let time := clockText now.toSecondsSinceUnixEpoch.val.toNat
  return { system, userSettings, environment, homes, input, isTerminal, time }

def write (channel : Channel) (text : String) : IO Unit := do
  match channel with
  | .stdout => (← IO.getStdout).putStr text
  | .stderr => (← IO.getStderr).putStr text
  | .file path =>
    let place := (← IO.currentDir).join path
    if let some folder := place.parent then IO.FS.createDirAll folder
    (← IO.FS.Handle.mk place .append).putStr text

end ConfigIndex.Main

open ConfigIndex in
def main (arguments : List String) : IO UInt32 := do
  let world ← Main.world arguments
  let outcome := Command.run world arguments
  for (channel, text) in outcome.transcript world.time do
    Main.write channel text
  if let some crash := outcome.crash then
    (← IO.getStderr).putStrLn crash.message
  return UInt32.ofNat outcome.exitCode
