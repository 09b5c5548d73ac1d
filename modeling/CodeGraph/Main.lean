import CodeGraph.CommandLine.Run
import CodeGraph.Exchange.Tables
import Std.Time.DateTime.Timestamp

/-!
# The program

* `main` — runs one command.  Its disk is the working folder with all that lies below it, and a store
  is kept there as JSON in a file of its own.
* `treeOfFolder` reads that folder, `storesOf` and `keepStores` read and write the stores.
-/

namespace CodeGraph

/-- The files of which the content is read; of all others it is enough to know that they are there. -/
def isRead (settingsPath : Option String) (path : String) : Bool :=
  let steps (p : String) := (FileTree.steps p).filter (· ≠ FileName.ofText ".")
  Path.extension? path = some "go" || Path.fileName? path = some "go.mod" ||
    settingsPath.any (steps path = steps ·)

/-- The path of a place below the working folder. -/
def pathOf (place : List FileName) : String := Path.join (place.map FileName.text)

/-- The fault behind an error of the system. -/
def faultOf : IO.Error → AccessFault
  | .permissionDenied .. => .denied
  | _ => .failed

/-- The tree of a folder.  A link is kept as one from the working folder, which is at `here`. -/
partial def treeOfFolder (here : String) (read : String → Bool) (path : String) : IO FileTree := do
  let mut entries := #[]
  for e in ← (← IO.FS.realPath path).readDir do
    let inner := path ++ "/" ++ e.fileName
    let entry ← match (← e.path.symlinkMetadata).type with
      | .dir => try treeOfFolder here read inner catch e => pure (.lockedFolder (faultOf e))
      | .symlink =>
        try
          let target := (← IO.FS.realPath inner).toString
          pure (.link ((textBehind? here target).getD target))
        catch _ => pure (.link "/missing")
      | _ =>
        if read inner then
          try pure (.file (← IO.FS.readBinFile inner).toList)
          catch e => pure (.lockedFile (faultOf e))
        else pure (.file [])
    entries := entries.push (FileName.ofText e.fileName, entry)
  pure (.folder entries.toList)

/-- The store that is kept at a place, if there is one. -/
def storesOf (place : Option (List FileName)) : IO (List (List FileName × Store)) := do
  let some place := place | return []
  let path := pathOf place
  let content ← try some <$> IO.FS.readFile path catch _ => pure none
  match content with
  | none => return []
  | some text =>
    match (Json.read? text).bind Store.ofJson? with
    | some s => return [(place, s)]
    | none => throw (IO.userError (path ++ " is no store"))

/-- Write the stores of a disk to their files. -/
def keepStores (d : Disk) : IO Unit :=
  d.stores.forM fun (place, s) => IO.FS.writeFile (pathOf place) s.toJson.compact

/-- What is said of arguments that ask for nothing. -/
def usage : List String :=
  ["usage: [--config FILE] [--verbose] COMMAND",
    "  analyze --path FOLDER [--project ID] [--dry-run] [--complexity-threshold N]",
    "  query --query TEXT [--param KEY=VALUE]",
    "  clear --project ID | --all",
    "  stats [--project ID]"]

/-- Run the program on arguments in the working folder. -/
def runHere (arguments : List String) : IO UInt32 := do
  let started ← IO.monoMsNow
  let invocation := Invocation.ofArguments? arguments
  let settingsPath := invocation.bind (·.settingsPath)
  let here := (← IO.FS.realPath ".").toString
  let tree ← treeOfFolder here (isRead settingsPath) "."
  let stores ← storesOf (invocation.bind (·.storePlace? ⟨tree, []⟩))
  let now ← Std.Time.Timestamp.now
  let seed ← IO.getRandomBytes 16
  let world : World :=
    ⟨⟨tree, stores⟩, .sinceEpoch now.toNanosecondsSinceUnixEpoch.val.toNat, seed.toList, .never⟩
  let ending ← IO.lazyPure fun _ => execute world arguments
  keepStores ending.disk
  let lines := ending.out ((← IO.monoMsNow) - started)
  lines.forM (IO.println ·)
  if ending.err ≠ "" then IO.eprintln ending.err
  if ending.code = 2 then usage.forM (IO.eprintln ·)
  return UInt32.ofNat ending.code

end CodeGraph

/-- Run the command that the arguments ask for. -/
def main (arguments : List String) : IO UInt32 := CodeGraph.runHere arguments
