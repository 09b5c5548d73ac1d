import CodeGraph.CommandLine.Arguments
import CodeGraph.CommandLine.Text
import CodeGraph.Json.Reader
import CodeGraph.Settings.Document
import CodeGraph.Store.Disk
import CodeGraph.Store.Query

/-!
# Commands

* `World` — what a command finds: the disk, the time, and what identifiers are drawn from.
* `Command.run` — the lines that a command prints or the error it ends with, and the disk that it
  leaves.
* `execute` — the whole program on its arguments.
-/

namespace CodeGraph

/-- What a command finds. -/
structure World where
  disk : Disk
  now : Instant
  seed : List UInt8
  signal : Signal

/-- Lines to print, which may tell how many milliseconds the run took. -/
abbrev Lines := Nat → List String

/-- Lines that do not tell how long the run took. -/
def Lines.ofList (lines : List String) : Lines := fun _ => lines

/-- The lines printed, or an error with its causes. -/
abbrev Printed := Except (List String) Lines

/-- How a program ends. -/
structure Ending where
  code : Nat
  out : Lines
  err : String
  disk : Disk

/-- The settings in a file. -/
def settingsAt (d : Disk) (path : String) : Except (List String) Settings :=
  let failed (cause : String) : Except (List String) Settings :=
    .error ["failed to load config from " ++ path, cause]
  match d.tree.read path with
  | .error f => failed f.message
  | .ok content =>
    match Text.Utf8.decode? content with
    | none => failed "stream did not contain valid UTF-8"
    | some text =>
      match Settings.ofToml? text with
      | some s => .ok s
      | none => failed "TOML parse error"

/-- Parameters from texts `key=value`; what is no JSON value is taken as a text. -/
def paramsOf : List String → Except (List String) (List (String × Json))
  | [] => .ok []
  | pair :: rest =>
    let cs := pair.toList
    if cs.contains '=' then do
      let value := String.ofList ((cs.dropWhile (· ≠ '=')).drop 1)
      let others ← paramsOf rest
      pure ((String.ofList (cs.takeWhile (· ≠ '=')), (Json.read? value).getD (.text value)) :: others)
    else .error ["parameter '" ++ pair ++ "' is not KEY=VALUE"]

/-- The name of a project: the one given, or that of its folder. -/
def projectName (d : Disk) (path : String) (given : Option String) : String :=
  given.getD <|
    match d.tree.resolve path with
    | .ok place => (place.getLast?.map FileName.text).getD "unnamed"
    | .error _ => "unnamed"

/-- A session on a store that is open, and the disk that it leaves. -/
def World.onStore (w : World) (h : Handle) (s : Session ε Lines)
    (chain : ε → List String) : Printed × Disk :=
  let r := s.perform w.signal h.store
  (r.outcome.mapError chain, (h.update w.disk r.store).2)

/-- A session on the store of some settings. -/
def World.withStore (w : World) (settings : Settings) (s : Session StoreError Printed) :
    Printed × Disk :=
  match Handle.connect w.disk settings.store fun looks => w.signal looks 0 with
  | .error e => (.error e.chain, w.disk)
  | .ok h =>
    let r := s.perform w.signal h.store
    ((r.outcome.mapError StoreError.chain).bind id, (h.update w.disk r.store).2)

/-- The lines on a stored project. -/
def statsLines (s : Store) (projectId : String) (p : ProjectFigures) :
    Except StoreError (List String) := do
  let nodes ← NodeType.all.mapM fun t => do pure (t.word, ← s.countNodes projectId (some t))
  let relationships ← RelationshipType.all.mapM fun t => do
    pure (t.word, ← s.countRelationships projectId (some t))
  let lines (counts : List (String × Nat)) :=
    (counts.filter (0 < ·.2)).map fun (word, n) => "  " ++ labelColumn word ++ " " ++ toString n
  pure (p.lines ++ ["Nodes:"] ++ lines nodes ++ ["Relationships:"] ++ lines relationships)

namespace Command

/-- Run a command. -/
def run (w : World) (settings : Settings) : Command → Printed × Disk
  | analyze path project dryRun threshold =>
    let job : Job := ⟨projectName w.disk path project, w.disk.tree, path, settings, w.seed, w.now⟩
    if dryRun then
      ((((analyzeProject job).outcome w.signal).map fun a =>
        .ofList (a.report.lines threshold ++ jsonLines a.graph.summary.toJson)).mapError
          PipelineError.chain, w.disk)
    else
      match Handle.connect w.disk settings.store fun looks => w.signal looks 0 with
      | .error e => (.error ("failed to connect to graph store" :: e.chain), w.disk)
      | .ok h =>
        w.onStore h (do
          let (a, figures) ← Session.pipeline h.batchSize job
          pure fun elapsed => a.report.lines threshold ++ jsonLines a.graph.summary.toJson ++
            figures.lines elapsed) PipelineError.chain
  | query text params =>
    match paramsOf params with
    | .error e => (.error e, w.disk)
    | .ok params =>
      w.withStore settings do
        match Query.ofText? text with
        | some q =>
          let rows ← Session.query q params
          pure (.ok (.ofList (jsonLines (.ofList Row.toJson rows))))
        | none => Session.ofExcept (.error (.query (.badStatement text)))
  | clear project =>
    w.withStore settings do
      Session.createTables
      let figures ← match project with
        | some p => Session.clearProject p
        | none => Session.clearAll
      pure (.ok (.ofList ["Removed " ++ toString figures.nodes ++ " nodes and " ++
        toString figures.relationships ++ " relationships"]))
  | stats (some projectId) =>
    w.withStore settings do
      Session.createTables
      match ← Session.ask (·.projectFigures projectId) with
      | none => pure (.error ["project '" ++ projectId ++ "' not found"])
      | some p =>
        let lines ← Session.ask fun s => statsLines s projectId p
        pure (.ok (.ofList lines))
  | stats none =>
    w.withStore settings do
      Session.createTables
      let ps ← Session.ask Store.projects
      pure (.ok (.ofList (projectLines ps)))

end Command

namespace Invocation

/-- The settings of an invocation. -/
def settings (d : Disk) (i : Invocation) : Except (List String) Settings :=
  match i.settingsPath with
  | some path => settingsAt d path
  | none => .ok {}

/-- The place of the file in which the store of an invocation is kept, if it is kept in one. -/
def storePlace? (d : Disk) (i : Invocation) : Option (List FileName) := do
  match ← Endpoint.ofAddress? (← (i.settings d).toOption).store.address with
  | .file path => (d.placeOf path).toOption
  | .memory => none

/-- Run an invocation: settings are loaded and checked before anything is done. -/
def run (w : World) (i : Invocation) : Printed × Disk :=
  match i.settings w.disk with
  | .error e => (.error e, w.disk)
  | .ok settings =>
    match settings.check with
    | .error f => (.error ["invalid configuration", f.message], w.disk)
    | .ok _ => i.command.run w settings

end Invocation

/-- Run the program on its arguments. -/
def execute (w : World) (arguments : List String) : Ending :=
  match Invocation.ofArguments? arguments with
  | none => ⟨2, .ofList [], "", w.disk⟩
  | some i =>
    match i.run w with
    | (.ok lines, disk) => ⟨0, lines, "", disk⟩
    | (.error e, disk) => ⟨1, .ofList [], errorText e, disk⟩

end CodeGraph
