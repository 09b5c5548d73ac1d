import CodeGraph.Decimal.Shortest
import CodeGraph.Text.Glob

/-!
# Settings

* `Settings` — one section for every stage of a run, each with its defaults.
* `Settings.check` — the first fault of the settings, in the order in which they are listed.
* `SettingsFault.message` — the fault in words.
-/

namespace CodeGraph

/-- How source files are found and read. -/
structure ReadingSettings where
  /-- Names of folders that are left out wherever they occur. -/
  ignoredFolders : List String := [".git", "node_modules", "testdata"]
  /-- Glob patterns of files that are left out. -/
  ignoredPatterns : List String := []
  includeTests : Bool := false
  includeVendor : Bool := false
  workers : Nat := 4
  deriving Inhabited

/-- What is analysed. -/
structure AnalysisSettings where
  /-- The greatest number of calls in a chain. -/
  chainDepth : Int := 8
  metrics : Bool := true
  cycles : Bool := true
  /-- Whether a call on an interface counts as a call of every implementation. -/
  dispatch : Bool := true
  deriving Inhabited

/-- Where the identities of nodes and relationships come from. -/
inductive IdentityPolicy where
  | random
  | contentAddressed
  deriving DecidableEq, Repr, Inhabited

/-- How long to wait before another attempt. -/
structure RetrySettings where
  attempts : Nat := 3
  initialDelay : Nat := 2000
  multiplier : Float := 2.0
  maxDelay : Nat := 10000
  deriving Inhabited

/-- Where the graph is stored, and how. -/
structure StoreSettings where
  address : String := "sqlite://gograph.db"
  username : Option String := none
  password : Option String := none
  batchSize : Nat := 1000
  retry : RetrySettings := {}
  deriving Inhabited

/-- What is logged. -/
structure LoggingSettings where
  level : String := "info"
  format : String := "pretty"
  deriving Inhabited

/-- All settings of a run. -/
structure Settings where
  reading : ReadingSettings := {}
  analysis : AnalysisSettings := {}
  identity : IdentityPolicy := .random
  store : StoreSettings := {}
  logging : LoggingSettings := {}
  deriving Inhabited

/-- What can be wrong with settings. -/
inductive SettingsFault where
  | noWorkers
  | badPattern (pattern : String) (fault : Text.Glob.Fault)
  | negativeDepth (depth : Int)
  | zeroBatchSize
  | noAttempts
  | badMultiplier (shown : String)
  deriving DecidableEq, Repr

def SettingsFault.message : SettingsFault → String
  | .noWorkers => "parser.max_workers must be at least 1"
  | .badPattern pattern fault =>
    "invalid ignore pattern '" ++ pattern ++ "': " ++ fault.message pattern
  | .negativeDepth depth => "analyzer.max_call_depth must not be negative, got " ++ toString depth
  | .zeroBatchSize => "store.batch_size must be at least 1"
  | .noAttempts => "store.retry.max_attempts must be at least 1"
  | .badMultiplier shown => "store.retry.multiplier must be >= 1.0, got " ++ shown

/-- The pieces of several patterns, or the first pattern that is faulty. -/
def parsePatterns : List String → Except SettingsFault (List (List Text.Glob.Piece))
  | [] => .ok []
  | p :: ps =>
    match Text.Glob.parse p with
    | .error f => .error (.badPattern p f)
    | .ok pieces => (parsePatterns ps).map (pieces :: ·)

/-- The analysis asks for no negative depth. -/
def AnalysisSettings.check (s : AnalysisSettings) : Except SettingsFault Unit :=
  if s.chainDepth < 0 then .error (.negativeDepth s.chainDepth) else .ok ()

/-- The settings of the store. -/
def StoreSettings.check (s : StoreSettings) : Except SettingsFault Unit :=
  if s.batchSize = 0 then .error .zeroBatchSize
  else if s.retry.attempts = 0 then .error .noAttempts
  else if s.retry.multiplier ≥ 1.0 then .ok ()
  else .error (.badMultiplier (Decimal.plainText s.retry.multiplier))

/-- The first fault of the settings. -/
def Settings.check (s : Settings) : Except SettingsFault Unit := do
  if s.reading.workers = 0 then throw .noWorkers
  let _ ← parsePatterns s.reading.ignoredPatterns
  s.analysis.check
  s.store.check

end CodeGraph
