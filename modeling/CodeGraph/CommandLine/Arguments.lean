import CodeGraph.Names.Order
import CodeGraph.Store.Connection

/-!
# Arguments

* `OptionSpec` — an option by its long and short name, and what may follow it.
* `readOptions?` — the options at the head of a list of arguments.
* `Invocation.ofArguments?` — the command that arguments ask for; there is none if they break a rule
  of usage.
-/

namespace CodeGraph

/-- What an option takes. -/
inductive OptionForm where
  /-- Nothing. -/
  | flag
  /-- A value, once. -/
  | value
  /-- A value that must not be empty, once. -/
  | path
  /-- A value, any number of times. -/
  | values
  deriving DecidableEq, Repr

/-- An option. -/
structure OptionSpec where
  long : String
  short : Option Char
  form : OptionForm
  deriving Repr

/-- The options that were given, each with its value. -/
abbrev GivenOptions := List (String × String)

namespace OptionSpec

/-- Whether an option may be given with a value after others. -/
def admits (o : OptionSpec) (given : GivenOptions) (value : String) : Bool :=
  (o.form = .values || (given.lookup o.long).isNone) && !(o.form = .path && value = "")

/-- Record an option. -/
def record? (o : OptionSpec) (given : GivenOptions) (value : String) : Option GivenOptions :=
  if o.admits given value then some (given ++ [(o.long, value)]) else none

/-- The value in the next argument; what looks like an option is none. -/
def nextValue? : List String → Option (String × List String)
  | [] => none
  | a :: rest => if a.toList.head? = some '-' && a ≠ "-" then none else some (a, rest)

end OptionSpec

/-- The options in a cluster of short names, and the arguments after it. -/
def readCluster? (specs : List OptionSpec) (given : GivenOptions) :
    List Char → List String → Option (GivenOptions × List String)
  | [], rest => some (given, rest)
  | c :: cs, rest => do
    let o ← specs.find? (·.short = some c)
    if o.form = .flag then readCluster? specs (← o.record? given "") cs rest
    else
      match cs with
      | [] =>
        let (value, rest) ← OptionSpec.nextValue? rest
        pure (← o.record? given value, rest)
      | '=' :: value => pure (← o.record? given (String.ofList value), rest)
      | value => pure (← o.record? given (String.ofList value), rest)

/-- The option of a long name, and the arguments after it. -/
def readLong? (specs : List OptionSpec) (given : GivenOptions) (word : List Char)
    (rest : List String) : Option (GivenOptions × List String) := do
  let name := String.ofList (word.takeWhile (· ≠ '='))
  let o ← specs.find? (·.long = name)
  match o.form, word.dropWhile (· ≠ '=') with
  | .flag, [] => pure (← o.record? given "", rest)
  | .flag, _ => none
  | _, _ :: value => pure (← o.record? given (String.ofList value), rest)
  | _, [] =>
    let (value, rest) ← OptionSpec.nextValue? rest
    pure (← o.record? given value, rest)

/-- The options at the head, up to the first argument that is none; `fuel` bounds their number. -/
def readOptions? (specs : List OptionSpec) :
    (fuel : Nat) → GivenOptions → List String → Option (GivenOptions × List String)
  | 0, _, _ => none
  | _ + 1, given, [] => some (given, [])
  | fuel + 1, given, a :: rest =>
    match a.toList with
    | ['-', '-'] => if rest.isEmpty then some (given, []) else none
    | '-' :: '-' :: word => do
      let (given, rest) ← readLong? specs given word rest
      readOptions? specs fuel given rest
    | '-' :: c :: cs => do
      let (given, rest) ← readCluster? specs given (c :: cs) rest
      readOptions? specs fuel given rest
    | _ => some (given, a :: rest)

/-! ### Commands -/

/-- What is to be done. -/
inductive Command where
  | analyze (path : String) (project : Option String) (dryRun : Bool) (threshold : Nat)
  | query (text : String) (params : List String)
  /-- Clear one project, or all. -/
  | clear (project : Option String)
  | stats (project : Option String)
  deriving Repr

/-- A command and the options that go with every command. -/
structure Invocation where
  settingsPath : Option String
  command : Command
  deriving Repr

namespace Invocation

/-- The options that go with every command. -/
def globalSpecs : List OptionSpec := [⟨"config", some 'c', .path⟩, ⟨"verbose", some 'v', .flag⟩]

/-- The options of a command. -/
def commandSpecs? : String → Option (List OptionSpec)
  | "analyze" => some [⟨"path", some 'p', .path⟩, ⟨"project", none, .value⟩,
      ⟨"dry-run", none, .flag⟩, ⟨"complexity-threshold", none, .value⟩]
  | "query" => some [⟨"query", some 'q', .value⟩, ⟨"param", none, .values⟩]
  | "clear" => some [⟨"project", none, .value⟩, ⟨"all", none, .flag⟩]
  | "stats" => some [⟨"project", none, .value⟩]
  | _ => none

/-- A whole number of thirty-two bits, with a sign or without. -/
def threshold? (s : String) : Option Nat := do
  let (negative, ds) := match s.toList with
    | '-' :: ds => (true, ds)
    | '+' :: ds => (false, ds)
    | ds => (false, ds)
  if ds.isEmpty || !ds.all Char.isDigit then none
  let n := Decimal.ofDigits ds
  if (negative && n ≠ 0) || 0x100000000 ≤ n then none else pure n

/-- The command of some options. -/
def command? (name : String) (given : GivenOptions) : Option Command := do
  let project := given.lookup "project"
  match name with
  | "analyze" =>
    let threshold ← threshold? ((given.lookup "complexity-threshold").getD "10")
    pure (.analyze (← given.lookup "path") project (given.lookup "dry-run").isSome threshold)
  | "query" =>
    pure (.query (← given.lookup "query") ((given.filter (·.1 = "param")).map (·.2)))
  | "clear" =>
    if project.isSome = (given.lookup "all").isSome then none else pure (.clear project)
  | "stats" => pure (.stats project)
  | _ => none

/-- The command that arguments ask for: options for every command may stand before its name or behind
it, and those behind it prevail. -/
def ofArguments? (arguments : List String) : Option Invocation := do
  match ← readOptions? globalSpecs (arguments.length + 1) [] arguments with
  | (before, name :: rest) =>
    let specs ← commandSpecs? name
    match ← readOptions? (globalSpecs ++ specs) (rest.length + 1) [] rest with
    | (given, []) =>
      let settingsPath := (given.lookup "config").or (before.lookup "config")
      pure ⟨settingsPath, ← command? name given⟩
    | _ => none
  | (_, []) => none

end Invocation

end CodeGraph
