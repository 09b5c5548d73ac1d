import CodeGraph.Project.Path
import CodeGraph.Text.Utf8

/-!
# File trees

* `FileName` — a name as the file system has it, which need be no text.
* `FileTree` — files, folders and symbolic links; some files cannot be read and some folders cannot be
  listed.
* `FileTree.resolve` — the place a path leads to, links followed, and why it may lead nowhere.
* `FileTree.read` — the content of a file.
-/

namespace CodeGraph

/-- A name as the file system has it: bytes, which need be no text. -/
structure FileName where
  bytes : List UInt8
  deriving DecidableEq, Repr, Inhabited

namespace FileName

/-- The name that is written like that. -/
def ofText (s : String) : FileName := ⟨Text.Utf8.encode s⟩

instance : Coe String FileName := ⟨ofText⟩

/-- The name as it is shown; different names may be shown alike if they are no texts. -/
def text (n : FileName) : String := Text.Utf8.decode n.bytes

/-- Names are ordered by their bytes. -/
instance : Ord FileName := ⟨fun a b => compare a.bytes b.bytes⟩

instance : LT FileName := ltOfOrd

end FileName

/-- Why a path cannot be used. -/
inductive AccessFault where
  | notFound
  | notAFolder
  | isAFolder
  | tooManyLinks
  | denied
  | failed
  deriving DecidableEq, Repr

/-- The fault in the system's words, with its number. -/
def AccessFault.message : AccessFault → String
  | .notFound => "No such file or directory (os error 2)"
  | .notAFolder => "Not a directory (os error 20)"
  | .isAFolder => "Is a directory (os error 21)"
  | .tooManyLinks => "Too many levels of symbolic links (os error 40)"
  | .denied => "Permission denied (os error 13)"
  | .failed => "Input/output error (os error 5)"

/-- The fault as a walk reports it that meets it at a path. -/
def AccessFault.walkMessage (f : AccessFault) (path : String) : String :=
  "IO error for operation on " ++ path ++ ": " ++ f.message

/-- A file, a folder or a symbolic link. -/
inductive FileTree where
  | file (content : List UInt8)
  /-- A file that the system does not let be read. -/
  | lockedFile (fault : AccessFault)
  | folder (entries : List (FileName × FileTree))
  /-- A folder that the system lets neither be listed nor be entered. -/
  | lockedFolder (fault : AccessFault)
  | link (target : String)
  deriving Inhabited

namespace FileTree

/-- The entry of a folder. -/
def child? (name : FileName) : FileTree → Option FileTree
  | folder entries => entries.lookup name
  | _ => none

/-- What stands at a place, no links followed. -/
def at? : List FileName → FileTree → Option FileTree
  | [], t => some t
  | p :: ps, t => (t.child? p).bind (at? ps)

/-- Put something at a place; folders on the way are made, and what is in the way is replaced. -/
def insert : FileTree → List FileName → FileTree → FileTree
  | _, [], new => new
  | t, p :: ps, new =>
    let entries := match t with
      | folder entries => entries
      | _ => []
    let inner := insert ((entries.lookup p).getD (folder [])) ps new
    if (entries.lookup p).isSome then
      folder (entries.map fun (n, e) => if n = p then (n, inner) else (n, e))
    else folder (entries ++ [(p, inner)])

/-- What comes of reading a file; anything else is none. -/
def answer? : FileTree → Option (Except AccessFault (List UInt8))
  | file content => some (.ok content)
  | lockedFile fault => some (.error fault)
  | _ => none

/-- Why a folder cannot be listed. -/
def refusal? : FileTree → Option AccessFault
  | lockedFolder fault => some fault
  | _ => none

/-- Whether this is a folder. -/
def isFolder : FileTree → Bool
  | folder _ | lockedFolder _ => true
  | _ => false

/-- Whether this is a link. -/
def isLink : FileTree → Bool
  | link _ => true
  | _ => false

/-- The steps of a path.  A final slash asks for a folder, and so do `.` and `..`. -/
def steps (path : String) : List FileName :=
  let pieces := Path.splitFrom '/' [] path.toList
  ((pieces.filter (· ≠ "")) ++ (if pieces.getLast? = some "" then ["."] else [])).map .ofText

/-- How many links may be followed on the way to a place. -/
def linkLimit : Nat := 40

/-- Walk steps from a place up to the first link, and let `follow` walk on from there: the steps of
the link come before those after it. -/
def walk (root : FileTree)
    (follow : List FileName → List FileName → Except AccessFault (List FileName))
    (place : List FileName) : List FileName → Except AccessFault (List FileName)
  | [] => .ok place
  | step :: rest =>
    match root.at? place with
    | some (.folder entries) =>
      if step = "." then walk root follow place rest
      else if step = ".." then walk root follow place.dropLast rest
      else
        match entries.lookup step with
        | none => .error .notFound
        | some (.link target) =>
          follow (if target.toList.head? = some '/' then [] else place) (steps target ++ rest)
        | some _ => walk root follow (place ++ [step]) rest
    | some (.lockedFolder fault) => .error fault
    | some _ => .error .notAFolder
    | none => .error .notFound

/-- Walk steps from a place; `links` more links may be followed. -/
def resolveFrom (root : FileTree) :
    (links : Nat) → List FileName → List FileName → Except AccessFault (List FileName)
  | 0 => walk root fun _ _ => .error .tooManyLinks
  | links + 1 => walk root (resolveFrom root links)

/-- The place that steps lead to from the root, with every link followed. -/
def follow (root : FileTree) (steps : List FileName) : Except AccessFault (List FileName) :=
  resolveFrom root linkLimit [] steps

/-- The place a path leads to. -/
def resolve (root : FileTree) (path : String) : Except AccessFault (List FileName) :=
  root.follow (steps path)

/-- The content of the file a path leads to. -/
def read (root : FileTree) (path : String) : Except AccessFault (List UInt8) :=
  match root.resolve path with
  | .error f => .error f
  | .ok place =>
    match root.at? place with
    | some (.file content) => .ok content
    | some (.folder _) => .error .isAFolder
    | some (.lockedFile fault) | some (.lockedFolder fault) => .error fault
    | _ => .error .notFound

/-- Whether a place holds a folder. -/
def isFolderAt (root : FileTree) (place : List FileName) : Bool := (root.at? place).any isFolder

end FileTree

end CodeGraph
