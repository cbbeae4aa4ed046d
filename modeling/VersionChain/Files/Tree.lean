import VersionChain.Files.System

/-!
# File trees

A file system held in memory: a tree of directories and files, seen from a working directory.
-/

namespace VersionChain.Files

/-- A file or a directory with all that is in it. -/
inductive Tree where
  | file (content : ByteArray)
  | directory (entries : List (String × Tree))

namespace Tree

/-- The empty directory. -/
def empty : Tree := .directory []

/-- What a file or directory is. -/
def kind : Tree → Kind
  | file _ => .file
  | directory _ => .directory

/-- The entry of a directory with a given name. -/
def child? (t : Tree) (name : String) : Except Fault Tree :=
  match t with
  | file _ => .error .notADirectory
  | directory entries =>
    if 255 < name.utf8ByteSize then .error .nameTooLong
    else
      match entries.lookup name with
      | some t => .ok t
      | none => .error .noSuchFile

/-- The directory with an entry put in, which replaces one of the same name. -/
def put (t : Tree) (name : String) (entry : Tree) : Tree :=
  match t with
  | file _ => .directory [(name, entry)]
  | directory entries =>
    if (entries.lookup name).isSome then
      .directory (entries.map fun (n, e) => if n == name then (n, entry) else (n, e))
    else .directory (entries ++ [(name, entry)])

/-- The tree with something put at a place below it; directories on the way to it are made. -/
def putAt (t : Tree) (entry : Tree) : List String → Tree
  | [] => entry
  | name :: rest => t.put name (putAt ((t.child? name).toOption.getD empty) entry rest)

/-- The tree without what is at a place below it. -/
def removeAt (t : Tree) : List String → Tree
  | [] => empty
  | [name] =>
    match t with
    | directory entries => .directory (entries.filter (·.1 != name))
    | file _ => t
  | name :: rest =>
    match t.child? name with
    | .ok below => t.put name (below.removeAt rest)
    | .error _ => t

/-- Goes along the texts of a path, given the directories passed on the way, the innermost first. -/
def walk : List Tree → Tree → List String → Except Fault Tree
  | _, t, [] => .ok t
  | above, t, segment :: rest =>
    match t with
    | file _ => .error .notADirectory
    | directory _ =>
      if Path.isIdle segment then walk above t rest
      else if segment == ".." then
        match above with
        | [] => walk [] t rest
        | outer :: above => walk above outer rest
      else do walk (t :: above) (← t.child? segment) rest

/-- The number of octets that a path may have. -/
def longestPath : Nat := 4095

/-- What is at a path, seen from a working directory of the tree. -/
def find (t : Tree) (workingDirectory : List String) (p : Path) : Except Fault Tree :=
  if p.text.isEmpty then .error .noSuchFile
  else if longestPath < p.text.utf8ByteSize then .error .nameTooLong
  else walk [] t (if p.isAbsolute then p.segments else workingDirectory ++ p.segments)

/-- The tree as a file system. -/
def system (t : Tree) (workingDirectory : List String) : System where
  kind? p := (t.find workingDirectory p).toOption.map kind
  entries p := do
    match ← t.find workingDirectory p with
    | file _ => .error .notADirectory
    | directory entries => .ok (entries.map fun (name, entry) => .ok ⟨name, .ok entry.kind⟩)
  read p := do
    match ← t.find workingDirectory p with
    | file content => .ok content
    | directory _ => .error .isADirectory

end Tree

end VersionChain.Files
