import VersionChain.Files.Fault
import VersionChain.Files.Path

/-!
# File systems

What a file system answers: what there is at a path, what a directory holds, and what a file holds. The entries of a directory
come in any order, and each of them may be beyond reach.
-/

namespace VersionChain.Files

/-- What can be at a path, and what an entry of a directory can be. A link shows only as an entry. -/
inductive Kind where
  | file
  | directory
  | link
  | other
deriving DecidableEq

/-- An entry of a directory. -/
structure Entry where
  name : String
  kind : Except Fault Kind

/-- The answers of a file system. -/
structure System where
  /-- What is at a path, links being followed; nothing if it cannot be reached. -/
  kind? : Path → Option Kind
  /-- The entries of a directory in the order in which they are enumerated. -/
  entries : Path → Except Fault (List (Except Fault Entry))
  /-- The content of a file. -/
  read : Path → Except Fault ByteArray

namespace System

/-- Whether there is anything at a path. -/
def exists? (s : System) (p : Path) : Bool := p.isSound && (s.kind? p).isSome

/-- Whether there is a file at a path. -/
def isFile (s : System) (p : Path) : Bool := p.isSound && s.kind? p == some .file

/-- The content of a file that holds a text. -/
def readText (s : System) (p : Path) : Except Fault String := do
  if !p.isSound then .error .zeroInName
  match String.fromUTF8? (← s.read p) with
  | some text => .ok text
  | none => .error .notText

/-- The names of the directories in a directory, in the order of enumeration. An entry that cannot be reached is an error. -/
def directories (s : System) (p : Path) : Except Fault (List String) := do
  if !p.isSound then .error .zeroInName
  let names ← (← s.entries p).mapM fun entry => do
    let entry ← entry
    return if (← entry.kind) = .directory then some entry.name else none
  return names.filterMap id

end System

end VersionChain.Files
