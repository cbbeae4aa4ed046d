/-!
# Paths

A path is a text of names between slashes, and it is absolute when it begins with one. Joining and cutting paths works on their
texts: nothing is looked up, and `.` and `..` stay as they are written.
-/

namespace VersionChain.Files

/-- The name of a file or directory as it is written. -/
structure Path where
  text : String
deriving DecidableEq

namespace Path

/-- The texts between the slashes of a path. -/
def segments (p : Path) : List String := (p.text.toList.splitOn '/').map String.ofList

/-- The path with the given texts between its slashes. -/
def ofSegments (segments : List String) : Path := ⟨"/".intercalate segments⟩

/-- A path that begins with a slash. -/
def isAbsolute (p : Path) : Bool := p.text.toList.head? == some '/'

/-- A path that can be handed to a file system: the character zero cannot. -/
def isSound (p : Path) : Bool := !p.text.toList.contains '\x00'

/-- A path below another one. An absolute path stays what it is. -/
def join (p q : Path) : Path :=
  if q.isAbsolute || p.text.isEmpty then q
  else if p.text.toList.getLast? == some '/' then ⟨p.text ++ q.text⟩
  else ⟨p.text ++ "/" ++ q.text⟩

/-- A text between slashes that names nothing: nothing at all, or the directory itself. -/
def isIdle (segment : String) : Bool := segment == "" || segment == "."

/-- The texts of a list without the idle ones at its end. -/
def withoutIdleEnd (segments : List String) : List String := (segments.reverse.dropWhile isIdle).reverse

/-- The path up to its last name, which the root and the empty path do not have. -/
def parent? (p : Path) : Option Path :=
  match p.segments with
  | [] => none
  | first :: rest =>
    match withoutIdleEnd rest with
    | [] => if first == "" then none else some ⟨""⟩
    | named =>
      match withoutIdleEnd named.dropLast with
      | [] => some ⟨if first == "" then "/" else first⟩
      | above => some (ofSegments (first :: above))

end Path

end VersionChain.Files
