import VersionChain.Refusal

/-!
# Coordinates

A module is a group and a name. A request asks for a version of a module by a selector, a component is one version of a module.
Each has a written form with colons between its parts. A written module has exactly one colon; in a written request everything
after the second colon is the selector, and white space around it does not count.
-/

namespace VersionChain

/-- A module: what repositories list versions of. -/
structure Module where
  group : String
  name : String
deriving DecidableEq

/-- A request for a version of a module. -/
structure Request where
  group : String
  name : String
  selector : String
deriving DecidableEq

/-- One version of a module. -/
structure Component where
  group : String
  name : String
  version : String
deriving DecidableEq

namespace Module

/-- The written form `group:name`. -/
def text (m : Module) : String := m.group ++ ":" ++ m.name

/-- Reads a written module. -/
def ofText (text : String) : Except SelectorError Module :=
  match text.toList.splitOn ':' with
  | [group, name] =>
    if group.isEmpty || name.isEmpty then .error ⟨text, .notAModule⟩
    else .ok ⟨String.ofList group, String.ofList name⟩
  | _ => .error ⟨text, .notAModule⟩

end Module

namespace Request

/-- The written form `group:name:selector`. -/
def text (r : Request) : String := r.group ++ ":" ++ r.name ++ ":" ++ r.selector

/-- The module of a request. -/
def module (r : Request) : Module := ⟨r.group, r.name⟩

/-- The request for exactly the given version of the same module. -/
def pinned (r : Request) (version : String) : Request := { r with selector := version }

/-- The given version of the requested module. -/
def component (r : Request) (version : String) : Component := ⟨r.group, r.name, version⟩

/-- A text cut at its first colon. -/
def cut? (cs : List Char) : Option (List Char × List Char) :=
  match cs.dropWhile (· != ':') with
  | [] => none
  | _ :: rest => some (cs.takeWhile (· != ':'), rest)

/-- The parts of a written request, before any of them is examined. -/
def parts? (cs : List Char) : Option (List Char × List Char × List Char) := do
  let (group, rest) ← cut? cs
  let (name, selector) ← cut? rest
  return (group, name, Text.trimmed selector)

/-- Reads a written request. -/
def ofText (text : String) : Except SelectorError Request :=
  match parts? text.toList with
  | some (group, name, selector) =>
    if group.isEmpty || name.isEmpty || selector.isEmpty then .error ⟨text, .notARequest⟩
    else .ok ⟨String.ofList group, String.ofList name, String.ofList selector⟩
  | none => .error ⟨text, .notARequest⟩

end Request

namespace Component

/-- The written form `group:name:version`. -/
def text (c : Component) : String := c.group ++ ":" ++ c.name ++ ":" ++ c.version

/-- The module of a component. -/
def module (c : Component) : Module := ⟨c.group, c.name⟩

end Component

end VersionChain
