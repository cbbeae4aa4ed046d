import VersionChain.Yaml.Document

/-!
# Decoding documents

A decoder reads a value of a known shape out of a document: a text, a truth value, an optional value, a list or a record of named
fields. A text is any scalar, whatever it looks like. An empty plain scalar is also an empty list and a record without fields. A
record may have fields that nobody asks for, but none that is asked for twice.
-/

namespace VersionChain.Yaml

/-- A decoder counts how many aliases it has followed. -/
abbrev Decoder := StateT Nat (Except Error)

/-- A value inside a document, with the path that leads to it. -/
structure Place where
  document : Document
  path : Path := []
  node : Node

namespace Place

/-- The place of an item of a list. -/
def item (p : Place) (i : Nat) (node : Node) : Place := { p with path := p.path ++ [.index i], node }

/-- The place of a field's value. The path has no name for a key that is an alias. -/
def value (p : Place) (key : Node) (name : String) (node : Node) : Place :=
  let name := match key with
    | .aliasOf .. => "?"
    | _ => name
  { p with path := p.path ++ [.key name], node }

/-- An error about the shape of a value. -/
def fail {α : Type} (p : Place) (mark : Mark) (fault : ShapeFault) : Decoder α := throw (.shape p.path mark fault)

/-- The place with aliases followed. Their number is limited by the size of the document. -/
def followed (p : Place) : Decoder Place := do
  match p.node with
  | .aliasOf number _ =>
    let jumps := (← get) + 1
    set jumps
    if p.document.size * 100 < jumps then throw .tooManyAliases
    match p.document.target? number with
    | some node => return { p with node }
    | none => throw .tooManyAliases
  | .cut => throw (p.document.fault.getD .severalDocuments)
  | _ => return p

/-- An error about a value that is of another kind than the one expected. -/
def mismatch {α : Type} (p : Place) (expected : String) : Decoder α :=
  match p.node with
  | .scalar s _ mark => p.fail mark (.wrongKind (.scalar s.text (s.style == .plain)) expected)
  | .sequence _ mark => p.fail mark (.wrongKind .sequence expected)
  | .mapping _ mark => p.fail mark (.wrongKind .mapping expected)
  | .aliasOf _ _ => throw .tooManyAliases
  | .cut => throw (p.document.fault.getD .severalDocuments)

/-- Whether a node is an empty plain scalar. -/
def isEmpty (p : Place) : Bool :=
  match p.node with
  | .scalar s _ _ => s.text.isEmpty && s.style == .plain
  | _ => false

/-- Reads a text, called by another name where it is a key. -/
def text (p : Place) (expected : String := "a string") : Decoder String := do
  let p ← p.followed
  match p.node with
  | .scalar s _ _ => return s.text
  | _ => p.mismatch expected

/-- The truth value that a plain scalar stands for. -/
def truth? (text : String) : Option Bool :=
  if text ∈ ["true", "True", "TRUE"] then some true
  else if text ∈ ["false", "False", "FALSE"] then some false
  else none

/-- Reads a truth value: a plain scalar, or a literal block with the tag of truth values. -/
def truth (p : Place) : Decoder Bool := do
  let p ← p.followed
  match p.node with
  | .scalar s tag _ =>
    let isPlain := s.style == .plain || (s.style == .literal && tag == some "tag:yaml.org,2002:bool")
    match if isPlain then truth? s.text else none with
    | some b => return b
    | none => p.mismatch "a boolean"
  | _ => p.mismatch "a boolean"

/-- The words for no value. -/
def isNull (text : String) : Bool := text ∈ ["~", "null", "Null", "NULL"]

/-- Whether a scalar stands for no value; with the tag of null it has to. -/
def isAbsent (p : Place) : Decoder Bool :=
  match p.node with
  | .scalar s tag mark =>
    if s.style != .plain then pure false
    else
      match tag with
      | none => pure (s.text.isEmpty || isNull s.text)
      | some tag =>
        if tag != "tag:yaml.org,2002:null" then pure false
        else if isNull s.text then pure true
        else p.fail mark (.notNull s.text)
  | _ => pure false

/-- Reads a value that may be absent. -/
def optional {α : Type} (p : Place) (read : Place → Decoder α) : Decoder (Option α) := do
  let p ← p.followed
  if ← p.isAbsent then return none else return some (← read p)

/-- Reads the items of a list, the first having the given index. -/
def itemsFrom {α : Type} (p : Place) (read : Place → Decoder α) : Nat → List Node → Decoder (List α)
  | _, [] => pure []
  | i, node :: rest => do
    let first ← read (p.item i node)
    return first :: (← p.itemsFrom read (i + 1) rest)

/-- Reads a list. -/
def list {α : Type} (p : Place) (read : Place → Decoder α) : Decoder (List α) := do
  let p ← p.followed
  match p.node with
  | .sequence items _ => p.itemsFrom read 0 items
  | _ => if p.isEmpty then return [] else p.mismatch "a sequence"

/-- A field of a record in the making: what its value changes. -/
structure Field (σ : Type) where
  name : String
  read : Place → σ → Decoder σ

/-- A field whose value is put into the record. -/
def field {σ α : Type} (name : String) (read : Place → Decoder α) (put : α → σ → σ) : Field σ :=
  ⟨name, fun p s => return put (← read p) s⟩

/-- Reads the fields of a record, some of which were read before. -/
def fieldsFrom {σ : Type} (p : Place) (mark : Mark) (fields : List (Field σ)) :
    List String → σ → List (Node × Node) → Decoder (σ × List String)
  | seen, s, [] => pure (s, seen)
  | seen, s, (key, value) :: rest => do
    let name ← { p with node := key }.text "field identifier"
    match fields.find? (·.name == name) with
    | none => p.fieldsFrom mark fields seen s rest
    | some f =>
      if name ∈ seen then p.fail mark (.repeatedField name)
      let s ← f.read (p.value key name value) s
      p.fieldsFrom mark fields (seen ++ [name]) s rest

/-- Reads a record of the given name, starting from its defaults. The required fields have to be there. -/
def record {σ : Type} (p : Place) (title : String) (fields : List (Field σ)) (required : List String) (start : σ) :
    Decoder σ := do
  let p ← p.followed
  let (entries, mark) ←
    match p.node with
    | .mapping entries mark => pure (entries, mark)
    | .scalar _ _ mark => if p.isEmpty then pure ([], mark) else p.mismatch title
    | _ => p.mismatch title
  let (s, seen) ← p.fieldsFrom mark fields [] start entries
  match required.find? (· ∉ seen) with
  | some name => p.fail mark (.missingField name)
  | none => return s

end Place

/-- Reads the only document of a text. What is found in the document comes before what breaks it off, and that before what
follows it. -/
def decode {α : Type} (read : Place → Decoder α) (cs : List Char) : Except Error α := do
  let document := Document.ofText cs
  let (value, _) ← (read { document, node := document.root }).run 0
  match document.fault with
  | some fault => .error fault
  | none => if document.isFollowed then .error .severalDocuments else .ok value

end VersionChain.Yaml
