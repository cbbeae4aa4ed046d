import VersionChain.Yaml.Event

/-!
# YAML documents

A document is a tree of nodes. A text that is broken still has a document, up to the place where it breaks off: a node of its own
kind marks that place in every collection that was open there, so that a reader who comes to it knows, and one who finds an error
before it reports that error.

An anchor gets a number, and an alias refers to a number. The number is the count of the names in use before it, so it may be
given again after a name is used twice; then it refers to the latest node that got it, for earlier aliases too.
-/

namespace VersionChain.Yaml

/-- A value of a document. -/
inductive Node where
  | scalar (s : Scalar) (tag : Option String) (mark : Mark)
  | sequence (items : List Node) (mark : Mark)
  | mapping (entries : List (Node × Node)) (mark : Mark)
  /-- What the anchor of a number stands at. -/
  | aliasOf (number : Nat) (mark : Mark)
  /-- The text breaks off here. -/
  | cut

/-- A node that an anchor stands at. -/
structure Anchored where
  number : Nat
  /-- The place of the node among the events of the document. -/
  position : Nat
  node : Node

/-- The first document of a text. -/
structure Document where
  root : Node
  anchored : List Anchored := []
  /-- How many events the document has. -/
  size : Nat := 0
  /-- Why the text breaks off, if it does. -/
  fault : Option Error := none
  /-- Whether anything comes after the document. -/
  isFollowed : Bool := false

/-- The node that a number refers to. -/
def Document.target? (d : Document) (number : Nat) : Option Node :=
  let holders := d.anchored.filter (·.number == number)
  (holders.foldl (fun best a =>
    match best with
    | some b => if b.position < a.position then some a else best
    | none => some a) (none : Option Anchored)).map (·.node)

/-- A collection that is not complete, its latest items first. -/
inductive Frame where
  | sequence (items : List Node) (mark : Mark) (anchor : Option (Nat × Nat))
  | mapping (entries : List (Node × Node)) (key : Option Node) (mark : Mark) (anchor : Option (Nat × Nat))

/-- A document in the making, the innermost open collection first. -/
structure Building where
  frames : List Frame := []
  root : Option Node := none
  anchored : List Anchored := []
  /-- The names of anchors with their numbers. -/
  names : List (String × Nat) := []
  size : Nat := 0

namespace Building

/-- Takes note of an event that may have an anchor, and returns the anchor's number and the event's position. -/
def note (b : Building) (anchor : Option String) : Option (Nat × Nat) × Building :=
  let counted := { b with size := b.size + 1 }
  match anchor with
  | none => (none, counted)
  | some name =>
    let number := b.names.length
    (some (number, b.size), { counted with names := b.names.filter (·.1 != name) ++ [(name, number)] })

/-- Puts a complete node in its place. -/
def place (b : Building) (anchor : Option (Nat × Nat)) (node : Node) : Building :=
  let b := match anchor with
    | some (number, position) => { b with anchored := ⟨number, position, node⟩ :: b.anchored }
    | none => b
  match b.frames with
  | [] => { b with root := some node }
  | .sequence items mark a :: outer => { b with frames := .sequence (node :: items) mark a :: outer }
  | .mapping entries none mark a :: outer => { b with frames := .mapping entries (some node) mark a :: outer }
  | .mapping entries (some key) mark a :: outer => { b with frames := .mapping ((key, node) :: entries) none mark a :: outer }

/-- Completes the innermost open collection. -/
def close (b : Building) : Building :=
  match b.frames with
  | [] => b
  | .sequence items mark a :: outer => { b with frames := outer }.place a (.sequence items.reverse mark)
  | .mapping entries _ mark a :: outer => { b with frames := outer }.place a (.mapping entries.reverse mark)

/-- Completes every open collection with the mark of the place where the text breaks off. -/
def cutOff : Nat → Building → Building
  | 0, b => b
  | depth + 1, b =>
    let b := match b.frames with
      | [] => b
      | .sequence .. :: _ => b.place none .cut
      | .mapping _ none _ _ :: _ => (b.place none .cut).place none .cut
      | .mapping _ (some _) _ _ :: _ => b.place none .cut
    cutOff depth b.close

/-- The broken document that was being made. -/
def broken (b : Building) (fault : Error) : Document :=
  let b := if b.frames.isEmpty then b else cutOff b.frames.length b
  { root := b.root.getD .cut, anchored := b.anchored, size := b.size, fault := some fault }

/-- Takes in the events of one document, after which the text goes on as given. -/
def run (cutShort : Option Malformation) : Building → List Event → Document
  | b, [] =>
    match cutShort with
    | some m => b.broken (.malformed m)
    | none => { root := b.root.getD (.scalar ⟨"", .plain⟩ none {}), anchored := b.anchored, size := max b.size 1 }
  | b, e :: rest =>
    match e.kind with
    | .documentStart => run cutShort b rest
    | .documentEnd =>
      { root := b.root.getD .cut, anchored := b.anchored, size := b.size, isFollowed := !rest.isEmpty || cutShort.isSome }
    | .aliasOf name =>
      match b.names.lookup name with
      | some number => run cutShort ((b.note none).2.place none (.aliasOf number e.mark)) rest
      | none => b.broken (.unknownAnchor e.mark)
    | .scalar s anchor tag =>
      let (anchor, b) := b.note anchor
      run cutShort (b.place anchor (.scalar s tag e.mark)) rest
    | .sequenceStart anchor _ =>
      let (anchor, b) := b.note anchor
      run cutShort { b with frames := .sequence [] e.mark anchor :: b.frames } rest
    | .mappingStart anchor _ =>
      let (anchor, b) := b.note anchor
      run cutShort { b with frames := .mapping [] none e.mark anchor :: b.frames } rest
    | .sequenceEnd | .mappingEnd => run cutShort { b.close with size := b.size + 1 } rest

end Building

namespace Document

/-- The position in bytes of the first character that no text may hold. -/
def forbidden? : Nat → List Char → Option Nat
  | _, [] => none
  | position, c :: cs => if isAllowed c then forbidden? (position + c.utf8Size) cs else some position

/-- The first document of a text. A text without any has an empty plain scalar for one. -/
def ofText (cs : List Char) : Document :=
  match forbidden? 0 cs with
  | some position => { root := .cut, fault := some (.forbiddenCharacter position) }
  | none =>
    let read := Events.ofText cs
    Building.run read.malformation {} read.events

end Document

end VersionChain.Yaml
