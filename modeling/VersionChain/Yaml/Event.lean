import VersionChain.Yaml.Scanner

/-!
# From tokens to events

Events tell a document in order: where it and its collections begin and end, and its scalars and aliases. The grammar is read
with a stack of goals: the goal on top looks at one token, or at most at two and a node's properties before them, and is replaced
by the goals for what must follow. A place where a value may be left out gives an empty plain scalar. Where the rules are broken
the events end, and so they do where the tokens end.
-/

namespace VersionChain.Yaml

/-- The kinds of events. Scalars and collections may have an anchor and a tag. -/
inductive EventKind where
  | documentStart
  | documentEnd
  | aliasOf (name : String)
  | scalar (s : Scalar) (anchor tag : Option String)
  | sequenceStart (anchor tag : Option String)
  | sequenceEnd
  | mappingStart (anchor tag : Option String)
  | mappingEnd
deriving DecidableEq

/-- An event and the place where it begins. -/
structure Event where
  kind : EventKind
  mark : Mark

/-- The value that is left out at a place. -/
def Event.empty (mark : Mark) : Event := ⟨.scalar ⟨"", .plain⟩ none none, mark⟩

/-- The anchor and tag that stand before a node. A tag is a handle and a suffix. -/
structure Properties where
  anchor : Option String := none
  tag : Option (String × String × Mark) := none

namespace Properties

/-- Whether nothing stands before the node. -/
def isEmpty (p : Properties) : Bool := p.anchor.isNone && p.tag.isNone

/-- Takes an anchor, if there is one. -/
def takeAnchor (p : Properties) : List Token → Properties × List Token
  | ⟨.anchor name, _, _⟩ :: rest => ({ p with anchor := some name }, rest)
  | ts => (p, ts)

/-- Takes a tag, if there is one. -/
def takeTag (p : Properties) : List Token → Properties × List Token
  | ⟨.tag handle suffix, start, _⟩ :: rest => ({ p with tag := some (handle, suffix, start) }, rest)
  | ts => (p, ts)

/-- Takes an anchor and a tag in either order. -/
def ofTokens (ts : List Token) : Properties × List Token :=
  let (p, ts) := takeAnchor {} ts
  let (p, ts) := takeTag p ts
  if p.anchor.isNone then takeAnchor p ts else (p, ts)

end Properties

/-- What must follow. -/
inductive Goal where
  /-- A document or the end of the text. Only the first document may begin without a mark. -/
  | document (isFirst : Bool)
  /-- The content of a document after its mark. -/
  | content
  | documentEnd
  /-- A node. A sequence that is the value of a key may stand at the indentation of the key. -/
  | node (isBlock atKey : Bool)
  /-- The entries of a block sequence that began at a place. -/
  | blockEntries (start : Mark)
  /-- The entries of a sequence at the indentation of its key. -/
  | entriesAtKey
  /-- The entries of a block mapping, from a key on. -/
  | blockKeys (start : Mark)
  | blockValue
  /-- The entries of a sequence in brackets. All but the first come after a comma. -/
  | flowEntries (start : Mark) (isFirst : Bool)
  /-- The key, the value and the end of a pair in brackets. -/
  | pairKey
  | pairValue
  | pairEnd
  /-- The entries of a mapping in braces, from a key on. -/
  | flowKeys (start : Mark) (isFirst : Bool)
  /-- The value after a key in braces; a key without a question mark that no colon follows has none. -/
  | flowValue
  | noFlowValue

/-- What is left of the tokens, the goals and the tag handles of the document. -/
structure EventReader where
  tokens : List Token
  goals : List Goal := [.document true]
  handles : List (String × String) := []

/-- The result of working on a goal. -/
inductive Progress where
  /-- Events, and how to go on. -/
  | went (events : List Event) (next : EventReader)
  /-- The tokens do not suffice. -/
  | starved
  /-- The rules are broken. -/
  | broken (m : Malformation)
  /-- The text is at its end. -/
  | finished

namespace EventReader

/-- The reader with other goals on its stack. -/
def toGoals (r : EventReader) (goals : List Goal) : EventReader := { r with goals }

/-- The tag that a handle and a suffix stand for. An empty handle is the whole tag's. -/
def tag? (r : EventReader) (handle suffix : String) : Option String :=
  if handle.isEmpty then some suffix
  else ((r.handles ++ [("!", "!"), ("!!", "tag:yaml.org,2002:")]).lookup handle).map (· ++ suffix)

/-- Reads a node. -/
def node (r : EventReader) (isBlock atKey : Bool) (goals : List Goal) : Progress :=
  match r.tokens with
  | ⟨.aliasOf name, start, _⟩ :: rest => .went [⟨.aliasOf name, start⟩] ⟨rest, goals, r.handles⟩
  | tokens =>
    let (p, rest) := Properties.ofTokens tokens
    match tokens, rest with
    | first :: _, t :: after =>
      let begun := first.start
      let begins (kind : EventKind) (tokens : List Token) (goals : List Goal) :=
        Progress.went [⟨kind, begun⟩] ⟨tokens, goals, r.handles⟩
      match p.tag.map fun (handle, suffix, mark) => (r.tag? handle suffix, mark) with
      | some (none, mark) => .broken ⟨.undefinedTagHandle, mark, .node, begun⟩
      | tag =>
        let tag := tag.bind (·.1)
        match t.kind with
        | .scalar s => begins (.scalar s p.anchor tag) after goals
        | .flowSequenceStart => begins (.sequenceStart p.anchor tag) after (.flowEntries t.start true :: goals)
        | .flowMappingStart => begins (.mappingStart p.anchor tag) after (.flowKeys t.start true :: goals)
        | kind =>
          if atKey && kind == .blockEntry then begins (.sequenceStart p.anchor tag) rest (.entriesAtKey :: goals)
          else if isBlock && kind == .blockSequenceStart then
            begins (.sequenceStart p.anchor tag) after (.blockEntries t.start :: goals)
          else if isBlock && kind == .blockMappingStart then
            begins (.mappingStart p.anchor tag) after (.blockKeys t.start :: goals)
          else if !p.isEmpty then begins (.scalar ⟨"", .plain⟩ p.anchor tag) rest goals
          else .broken ⟨.missingContent, t.start, if isBlock then .blockNode else .flowNode, begun⟩
    | _, _ => .starved

/-- A value that is left out when one of the given tokens comes next, and a node otherwise. -/
def nodeUnless (r : EventReader) (omitted : List TokenKind) (mark : Token → Mark) (goal : Goal) (goals : List Goal) :
    Progress :=
  match r.tokens with
  | [] => .starved
  | t :: _ =>
    if t.kind ∈ omitted then .went [.empty (mark t)] (r.toGoals goals) else .went [] (r.toGoals (goal :: goals))

/-- Reads the directives of a document. -/
def directives (handles : List (String × String)) (hasVersion : Bool) :
    List Token → Checked (List (String × String) × List Token)
  | ⟨.versionDirective major minor, start, _⟩ :: rest =>
    if hasVersion then .error ⟨.repeatedVersion, start, .nothing, {}⟩
    else if major != 1 || (minor != 1 && minor != 2) then .error ⟨.incompatibleVersion, start, .nothing, {}⟩
    else directives handles true rest
  | ⟨.tagDirective handle stem, start, _⟩ :: rest =>
    if (handles.lookup handle).isSome then .error ⟨.repeatedTagHandle, start, .nothing, {}⟩
    else directives (handles ++ [(handle, stem)]) hasVersion rest
  | rest => .ok (handles, rest)

/-- The marks after which a document without a mark of its own cannot begin. -/
def opensDocument : TokenKind → Bool
  | .versionDirective .. => true
  | .tagDirective .. => true
  | .documentStart => true
  | _ => false

/-- Begins a document, unless the text ends here. -/
def document (r : EventReader) (isFirst : Bool) : Progress :=
  match if isFirst then r.tokens else r.tokens.dropWhile (·.kind == .documentEnd) with
  | [] => .starved
  | t :: rest =>
    let ends : List Goal := [.documentEnd, .document false]
    if t.kind == .streamEnd then .finished
    else if isFirst && !opensDocument t.kind then
      .went [⟨.documentStart, t.start⟩] ⟨t :: rest, .node true false :: ends, []⟩
    else
      match directives [] false (t :: rest) with
      | .error m => .broken m
      | .ok (_, []) => .starved
      | .ok (handles, mark :: rest) =>
        if mark.kind == .documentStart then .went [⟨.documentStart, t.start⟩] ⟨rest, .content :: ends, handles⟩
        else .broken ⟨.missingDocumentStart, mark.start, .nothing, {}⟩

/-- Works on a goal, given the next token and those after it. -/
def pursue (r : EventReader) (t : Token) (rest : List Token) (goals : List Goal) : Goal → Progress
  | .document isFirst => r.document isFirst
  | .content =>
    if opensDocument t.kind || t.kind == .documentEnd || t.kind == .streamEnd then .went [.empty t.start] (r.toGoals goals)
    else .went [] (r.toGoals (.node true false :: goals))
  | .documentEnd =>
    .went [⟨.documentEnd, t.start⟩] ⟨if t.kind == .documentEnd then rest else t :: rest, goals, []⟩
  | .node isBlock atKey => r.node isBlock atKey goals
  | .blockEntries start =>
    match t.kind with
    | .blockEntry =>
      { r with tokens := rest }.nodeUnless [.blockEntry, .blockEnd] (fun _ => t.stop) (.node true false)
        (.blockEntries start :: goals)
    | .blockEnd => .went [⟨.sequenceEnd, t.start⟩] ⟨rest, goals, r.handles⟩
    | _ => .broken ⟨.missingEntry, t.start, .blockSequence, start⟩
  | .entriesAtKey =>
    if t.kind == .blockEntry then
      { r with tokens := rest }.nodeUnless [.blockEntry, .key, .value, .blockEnd] (fun _ => t.stop) (.node true false)
        (.entriesAtKey :: goals)
    else .went [⟨.sequenceEnd, t.start⟩] (r.toGoals goals)
  | .blockKeys start =>
    match t.kind with
    | .key =>
      { r with tokens := rest }.nodeUnless [.key, .value, .blockEnd] (fun _ => t.stop) (.node true true)
        (.blockValue :: .blockKeys start :: goals)
    | .blockEnd => .went [⟨.mappingEnd, t.start⟩] ⟨rest, goals, r.handles⟩
    | _ => .broken ⟨.missingKey, t.start, .blockMapping, start⟩
  | .blockValue =>
    if t.kind == .value then
      { r with tokens := rest }.nodeUnless [.key, .value, .blockEnd] (fun _ => t.stop) (.node true true) goals
    else .went [.empty t.start] (r.toGoals goals)
  | .flowEntries start isFirst =>
    if t.kind == .flowSequenceEnd then .went [⟨.sequenceEnd, t.start⟩] ⟨rest, goals, r.handles⟩
    else if !isFirst && t.kind != .flowEntry then .broken ⟨.missingSequenceEnd, t.start, .flowSequence, start⟩
    else
      match if isFirst then t :: rest else rest with
      | [] => .starved
      | t :: rest =>
        let more : List Goal := .flowEntries start false :: goals
        match t.kind with
        | .flowSequenceEnd => .went [⟨.sequenceEnd, t.start⟩] ⟨rest, goals, r.handles⟩
        | .key => .went [⟨.mappingStart none none, t.start⟩] ⟨rest, .pairKey :: .pairValue :: .pairEnd :: more, r.handles⟩
        | _ => .went [] ⟨t :: rest, .node false false :: more, r.handles⟩
  | .pairKey =>
    if t.kind == .value || t.kind == .flowEntry || t.kind == .flowSequenceEnd then
      .went [.empty t.stop] ⟨rest, goals, r.handles⟩
    else .went [] (r.toGoals (.node false false :: goals))
  | .pairValue =>
    if t.kind == .value then
      { r with tokens := rest }.nodeUnless [.flowEntry, .flowSequenceEnd] (·.start) (.node false false) goals
    else .went [.empty t.start] (r.toGoals goals)
  | .pairEnd => .went [⟨.mappingEnd, t.start⟩] (r.toGoals goals)
  | .flowKeys start isFirst =>
    if t.kind == .flowMappingEnd then .went [⟨.mappingEnd, t.start⟩] ⟨rest, goals, r.handles⟩
    else if !isFirst && t.kind != .flowEntry then .broken ⟨.missingMappingEnd, t.start, .flowMapping, start⟩
    else
      match if isFirst then t :: rest else rest with
      | [] => .starved
      | t :: rest =>
        let more : List Goal := .flowKeys start false :: goals
        match t.kind with
        | .flowMappingEnd => .went [⟨.mappingEnd, t.start⟩] ⟨rest, goals, r.handles⟩
        | .key =>
          { r with tokens := rest }.nodeUnless [.value, .flowEntry, .flowMappingEnd] (·.start) (.node false false)
            (.flowValue :: more)
        | _ => .went [] ⟨t :: rest, .node false false :: .noFlowValue :: more, r.handles⟩
  | .flowValue =>
    if t.kind == .value then
      { r with tokens := rest }.nodeUnless [.flowEntry, .flowMappingEnd] (·.start) (.node false false) goals
    else .went [.empty t.start] (r.toGoals goals)
  | .noFlowValue => .went [.empty t.start] (r.toGoals goals)

/-- Works on the goal on top. -/
def step (r : EventReader) : Progress :=
  match r.goals, r.tokens with
  | [], _ => .finished
  | _ :: _, [] => .starved
  | goal :: goals, t :: rest => r.pursue t rest goals goal

end EventReader

/-- The events of a text, and the malformation that cuts them short. -/
structure Events where
  events : List Event
  malformation : Option Malformation

namespace Events

/-- Reads events to the end of the tokens, which were cut short by the given malformation. The events before are given with the
latest first. -/
def run (cutShort : Option Malformation) : Nat → List Event → EventReader → Events
  | 0, earlier, _ => ⟨earlier.reverse, cutShort⟩
  | fuel + 1, earlier, r =>
    match r.step with
    | .went events next => run cutShort fuel (events.reverse ++ earlier) next
    | .starved => ⟨earlier.reverse, cutShort⟩
    | .broken m => ⟨earlier.reverse, some m⟩
    | .finished => ⟨earlier.reverse, none⟩

/-- The events of a text. A token serves fewer than eight goals. -/
def ofText (cs : List Char) : Events :=
  let scanned := Scanner.ofText cs
  run scanned.malformation (8 * (scanned.tokens.length + 1)) [] { tokens := scanned.tokens }

end Events

end VersionChain.Yaml
