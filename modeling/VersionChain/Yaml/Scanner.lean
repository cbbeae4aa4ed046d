import VersionChain.Yaml.Token

/-!
# From text to tokens

The scanner goes through a text token by token. It keeps the columns of the open block collections, so that a change of
indentation opens and closes them, and for each level of nesting the place where a key may have begun, since that is known only
when the colon comes. A token is released once no key can begin before it any more; a malformed text keeps the tokens that were
released before the malformation was met.
-/

namespace VersionChain.Yaml

/-- A place where a key that fits on one line may have begun. -/
structure PossibleKey where
  /-- The number of tokens before it. -/
  number : Nat
  mark : Mark
  /-- The number of brackets and braces around it. -/
  depth : Nat
  /-- Whether only a key can stand there. -/
  required : Bool

/-- The state of the scanner. -/
structure Scanner where
  cursor : Cursor
  /-- The number of tokens that were released. -/
  released : Nat := 0
  /-- The tokens after them, before which a key may still begin. -/
  pending : List Token := []
  /-- The column of the innermost block collection, minus one outside all of them. -/
  indent : Int := -1
  /-- The columns of the block collections around it, innermost first. -/
  outer : List Int := []
  /-- The number of brackets and braces that are open. -/
  depth : Nat := 0
  /-- Where keys may have begun, at most one at each depth, the deepest first. -/
  possible : List PossibleKey := []
  /-- Whether a key may begin here. -/
  keyAllowed : Bool := true
  /-- Whether the end of the text has been taken. -/
  ended : Bool := false

namespace Scanner

/-- Whether the scanner is inside brackets or braces. -/
def inFlow (s : Scanner) : Bool := 0 < s.depth

/-- The number of tokens so far. -/
def count (s : Scanner) : Nat := s.released + s.pending.length

/-- The place of the cursor. -/
def mark (s : Scanner) : Mark := s.cursor.mark

/-- The column of the cursor. -/
def column (s : Scanner) : Int := s.mark.column

/-- A malformation at the cursor. -/
def fail {α : Type} (s : Scanner) (problem : Problem) (reading : Reading) (start : Mark) : Checked α :=
  s.cursor.fail problem reading start

/-- The state with a further token of no extent. -/
def emit (s : Scanner) (kind : TokenKind) : Scanner := { s with pending := s.pending ++ [⟨kind, s.mark, s.mark⟩] }

/-- The state with a token that takes up the next `n` characters. -/
def take (s : Scanner) (n : Nat) (kind : TokenKind) : Scanner :=
  let rest := s.cursor.skip n
  { s with pending := s.pending ++ [⟨kind, s.mark, rest.mark⟩], cursor := rest }

/-- The state with a token that was read up to the given cursor. -/
def takeTo (s : Scanner) (rest : Cursor) (kind : TokenKind) : Scanner :=
  { s with pending := s.pending ++ [⟨kind, s.mark, rest.mark⟩], cursor := rest }

/-- The state with a token of no extent put before the token of the given number, which was not released. -/
def insert (s : Scanner) (number : Nat) (kind : TokenKind) (mark : Mark) : Scanner :=
  let (before, after) := s.pending.splitAt (number - s.released)
  { s with pending := before ++ ⟨kind, mark, mark⟩ :: after }

/-! ## Possible keys -/

/-- A key that begins here is possible no longer once the line has ended or 1024 octets have passed. -/
def isStale (s : Scanner) (k : PossibleKey) : Bool :=
  k.mark.line < s.mark.line || k.mark.index + 1024 < s.mark.index

/-- Gives up the keys that are possible no longer. -/
def dropStale (s : Scanner) : Checked Scanner :=
  match s.possible.find? fun k => s.isStale k && k.required with
  | some k => s.fail .missingColon .simpleKey k.mark
  | none => .ok { s with possible := s.possible.filter (!s.isStale ·) }

/-- The key that may have begun at the depth of the cursor. -/
def key? (s : Scanner) : Option PossibleKey := s.possible.head?.filter (·.depth == s.depth)

/-- Gives up the key that may have begun at the depth of the cursor. -/
def dropKey (s : Scanner) : Checked Scanner :=
  match s.key? with
  | some k => if k.required then s.fail .missingColon .simpleKey k.mark else .ok { s with possible := s.possible.tail }
  | none => .ok s

/-- Notes that a key may begin here, if one is allowed. -/
def saveKey (s : Scanner) : Checked Scanner :=
  if s.keyAllowed then do
    let required := !s.inFlow && s.indent == s.column
    let key : PossibleKey := ⟨s.count, s.mark, s.depth, required⟩
    let s ← s.dropKey
    return { s with possible := key :: s.possible }
  else .ok s

/-! ## Indentation -/

/-- Opens a block collection at a column, unless one that deep is open already. The token comes before the one of the given
number. -/
def openBlock (s : Scanner) (column : Int) (number : Nat) (kind : TokenKind) (mark : Mark) : Scanner :=
  if !s.inFlow && s.indent < column then
    { s.insert number kind mark with indent := column, outer := s.indent :: s.outer }
  else s

/-- Closes block collections, given those around the innermost one, as long as they are deeper than a column. -/
def closeBlocks (column : Int) : List Int → Scanner → Scanner
  | [], s => s
  | i :: outer, s =>
    if column < s.indent then closeBlocks column outer { s.emit .blockEnd with indent := i, outer := outer } else s

/-- Closes the block collections that are deeper than a column. -/
def unindent (s : Scanner) (column : Int) : Scanner :=
  if s.inFlow then s else closeBlocks column s.outer s

/-! ## One token -/

/-- Skips blanks, comments and line breaks. Outside brackets and braces a key may begin after a line break; where a key may begin,
tabs are no blanks. -/
def skipBlank (inFlow : Bool) : Nat → Bool → Cursor → Bool × Cursor
  | 0, keyAllowed, c => (keyAllowed, c)
  | fuel + 1, keyAllowed, c =>
    let c := if c.mark.column == 0 && c.at? '\ufeff' then c.skip 1 else c
    let c := c.skipWhile fun ch => ch == ' ' || ((inFlow || !keyAllowed) && ch == '\t')
    let c := if c.at? '#' then c.skipWhile (!isBreak ·) else c
    if c.atBreak then skipBlank inFlow fuel (keyAllowed || !inFlow) c.skipBreak else (keyAllowed, c)

/-- Ends the text: everything open is closed. -/
def takeEnd (s : Scanner) : Checked Scanner := do
  let m := s.mark
  let s := if m.column = 0 then s else { s with cursor := { s.cursor with mark := { m with line := m.line + 1, column := 0 } } }
  let s ← (s.unindent (-1)).dropKey
  return { s.emit .streamEnd with keyAllowed := false, ended := true }

/-- Takes a directive. -/
def takeDirective (s : Scanner) : Checked Scanner := do
  let s ← (s.unindent (-1)).dropKey
  let (kind, rest) ← Token.directive s.cursor
  return { s.takeTo rest kind with keyAllowed := false }

/-- Takes a document indicator. -/
def takeDocumentMark (s : Scanner) (kind : TokenKind) : Checked Scanner := do
  let s ← (s.unindent (-1)).dropKey
  return { s.take 3 kind with keyAllowed := false }

/-- Takes an opening bracket or brace, which may begin a key. -/
def takeFlowStart (s : Scanner) (kind : TokenKind) : Checked Scanner := do
  let s ← s.saveKey
  return { s.take 1 kind with depth := s.depth + 1, keyAllowed := true }

/-- Takes a closing bracket or brace. -/
def takeFlowEnd (s : Scanner) (kind : TokenKind) : Checked Scanner := do
  let s ← s.dropKey
  return { s.take 1 kind with depth := s.depth - 1, keyAllowed := false }

/-- Takes the comma between two entries in brackets or braces. -/
def takeFlowEntry (s : Scanner) : Checked Scanner := do
  let s ← s.dropKey
  return { s.take 1 .flowEntry with keyAllowed := true }

/-- Takes the hyphen of an entry. -/
def takeBlockEntry (s : Scanner) : Checked Scanner := do
  if !s.inFlow && !s.keyAllowed then s.fail .entryNotAllowed .nothing {}
  let s ← (s.openBlock s.column s.count .blockSequenceStart s.mark).dropKey
  return { s.take 1 .blockEntry with keyAllowed := true }

/-- Takes the question mark of a key. -/
def takeKey (s : Scanner) : Checked Scanner := do
  if !s.inFlow && !s.keyAllowed then s.fail .keyNotAllowed .nothing {}
  let s ← (s.openBlock s.column s.count .blockMappingStart s.mark).dropKey
  return { s.take 1 .key with keyAllowed := !s.inFlow }

/-- Takes the colon of a value. It makes a key of what may have been one. -/
def takeValue (s : Scanner) : Checked Scanner := do
  match s.key? with
  | some k =>
    let s := s.insert k.number .key k.mark
    let s := s.openBlock k.mark.column k.number .blockMappingStart k.mark
    return { s.take 1 .value with possible := s.possible.tail, keyAllowed := false }
  | none =>
    if !s.inFlow && !s.keyAllowed then s.fail .valueNotAllowed .nothing {}
    let s := s.openBlock s.column s.count .blockMappingStart s.mark
    return { s.take 1 .value with keyAllowed := !s.inFlow }

/-- Takes something that may be or begin a key. -/
def takeNode (s : Scanner) (read : Cursor → Checked (TokenKind × Cursor)) : Checked Scanner := do
  let s ← s.saveKey
  let (kind, rest) ← read s.cursor
  return { s.takeTo rest kind with keyAllowed := false }

/-- Takes a block scalar. -/
def takeBlockScalar (s : Scanner) (isLiteral : Bool) : Checked Scanner := do
  let s ← s.dropKey
  let (scalar, rest) ← Scalar.block isLiteral s.indent s.cursor
  return { s.takeTo rest (.scalar scalar) with keyAllowed := true }

/-- Takes a plain scalar; where it ended after a line break, a key may begin. -/
def takePlain (s : Scanner) : Checked Scanner := do
  let s ← s.saveKey
  let ((scalar, brokenOff), rest) ← Scalar.plain s.inFlow (s.indent + 1).toNat s.cursor
  return { s.takeTo rest (.scalar scalar) with keyAllowed := brokenOff }

/-- The characters that cannot begin a plain scalar, or only before something that is not blank. -/
def isIndicator (c : Char) : Bool :=
  c ∈ ['-', '?', ':', ',', '[', ']', '\x7b', '\x7d', '#', '&', '*', '!', '|', '>', '\'', '"', '%', '@', '`']

/-- Takes the token that the next character begins. -/
def takeToken (s : Scanner) : Checked Scanner :=
  match s.cursor.chars with
  | [] => s.takeEnd
  | c :: rest =>
    let blankFollows := beginsBlank rest
    if s.mark.column == 0 && c == '%' then s.takeDirective
    else if s.cursor.atDocumentMark then s.takeDocumentMark (if c == '-' then .documentStart else .documentEnd)
    else if c == '[' then s.takeFlowStart .flowSequenceStart
    else if c == '\x7b' then s.takeFlowStart .flowMappingStart
    else if c == ']' then s.takeFlowEnd .flowSequenceEnd
    else if c == '\x7d' then s.takeFlowEnd .flowMappingEnd
    else if c == ',' then s.takeFlowEntry
    else if c == '-' && blankFollows then s.takeBlockEntry
    else if c == '?' && (s.inFlow || blankFollows) then s.takeKey
    else if c == ':' && (s.inFlow || blankFollows) then s.takeValue
    else if c == '*' then s.takeNode fun c => do
      let (name, rest) ← Token.name true c
      return (.aliasOf name, rest)
    else if c == '&' then s.takeNode fun c => do
      let (name, rest) ← Token.name false c
      return (.anchor name, rest)
    else if c == '!' then s.takeNode (Token.tagToken s.inFlow)
    else if c == '|' && !s.inFlow then s.takeBlockScalar true
    else if c == '>' && !s.inFlow then s.takeBlockScalar false
    else if c == '\'' || c == '"' then s.takeNode fun cursor => do
      let (scalar, rest) ← Scalar.quoted (c == '\'') cursor
      return (.scalar scalar, rest)
    else if !(isBlank c || isBreak c || isIndicator c) || (c == '-' && !rest.head?.any isBlank) ||
        (!s.inFlow && (c == '?' || c == ':') && !blankFollows) then s.takePlain
    else s.fail .strayCharacter .nextToken s.mark

/-- Takes the next token and those that the indentation before it stands for. -/
def advance (s : Scanner) : Checked Scanner := do
  let (keyAllowed, cursor) := skipBlank s.inFlow (s.cursor.bound + 1) s.keyAllowed s.cursor
  let s ← dropStale { s with keyAllowed, cursor }
  (s.unindent s.column).takeToken

/-- Releases the pending tokens before which no key can begin any more. -/
def release (s : Scanner) : Checked (List Token × Scanner) := do
  let s ← s.dropStale
  let released := s.possible.foldl (fun n k => min n k.number) s.count
  let (final, pending) := s.pending.splitAt (released - s.released)
  return (final, { s with released, pending })

/-- The tokens of a text, and the malformation that cuts them short. -/
structure Tokens where
  tokens : List Token
  malformation : Option Malformation

/-- Takes tokens to the end of the text. Those released before are given with the latest first. -/
def run : Nat → List Token → Scanner → Tokens
  | 0, earlier, _ => ⟨earlier.reverse, none⟩
  | fuel + 1, earlier, s =>
    match s.advance >>= release with
    | .error m => ⟨earlier.reverse, some m⟩
    | .ok (final, s) =>
      let earlier := final.reverse ++ earlier
      if s.ended then ⟨earlier.reverse, none⟩ else run fuel earlier s

/-- The tokens of a text. -/
def ofText (cs : List Char) : Tokens := run (cs.length + 2) [] { cursor := .ofText cs }

end Scanner

end VersionChain.Yaml
