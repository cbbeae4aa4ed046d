import VersionChain.Version.Identifier
import VersionChain.Yaml.Scalar

/-!
# YAML tokens

The marks and scalars of a text, together with the marks that its indentation stands for. This module also reads the tokens that
have an inner structure of their own: anchors, tags and directives.
-/

namespace VersionChain.Yaml

/-- The kinds of tokens. -/
inductive TokenKind where
  | versionDirective (major minor : Nat)
  | tagDirective (handle stem : String)
  | documentStart
  | documentEnd
  | streamEnd
  | blockSequenceStart
  | blockMappingStart
  | blockEnd
  | flowSequenceStart
  | flowSequenceEnd
  | flowMappingStart
  | flowMappingEnd
  | blockEntry
  | flowEntry
  | key
  | value
  | aliasOf (name : String)
  | anchor (name : String)
  | tag (handle suffix : String)
  | scalar (s : Scalar)
deriving DecidableEq

/-- A token with its place in the text. -/
structure Token where
  kind : TokenKind
  start : Mark
  stop : Mark

namespace Token

/-- Reads the name of an anchor or alias after its mark. -/
def name (isAlias : Bool) (c : Cursor) : Checked (String × Cursor) :=
  let (name, rest) := (c.skip 1).span isNameChar
  let ends := beginsBlank rest.chars || rest.next?.any fun ch =>
    ch == '?' || ch == ':' || ch == ',' || ch == ']' || ch == '\x7d' || ch == '%' || ch == '@' || ch == '`'
  if name.isEmpty || !ends then rest.fail .missingName (if isAlias then .aliasName else .anchor) c.mark
  else .ok (String.ofList name, rest)

/-- The characters of a tag's suffix; between angle brackets, and in directives, a few more are allowed. -/
def isTagChar (isFull : Bool) (c : Char) : Bool :=
  isNameChar c || c ∈ [';', '/', '?', ':', '@', '&', '=', '+', '$', '.', '%', '!', '~', '*', '\'', '(', ')'] ||
    (isFull && (c == ',' || c == '[' || c == ']'))

/-- The octet written as a percent sign and two hexadecimal digits. -/
def octet? : List Char → Option Nat
  | '%' :: a :: b :: _ => do return 16 * (← Scalar.hexValue? a) + (← Scalar.hexValue? b)
  | _ => none

/-- The number of octets in the encoding of the character that begins with the given octet. -/
def encodedLength? (octet : Nat) : Option Nat :=
  if octet < 0x80 then some 1
  else if octet < 0xC0 then none
  else if octet < 0xE0 then some 2
  else if octet < 0xF0 then some 3
  else if octet < 0xF8 then some 4
  else none

/-- Reads the further octets of an encoded character. -/
def furtherOctets (reading : Reading) (start : Mark) : Nat → Cursor → Checked (List Char × Cursor)
  | 0, c => .ok ([], c)
  | n + 1, c =>
    match octet? c.chars with
    | none => c.fail .missingOctet reading start
    | some octet =>
      if octet / 0x40 = 2 then do
        let (rest, c) ← furtherOctets reading start n (c.skip 3)
        return (Char.ofNat octet :: rest, c)
      else c.fail .badTrailingOctet reading start

/-- Reads an encoded character, each octet becoming a character of its own. -/
def octets (reading : Reading) (start : Mark) (c : Cursor) : Checked (List Char × Cursor) :=
  match octet? c.chars with
  | none => c.fail .missingOctet reading start
  | some octet =>
    match encodedLength? octet with
    | none => c.fail .badLeadingOctet reading start
    | some n => do
      let (rest, c) ← furtherOctets reading start (n - 1) (c.skip 3)
      return (Char.ofNat octet :: rest, c)

/-- Reads the characters of a tag's suffix. -/
def tagChars (isFull : Bool) (reading : Reading) (start : Mark) : Nat → Cursor → Checked (List Char × Cursor)
  | 0, c => .ok ([], c)
  | fuel + 1, c =>
    match c.next? with
    | none => .ok ([], c)
    | some ch =>
      if !isTagChar isFull ch then .ok ([], c)
      else do
        let (chars, c) ← if ch == '%' then octets reading start c else .ok ([ch], c.skip 1)
        let (rest, c) ← tagChars isFull reading start fuel c
        return (chars ++ rest, c)

/-- Reads the suffix of a tag; only what comes before it may be there without any. An octet of zero
ends the suffix, whatever comes after it. -/
def tagSuffix (isFull mayBeEmpty : Bool) (reading : Reading) (start : Mark) (c : Cursor) : Checked (List Char × Cursor) := do
  let (suffix, rest) ← tagChars isFull reading start c.bound c
  if suffix.isEmpty && !mayBeEmpty then rest.fail .missingTagText reading start
  return (suffix.takeWhile (· != '\x00'), rest)

/-- Reads the handle of a tag: an exclamation mark, a name, and another exclamation mark if there is one. -/
def tagHandle (isDirective : Bool) (start : Mark) (c : Cursor) : Checked (List Char × Cursor) :=
  let reading := if isDirective then Reading.directive else .tag
  if !c.at? '!' then c.fail .missingTagMark reading start
  else
    let (name, rest) := (c.skip 1).span isNameChar
    if rest.at? '!' then .ok ('!' :: name ++ ['!'], rest.skip 1)
    else if isDirective && !name.isEmpty then rest.fail .missingTagMark reading start
    else .ok ('!' :: name, rest)

/-- Reads the handle and suffix of a tag. -/
def tagParts (c : Cursor) : Checked ((List Char × List Char) × Cursor) := do
  let start := c.mark
  if c.chars.take 2 == ['!', '<'] then
    let (suffix, c) ← tagSuffix true false .tag start (c.skip 2)
    if !c.at? '>' then c.fail .missingTagEnd .tag start
    return (([], suffix), c.skip 1)
  else
    let (handle, c) ← tagHandle false start c
    if 1 < handle.length && handle.getLast? == some '!' then
      let (suffix, c) ← tagSuffix false false .tag start c
      return ((handle, suffix), c)
    else
      let (rest, c) ← tagSuffix false true .tag start c
      let suffix := handle.tail ++ rest
      return (if suffix.isEmpty then ([], ['!']) else (['!'], suffix), c)

/-- Reads a tag, which ends at a blank or line break or, inside brackets or braces, at a comma. -/
def tagToken (inFlow : Bool) (c : Cursor) : Checked (TokenKind × Cursor) := do
  let ((handle, suffix), rest) ← tagParts c
  if beginsBlank rest.chars || (inFlow && rest.at? ',') then
    return (.tag (String.ofList handle) (String.ofList suffix), rest)
  else rest.fail .missingBlankOrBreak .tag c.mark

/-- Reads a number of a version directive, of at most nine digits. -/
def directiveNumber (start : Mark) (c : Cursor) : Checked (Nat × Cursor) :=
  let (digits, rest) := c.span Char.isDigit
  if digits.isEmpty then c.fail .missingVersionNumber .versionDirective start
  else if 9 < digits.length then (c.skip 9).fail .longVersionNumber .versionDirective start
  else .ok (Identifier.value digits, rest)

/-- Reads what follows the name of a directive. -/
def directiveValue (name : String) (start : Mark) (c : Cursor) : Checked (TokenKind × Cursor) :=
  if name = "YAML" then do
    let (major, c) ← directiveNumber start (c.skipWhile isBlank)
    if !c.at? '.' then c.fail .missingVersionPoint .versionDirective start
    let (minor, c) ← directiveNumber start (c.skip 1)
    return (.versionDirective major minor, c)
  else if name = "TAG" then do
    let (handle, c) ← tagHandle true start (c.skipWhile isBlank)
    if !c.atBlank then c.fail .missingBlank .tagDirective start
    let (stem, c) ← tagSuffix true false .tagDirective start (c.skipWhile isBlank)
    if !beginsBlank c.chars then c.fail .missingBlankOrBreak .tagDirective start
    return (.tagDirective (String.ofList handle) (String.ofList stem), c)
  else c.fail .unknownDirective .directive start

/-- Reads a directive to the end of its line. -/
def directive (c : Cursor) : Checked (TokenKind × Cursor) := do
  let start := c.mark
  let (name, rest) := (c.skip 1).span isNameChar
  if name.isEmpty then rest.fail .missingDirectiveName .directive start
  if !beginsBlank rest.chars then rest.fail .strayInDirectiveName .directive start
  let (kind, rest) ← directiveValue (String.ofList name) start rest
  let rest := rest.skipWhile isBlank
  let rest := if rest.at? '#' then rest.skipWhile (!isBreak ·) else rest
  if !(rest.atEnd || rest.atBreak) then rest.fail .missingLineEnd .directive start
  return (kind, if rest.atBreak then rest.skipBreak else rest)

end Token

end VersionChain.Yaml
