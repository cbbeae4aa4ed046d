import VersionChain.Yaml.Error

/-!
# YAML scalars

The five ways of writing a text: plain, in single quotes, in double quotes, as a literal block and as a folded block. In all but
the literal block a single line break between two lines of content stands for a space, and further ones for themselves.
-/

namespace VersionChain.Yaml

/-- The ways of writing a scalar. -/
inductive Style where
  | plain
  | singleQuoted
  | doubleQuoted
  | literal
  | folded
deriving DecidableEq

/-- A text and the way it is written. -/
structure Scalar where
  text : String
  style : Style
deriving DecidableEq

/-- The result of reading part of a text, which is a value and the cursor after it, unless the text is malformed. -/
abbrev Checked := Except Malformation

/-- The malformation at a cursor while something that began elsewhere is being read. -/
def Cursor.fail {α : Type} (c : Cursor) (problem : Problem) (reading : Reading) (start : Mark) : Checked α :=
  .error ⟨problem, c.mark, reading, start⟩

/-- A run of blanks and line breaks inside a scalar. Blanks count only before the first line break. -/
structure Gap where
  blanks : String := ""
  firstBreak : String := ""
  furtherBreaks : String := ""
  isBroken : Bool := false

namespace Gap

/-- What line breaks between two lines of content stand for. -/
def folded (firstBreak furtherBreaks : String) : String :=
  if firstBreak == "\n" then if furtherBreaks.isEmpty then " " else furtherBreaks
  else firstBreak ++ furtherBreaks

/-- What a gap between two pieces of content stands for. -/
def text (g : Gap) : String := if g.isBroken then folded g.firstBreak g.furtherBreaks else g.blanks

/-- The gap with a further blank. -/
def addBlank (g : Gap) (c : Char) : Gap := if g.isBroken then g else { g with blanks := g.blanks.push c }

/-- The gap with a further line break. -/
def addBreak (g : Gap) (b : String) : Gap :=
  if g.isBroken then { g with furtherBreaks := g.furtherBreaks ++ b }
  else { firstBreak := b, isBroken := true }

/-- Reads a gap, given what was read of it before. `tabsFrom` is the column from which tabs may begin a line. -/
def read (tabsFrom : Nat) (start : Mark) : Nat → Gap → Cursor → Checked (Gap × Cursor)
  | 0, g, c => .ok (g, c)
  | fuel + 1, g, c =>
    match c.next? with
    | some ch =>
      if isBlank ch then
        if g.isBroken && c.mark.column < tabsFrom && ch == '\t' then c.fail .tabBeforeContent .plainScalar start
        else read tabsFrom start fuel (g.addBlank ch) (c.skip 1)
      else if isBreak ch then read tabsFrom start fuel (g.addBreak c.breakText) c.skipBreak
      else .ok (g, c)
    | none => .ok (g, c)

end Gap

namespace Scalar

/-! ## Plain scalars -/

/-- The characters that end a plain scalar inside brackets or braces. -/
def isFlowMark (c : Char) : Bool := c == ',' || c == '[' || c == ']' || c == '\x7b' || c == '\x7d'

/-- The content of a plain scalar up to the next blank or mark, and whether a misplaced colon ended it. -/
def plainRun (inFlow : Bool) : List Char → List Char × Bool
  | [] => ([], false)
  | c :: rest =>
    if isBlank c || isBreak c then ([], false)
    else if inFlow && c == ':' && rest.head?.any (fun d => isFlowMark d || d == '?') then ([], true)
    else if (c == ':' && beginsBlank rest) || (inFlow && isFlowMark c) then ([], false)
    else
      let (run, misplaced) := plainRun inFlow rest
      (c :: run, misplaced)

/-- Reads a plain scalar from the given content and gap on. The flag tells whether it ended after a line break. -/
def plainFrom (inFlow : Bool) (indent : Nat) (start : Mark) :
    Nat → String → Gap → Cursor → Checked ((String × Bool) × Cursor)
  | 0, content, gap, c => .ok ((content, gap.isBroken), c)
  | fuel + 1, content, gap, c =>
    if c.atDocumentMark || c.at? '#' then .ok ((content, gap.isBroken), c)
    else
      let (run, misplaced) := plainRun inFlow c.chars
      let content := if run.isEmpty then content else content ++ gap.text ++ String.ofList run
      let gap := if run.isEmpty then gap else {}
      let c := c.skip run.length
      if misplaced then c.fail .strayColon .plainScalar start
      else if !(c.atBlank || c.atBreak) then .ok ((content, gap.isBroken), c)
      else do
        let (gap, c) ← Gap.read indent start c.bound {} c
        if !inFlow && c.mark.column < indent then .ok ((content, gap.isBroken), c)
        else plainFrom inFlow indent start fuel content gap c

/-- Reads a plain scalar whose further lines begin at least at column `indent`, except inside brackets or braces. -/
def plain (inFlow : Bool) (indent : Nat) (c : Cursor) : Checked ((Scalar × Bool) × Cursor) := do
  let ((content, brokenOff), c) ← plainFrom inFlow indent c.mark (c.bound + 1) "" {} c
  return ((⟨content, .plain⟩, brokenOff), c)

/-! ## Quoted scalars -/

/-- What an escape in double quotes stands for: a character, or the code point in so many hexadecimal digits. -/
inductive Escape where
  | char (c : Char)
  | code (digits : Nat)

/-- The escape that a character after a backslash denotes. -/
def escape? : Char → Option Escape
  | '0' => some (.char '\x00')
  | 'a' => some (.char '\x07')
  | 'b' => some (.char '\x08')
  | 't' => some (.char '\t')
  | '\t' => some (.char '\t')
  | 'n' => some (.char '\n')
  | 'v' => some (.char '\x0b')
  | 'f' => some (.char '\x0c')
  | 'r' => some (.char '\r')
  | 'e' => some (.char '\x1b')
  | ' ' => some (.char ' ')
  | '"' => some (.char '"')
  | '/' => some (.char '/')
  | '\\' => some (.char '\\')
  | 'N' => some (.char '\x85')
  | '_' => some (.char '\xa0')
  | 'L' => some (.char '\u2028')
  | 'P' => some (.char '\u2029')
  | 'x' => some (.code 2)
  | 'u' => some (.code 4)
  | 'U' => some (.code 8)
  | _ => none

/-- The value of a hexadecimal digit. -/
def hexValue? (c : Char) : Option Nat :=
  if c.isDigit then some (c.toNat - '0'.toNat)
  else if 'a' ≤ c && c ≤ 'f' then some (c.toNat - 'a'.toNat + 10)
  else if 'A' ≤ c && c ≤ 'F' then some (c.toNat - 'A'.toNat + 10)
  else none

/-- The value of exactly `n` hexadecimal digits at the start of a text. -/
def hexNumber? (n : Nat) (cs : List Char) : Option Nat :=
  let digits := cs.take n
  if digits.length < n then none else do return (← digits.mapM hexValue?).foldl (fun v d => 16 * v + d) 0

/-- Reads an escape that begins with a backslash and does not escape a line break. -/
def escaped (start : Mark) (c : Cursor) : Checked (Char × Cursor) :=
  match c.chars.drop 1 with
  | [] => c.fail .unknownEscape .quotedScalar start
  | e :: rest =>
    match escape? e with
    | none => c.fail .unknownEscape .quotedScalar start
    | some (.char ch) => .ok (ch, c.skip 2)
    | some (.code digits) =>
      match hexNumber? digits rest with
      | none => (c.skip 2).fail .missingHexDigit .quotedScalar start
      | some n =>
        if n.isValidChar then .ok (Char.ofNat n, c.skip (2 + digits))
        else (c.skip 2).fail .invalidCodePoint .quotedScalar start

/-- Reads content in single quotes up to a blank, a line break or the closing quote. -/
def singleRun : Nat → String → Cursor → String × Cursor
  | 0, content, c => (content, c)
  | fuel + 1, content, c =>
    match c.chars with
    | [] => (content, c)
    | '\'' :: '\'' :: _ => singleRun fuel (content.push '\'') (c.skip 2)
    | '\'' :: _ => (content, c)
    | ch :: _ => if isBlank ch || isBreak ch then (content, c) else singleRun fuel (content.push ch) (c.skip 1)

/-- Reads content in double quotes up to a blank, a line break or the closing quote; an escaped line break ends it too, as the
flag tells. -/
def doubleRun (start : Mark) : Nat → String → Cursor → Checked ((String × Bool) × Cursor)
  | 0, content, c => .ok ((content, false), c)
  | fuel + 1, content, c =>
    match c.chars with
    | [] => .ok ((content, false), c)
    | '"' :: _ => .ok ((content, false), c)
    | '\\' :: rest =>
      if rest.head?.any isBreak then .ok ((content, true), (c.skip 1).skipBreak)
      else do
        let (ch, c) ← escaped start c
        doubleRun start fuel (content.push ch) c
    | ch :: _ =>
      if isBlank ch || isBreak ch then .ok ((content, false), c) else doubleRun start fuel (content.push ch) (c.skip 1)

/-- Reads a run of content in quotes. -/
def quotedRun (isSingle : Bool) (start : Mark) (content : String) (c : Cursor) : Checked ((String × Bool) × Cursor) :=
  if isSingle then
    let (content, c) := singleRun c.bound content c
    .ok ((content, false), c)
  else doubleRun start c.bound content c

/-- Reads the rest of a quoted scalar. -/
def quotedFrom (isSingle : Bool) (start : Mark) : Nat → String → Cursor → Checked (String × Cursor)
  | 0, _, c => c.fail .strayEnd .quotedScalar start
  | fuel + 1, content, c =>
    if c.atDocumentMark then c.fail .strayDocumentMark .quotedScalar start
    else if c.atEnd then c.fail .strayEnd .quotedScalar start
    else do
      let ((content, escapedBreak), c) ← quotedRun isSingle start content c
      if c.at? (if isSingle then '\'' else '"') then return (content, c.skip 1)
      let (gap, c) ← Gap.read 0 start c.bound { isBroken := escapedBreak } c
      quotedFrom isSingle start fuel (content ++ gap.text) c

/-- Reads a scalar in quotes. -/
def quoted (isSingle : Bool) (c : Cursor) : Checked (Scalar × Cursor) := do
  let (content, c) ← quotedFrom isSingle c.mark (c.bound + 1) "" (c.skip 1)
  return (⟨content, if isSingle then .singleQuoted else .doubleQuoted⟩, c)

/-! ## Block scalars -/

/-- What becomes of the line breaks at the end of a block scalar. -/
inductive Chomping where
  | strip
  | clip
  | keep
deriving DecidableEq

/-- Reads the chomping mark of a block scalar, if there is one. -/
def chomping? (c : Cursor) : Option Chomping × Cursor :=
  match c.next? with
  | some '+' => (some .keep, c.skip 1)
  | some '-' => (some .strip, c.skip 1)
  | _ => (none, c)

/-- Reads the indentation mark of a block scalar, if there is one; zero means that there is none. -/
def indentation (start : Mark) (c : Cursor) : Checked (Nat × Cursor) :=
  match c.next? with
  | some ch =>
    if ch == '0' then c.fail .zeroIndentation .blockScalar start
    else if ch.isDigit then .ok (ch.toNat - '0'.toNat, c.skip 1)
    else .ok (0, c)
  | none => .ok (0, c)

/-- Reads the two marks of a block scalar in either order. -/
def blockMarks (start : Mark) (c : Cursor) : Checked ((Chomping × Nat) × Cursor) := do
  match chomping? c with
  | (some chomping, c) =>
    let (increment, c) ← indentation start c
    return ((chomping, increment), c)
  | (none, c) =>
    let (increment, c) ← indentation start c
    if increment = 0 then return ((.clip, 0), c)
    else
      let (chomping, c) := chomping? c
      return ((chomping.getD .clip, increment), c)

/-- Skips indentation and empty lines. `indent` is zero while it is not known; `deepest` is the deepest column reached. -/
def emptyLines (indent : Nat) (start : Mark) : Nat → Nat → String → Cursor → Checked ((Nat × String) × Cursor)
  | 0, deepest, breaks, c => .ok ((deepest, breaks), c)
  | fuel + 1, deepest, breaks, c =>
    let spaces := (c.chars.takeWhile (· == ' ')).length
    let c := c.skip (if indent = 0 then spaces else min spaces (indent - c.mark.column))
    let deepest := max deepest c.mark.column
    if (indent = 0 || c.mark.column < indent) && c.at? '\t' then c.fail .tabInIndentation .blockScalar start
    else if c.atBreak then emptyLines indent start fuel deepest (breaks ++ c.breakText) c.skipBreak
    else .ok ((deepest, breaks), c)

/-- The state between two lines of a block scalar. -/
structure Block where
  content : String := ""
  /-- The line break after the last line of content. -/
  lastBreak : String := ""
  /-- The line breaks of the empty lines after it. -/
  furtherBreaks : String := ""
  /-- Whether the last line of content began with a blank. -/
  wasIndented : Bool := false

/-- The content up to the next line, the line breaks folded where the style folds them. -/
def Block.upTo (b : Block) (isLiteral startsBlank : Bool) : String :=
  if !isLiteral && b.lastBreak == "\n" && !b.wasIndented && !startsBlank then
    b.content ++ (if b.furtherBreaks.isEmpty then " " else "") ++ b.furtherBreaks
  else b.content ++ b.lastBreak ++ b.furtherBreaks

/-- The content after the last line. -/
def Block.chomped (b : Block) : Chomping → String
  | .strip => b.content
  | .clip => b.content ++ b.lastBreak
  | .keep => b.content ++ b.lastBreak ++ b.furtherBreaks

/-- Reads the lines of a block scalar. -/
def blockLines (isLiteral : Bool) (indent : Nat) (start : Mark) : Nat → Block → Cursor → Checked (Block × Cursor)
  | 0, b, c => .ok (b, c)
  | fuel + 1, b, c =>
    if c.mark.column != indent || c.atEnd then .ok (b, c)
    else do
      let startsBlank := c.atBlank
      let (line, rest) := c.span (!isBreak ·)
      let content := b.upTo isLiteral startsBlank ++ String.ofList line
      let lastBreak := rest.breakText
      let rest := if rest.atBreak then rest.skipBreak else rest
      let ((_, furtherBreaks), rest) ← emptyLines indent start (rest.bound + 1) 0 "" rest
      blockLines isLiteral indent start fuel ⟨content, lastBreak, furtherBreaks, startsBlank⟩ rest

/-- Reads a block scalar inside a collection at the given indentation, minus one standing for no collection. -/
def block (isLiteral : Bool) (parent : Int) (c : Cursor) : Checked (Scalar × Cursor) := do
  let start := c.mark
  let ((chomping, increment), c) ← blockMarks start (c.skip 1)
  let c := c.skipWhile isBlank
  let c := if c.at? '#' then c.skipWhile (!isBreak ·) else c
  if !(c.atEnd || c.atBreak) then c.fail .missingLineEnd .blockScalar start
  let c := if c.atBreak then c.skipBreak else c
  let given := if increment = 0 then 0 else parent.toNat + increment
  let ((deepest, breaks), c) ← emptyLines given start (c.bound + 1) 0 "" c
  let indent := if given = 0 then max (max deepest (parent + 1).toNat) 1 else given
  let (b, c) ← blockLines isLiteral indent start (c.bound + 1) { furtherBreaks := breaks } c
  return (⟨b.chomped chomping, if isLiteral then .literal else .folded⟩, c)

end Scalar

end VersionChain.Yaml
