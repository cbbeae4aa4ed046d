/-!
# Reading a YAML text character by character

A cursor is what is left of a text and the place where it begins. Lines end with a line feed, a carriage return, both, or one of
three further characters that count as line breaks in YAML.
-/

namespace VersionChain.Yaml

/-- A place in a text, counted from zero. -/
structure Mark where
  /-- The number of octets before the place. -/
  index : Nat := 0
  line : Nat := 0
  column : Nat := 0
deriving DecidableEq

/-- The words for a place, counted from one. -/
def Mark.text (m : Mark) : String :=
  "line " ++ toString (m.line + 1) ++ " column " ++ toString (m.column + 1)

/-- The start of a text, which is not named in messages. -/
def Mark.isStart (m : Mark) : Bool := m.line == 0 && m.column == 0

/-- The characters that end a line. -/
def isBreak (c : Char) : Bool :=
  c == '\n' || c == '\r' || c == '\x85' || c == '\u2028' || c == '\u2029'

/-- Spaces and tabs. -/
def isBlank (c : Char) : Bool := c == ' ' || c == '\t'

/-- The characters of names: ASCII letters, digits, the underscore and the hyphen. -/
def isNameChar (c : Char) : Bool := c.isAlphanum || c == '_' || c == '-'

/-- Nothing, or something that begins with a blank or a line break. -/
def beginsBlank : List Char → Bool
  | [] => true
  | c :: _ => isBlank c || isBreak c

/-- The characters a YAML text may hold. -/
def isAllowed (c : Char) : Bool :=
  let n := c.toNat
  n == 0x9 || n == 0xA || n == 0xD || (0x20 ≤ n && n ≤ 0x7E) || n == 0x85 || (0xA0 ≤ n && n ≤ 0xFFFD) || 0x10000 ≤ n

/-- What is left of a text and where it begins. -/
structure Cursor where
  chars : List Char
  mark : Mark := {}
  /-- The length of the whole text. No loop over what is left of it takes more steps. -/
  bound : Nat

namespace Cursor

/-- The cursor at the start of a text. -/
def ofText (cs : List Char) : Cursor := { chars := cs, bound := cs.length }

/-- The next character. -/
def next? (c : Cursor) : Option Char := c.chars.head?

/-- Whether the text begins with the given character. -/
def at? (c : Cursor) (ch : Char) : Bool := c.next? == some ch

/-- Whether the text is used up. -/
def atEnd (c : Cursor) : Bool := c.chars.isEmpty

/-- Whether the text begins with a line break. -/
def atBreak (c : Cursor) : Bool := c.next?.any isBreak

/-- Whether the text begins with a space or tab. -/
def atBlank (c : Cursor) : Bool := c.next?.any isBlank

/-- The number of octets that characters take up. -/
def octets (cs : List Char) : Nat := cs.foldl (fun n c => n + c.utf8Size) 0

/-- The cursor after `n` characters of the same line. -/
def skip (c : Cursor) (n : Nat) : Cursor :=
  { c with
    chars := c.chars.drop n
    mark := { c.mark with index := c.mark.index + octets (c.chars.take n), column := c.mark.column + n } }

/-- The characters of the same line up to the first that fails the test, and the cursor after them. -/
def span (c : Cursor) (p : Char → Bool) : List Char × Cursor :=
  let run := c.chars.takeWhile p
  (run, c.skip run.length)

/-- The cursor after the characters that pass the test. -/
def skipWhile (c : Cursor) (p : Char → Bool) : Cursor := (c.span p).2

/-- The cursor after the first line break, a carriage return and line feed being one. -/
def skipBreak (c : Cursor) : Cursor :=
  match c.chars with
  | '\r' :: '\n' :: rest => { c with chars := rest, mark := ⟨c.mark.index + 2, c.mark.line + 1, 0⟩ }
  | b :: rest => { c with chars := rest, mark := ⟨c.mark.index + b.utf8Size, c.mark.line + 1, 0⟩ }
  | [] => c

/-- How a line break is written into a scalar: all but the line and paragraph separators become line feeds. -/
def breakText (c : Cursor) : String :=
  match c.next? with
  | some '\u2028' => "\u2028"
  | some '\u2029' => "\u2029"
  | some _ => "\n"
  | none => ""

/-- Whether a document indicator, `---` or `...`, stands at the start of the line. -/
def atDocumentMark (c : Cursor) : Bool :=
  c.mark.column == 0 && beginsBlank (c.chars.drop 3) &&
    (c.chars.take 3 == ['-', '-', '-'] || c.chars.take 3 == ['.', '.', '.'])

end Cursor

end VersionChain.Yaml
