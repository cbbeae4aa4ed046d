/-!
# Control sequences

A text may hold sequences that control a terminal rather than show on it. Where there is no terminal they are left out, and so are
single control characters, white space excepted. A sequence begins with the escape character; what follows that one tells how the
sequence ends.

White space inside a short sequence or one with parameters is shown, and so is what follows it up to the next control
character; there the sequence goes on. Only a character outside ASCII ends it before. A text for the terminal or for a device is
left out as a whole, line ends and all, and one that does not end takes the rest with it.
-/

namespace VersionChain.Text.Controls

/-- What the characters read so far make of the next one. -/
inductive Mode where
  /-- No sequence has begun. -/
  | plain
  /-- The escape character was read. -/
  | escaped
  /-- A short sequence, which ends with a digit, a letter or a mark above them. -/
  | short
  /-- A sequence with parameters, which ends with a letter or a mark above the digits. -/
  | parameters
  /-- A text for the terminal, which ends with the bell. -/
  | command
  /-- The place before a text for a device, where its parameters begin. -/
  | deviceStart
  /-- The parameters before a text for a device. -/
  | deviceParameters
  /-- The marks between the parameters and a text for a device. -/
  | deviceMarks
  /-- A text for a device, which ends with the octet of the string terminator or the next escape character. -/
  | device
deriving DecidableEq

/-- White space that is a control character. -/
def isBlank (c : Char) : Bool := c == '\t' || c == '\n' || c == '\x0c' || c == '\r'

/-- A control character. -/
def isControl (c : Char) : Bool := c < ' ' || c == '\x7f'

/-- Whether a character is shown outside of sequences. -/
def isShown (c : Char) : Bool := isBlank c || !isControl c

/-- Whether the octet of the string terminator is among those after the first in the encoding of a character. -/
def holdsTerminator (c : Char) : Bool :=
  let n := c.toNat
  (0x80 ≤ n && n % 0x40 == 0x1C) || (0x800 ≤ n && n / 0x40 % 0x40 == 0x1C) || (0x10000 ≤ n && n / 0x1000 % 0x40 == 0x1C)

namespace Mode

/-- The mode after the character that follows the escape character. -/
def ofKind (c : Char) : Mode :=
  if c == '[' then parameters
  else if c == ']' then command
  else if c == 'P' then deviceStart
  else if c == 'X' || c == '^' || c == '_' then device
  else if ' ' ≤ c && c ≤ '/' then short
  else if '0' ≤ c && c ≤ '~' then plain
  else escaped

/-- The mode after a character that is not shown. A sequence is abandoned where another one begins. -/
def next (m : Mode) (c : Char) : Mode :=
  if c == '\x1b' then escaped
  else if c == '\x18' || c == '\x1a' then plain
  else
    match m with
    | plain => plain
    | escaped => ofKind c
    | short => if '0' ≤ c && c ≤ '~' then plain else short
    | parameters => if '@' ≤ c && c ≤ '~' then plain else parameters
    | command => if c == '\x07' then plain else command
    | deviceStart =>
      if ' ' ≤ c && c ≤ '/' then deviceMarks
      else if '0' ≤ c && c ≤ '?' then deviceParameters
      else if '@' ≤ c && c ≤ '~' then device
      else deviceStart
    | deviceParameters =>
      if ' ' ≤ c && c ≤ '/' then deviceMarks
      else if '<' ≤ c && c ≤ '~' then device
      else deviceParameters
    | deviceMarks => if '0' ≤ c && c ≤ '~' then device else deviceMarks
    | device => if holdsTerminator c then plain else device

/-- Whether a character is shown. White space is shown in the short sequences, too. -/
def shows (m : Mode) (c : Char) : Bool :=
  match m with
  | plain => isShown c
  | escaped | short | parameters => isBlank c
  | command | deviceStart | deviceParameters | deviceMarks | device => false

/-- The mode after a character that is shown, for when the next one that is not comes. -/
def after (m : Mode) (c : Char) : Mode := if c.toNat < 0x80 then m else plain

end Mode

/-- The characters of a text that are shown, read in the given mode; `running` tells whether the last one was shown. -/
def shownFrom (m : Mode) (running : Bool) : List Char → List Char
  | [] => []
  | c :: cs =>
    if (running && isShown c) || m.shows c then c :: shownFrom (m.after c) true cs
    else shownFrom (m.next c) false cs

/-- A text without control sequences. -/
def leftOut (text : String) : String := String.ofList (shownFrom .plain false text.toList)

end VersionChain.Text.Controls
