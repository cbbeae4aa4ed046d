/-!
# JSON

The written form of a value in JSON, with one entry a line and two spaces for each level of nesting. A list or object without
entries takes no lines.
-/

namespace VersionChain.Text

/-- The values that are written in JSON. -/
inductive Json where
  | null
  | text (s : String)
  | list (values : List Json)
  | object (fields : List (String × Json))

namespace Json

/-- The digits of a number below 65536 in hexadecimal, four of them. -/
def fourDigits (n : Nat) : List Char :=
  let digits := Nat.toDigits 16 n
  List.replicate (4 - digits.length) '0' ++ digits

/-- The written form of a character. -/
def character (c : Char) : List Char :=
  match c with
  | '"' => ['\\', '"']
  | '\\' => ['\\', '\\']
  | '\x08' => ['\\', 'b']
  | '\x0c' => ['\\', 'f']
  | '\n' => ['\\', 'n']
  | '\r' => ['\\', 'r']
  | '\t' => ['\\', 't']
  | c => if c.toNat < 0x20 then ['\\', 'u'] ++ fourDigits c.toNat else [c]

/-- The written form of a text. -/
def string (s : String) : String := String.ofList ('"' :: s.toList.flatMap character ++ ['"'])

/-- Entries between two marks, on lines of their own at a depth of nesting. -/
def block (opening closing : String) (depth : Nat) (entries : List String) : String :=
  if entries.isEmpty then opening ++ closing
  else
    let margin (n : Nat) := "\n" ++ String.ofList (List.replicate (2 * n) ' ')
    opening ++ ",".intercalate (entries.map fun e => margin (depth + 1) ++ e) ++ margin depth ++ closing

mutual

/-- The written form of a value at a depth of nesting. -/
def written (depth : Nat) : Json → String
  | null => "null"
  | text s => string s
  | list values => block "[" "]" depth (writtenValues (depth + 1) values)
  | object fields => block "\x7b" "\x7d" depth (writtenFields (depth + 1) fields)

/-- The written forms of the values of a list. -/
def writtenValues (depth : Nat) : List Json → List String
  | [] => []
  | value :: rest => written depth value :: writtenValues depth rest

/-- The written forms of the fields of an object. -/
def writtenFields (depth : Nat) : List (String × Json) → List String
  | [] => []
  | (name, value) :: rest => (string name ++ ": " ++ written depth value) :: writtenFields depth rest

end

end Json

end VersionChain.Text
