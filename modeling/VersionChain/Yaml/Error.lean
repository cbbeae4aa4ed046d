import VersionChain.Text.Quoted
import VersionChain.Yaml.Cursor

/-!
# Why a YAML text cannot be read

A text can be malformed, or well formed and of another shape than the one expected. In the second case the error names the path to
the offending value.
-/

namespace VersionChain.Yaml

/-- What breaks the rules of the notation. -/
inductive Problem where
  | missingColon
  | entryNotAllowed
  | keyNotAllowed
  | valueNotAllowed
  | strayCharacter
  | unknownDirective
  | missingLineEnd
  | missingDirectiveName
  | strayInDirectiveName
  | missingVersionPoint
  | longVersionNumber
  | missingVersionNumber
  | missingBlank
  | missingBlankOrBreak
  | missingName
  | missingTagEnd
  | missingTagMark
  | missingTagText
  | missingOctet
  | badLeadingOctet
  | badTrailingOctet
  | zeroIndentation
  | tabInIndentation
  | tabBeforeContent
  | strayDocumentMark
  | strayEnd
  | unknownEscape
  | missingHexDigit
  | invalidCodePoint
  | strayColon
  | missingDocumentStart
  | missingContent
  | undefinedTagHandle
  | missingEntry
  | missingKey
  | missingSequenceEnd
  | missingMappingEnd
  | repeatedVersion
  | incompatibleVersion
  | repeatedTagHandle
deriving DecidableEq

/-- The words for a problem. -/
def Problem.text : Problem → String
  | missingColon => "could not find expected ':'"
  | entryNotAllowed => "block sequence entries are not allowed in this context"
  | keyNotAllowed => "mapping keys are not allowed in this context"
  | valueNotAllowed => "mapping values are not allowed in this context"
  | strayCharacter => "found character that cannot start any token"
  | unknownDirective => "found unknown directive name"
  | missingLineEnd => "did not find expected comment or line break"
  | missingDirectiveName => "could not find expected directive name"
  | strayInDirectiveName => "found unexpected non-alphabetical character"
  | missingVersionPoint => "did not find expected digit or '.' character"
  | longVersionNumber => "found extremely long version number"
  | missingVersionNumber => "did not find expected version number"
  | missingBlank => "did not find expected whitespace"
  | missingBlankOrBreak => "did not find expected whitespace or line break"
  | missingName => "did not find expected alphabetic or numeric character"
  | missingTagEnd => "did not find the expected '>'"
  | missingTagMark => "did not find expected '!'"
  | missingTagText => "did not find expected tag URI"
  | missingOctet => "did not find URI escaped octet"
  | badLeadingOctet => "found an incorrect leading UTF-8 octet"
  | badTrailingOctet => "found an incorrect trailing UTF-8 octet"
  | zeroIndentation => "found an indentation indicator equal to 0"
  | tabInIndentation => "found a tab character where an indentation space is expected"
  | tabBeforeContent => "found a tab character that violates indentation"
  | strayDocumentMark => "found unexpected document indicator"
  | strayEnd => "found unexpected end of stream"
  | unknownEscape => "found unknown escape character"
  | missingHexDigit => "did not find expected hexdecimal number"
  | invalidCodePoint => "found invalid Unicode character escape code"
  | strayColon => "found unexpected ':'"
  | missingDocumentStart => "did not find expected <document start>"
  | missingContent => "did not find expected node content"
  | undefinedTagHandle => "found undefined tag handle"
  | missingEntry => "did not find expected '-' indicator"
  | missingKey => "did not find expected key"
  | missingSequenceEnd => "did not find expected ',' or ']'"
  | missingMappingEnd => "did not find expected ',' or '\x7d'"
  | repeatedVersion => "found duplicate %YAML directive"
  | incompatibleVersion => "found incompatible YAML document"
  | repeatedTagHandle => "found duplicate %TAG directive"

/-- What was being read when a problem came up. -/
inductive Reading where
  | nothing
  | simpleKey
  | nextToken
  | directive
  | versionDirective
  | tagDirective
  | anchor
  | aliasName
  | tag
  | blockScalar
  | quotedScalar
  | plainScalar
  | node
  | blockNode
  | flowNode
  | blockSequence
  | blockMapping
  | flowSequence
  | flowMapping
deriving DecidableEq

/-- The words for what was being read. -/
def Reading.text : Reading → String
  | nothing => ""
  | simpleKey => "while scanning a simple key"
  | nextToken => "while scanning for the next token"
  | directive => "while scanning a directive"
  | versionDirective => "while scanning a %YAML directive"
  | tagDirective => "while scanning a %TAG directive"
  | anchor => "while scanning an anchor"
  | aliasName => "while scanning an alias"
  | tag => "while scanning a tag"
  | blockScalar => "while scanning a block scalar"
  | quotedScalar => "while scanning a quoted scalar"
  | plainScalar => "while scanning a plain scalar"
  | node => "while parsing a node"
  | blockNode => "while parsing a block node"
  | flowNode => "while parsing a flow node"
  | blockSequence => "while parsing a block collection"
  | blockMapping => "while parsing a block mapping"
  | flowSequence => "while parsing a flow sequence"
  | flowMapping => "while parsing a flow mapping"

/-- A place where a text breaks the rules of the notation. -/
structure Malformation where
  problem : Problem
  mark : Mark
  reading : Reading
  /-- Where the reading began. -/
  start : Mark
deriving DecidableEq

/-- The words for a malformation: the problem, and what was being read unless it was nothing in particular. -/
def Malformation.text (m : Malformation) : String :=
  let problem := m.problem.text ++ if m.mark.isStart then "" else " at " ++ m.mark.text
  if m.reading = .nothing then problem
  else
    let begun := if m.start.isStart || (m.start.line == m.mark.line && m.start.column == m.mark.column) then ""
      else " at " ++ m.start.text
    problem ++ ", " ++ m.reading.text ++ begun

/-- One step from a value to a value inside it. -/
inductive Step where
  | key (name : String)
  | index (i : Nat)
deriving DecidableEq

/-- The steps from the root of a document to a value, the first step first. -/
abbrev Path := List Step

/-- The written form of a path: keys joined by points, indices in brackets. -/
def Path.text (p : Path) : String :=
  p.foldl (fun text step =>
    match step with
    | .key name => if text.isEmpty then name else text ++ "." ++ name
    | .index i => text ++ "[" ++ toString i ++ "]") ""

/-- What was found in the place of something else. -/
inductive Found where
  | scalar (text : String) (isPlain : Bool)
  | sequence
  | mapping
deriving DecidableEq

/-- The words for what was found. A plain scalar is named by what it stands for. -/
def Found.text : Found → String
  | sequence => "sequence"
  | mapping => "map"
  | scalar text isPlain =>
    if isPlain && text ∈ ["", "~", "null", "Null", "NULL"] then "unit value"
    else if isPlain && text ∈ ["true", "True", "TRUE"] then "boolean `true`"
    else if isPlain && text ∈ ["false", "False", "FALSE"] then "boolean `false`"
    else if isPlain && text.toList.all Char.isDigit && (text.length == 1 || !text.startsWith "0") then
      "integer `" ++ text ++ "`"
    else "string " ++ Text.quoted text

/-- What is wrong with the shape of a value. -/
inductive ShapeFault where
  | wrongKind (found : Found) (expected : String)
  | notNull (text : String)
  | missingField (name : String)
  | repeatedField (name : String)
deriving DecidableEq

/-- The words for a fault. -/
def ShapeFault.text : ShapeFault → String
  | wrongKind found expected => "invalid type: " ++ found.text ++ ", expected " ++ expected
  | notNull text => "invalid value: string " ++ Text.quoted text ++ ", expected null"
  | missingField name => "missing field `" ++ name ++ "`"
  | repeatedField name => "duplicate field `" ++ name ++ "`"

/-- Why a text cannot be read. -/
inductive Error where
  | malformed (m : Malformation)
  /-- A character that no text may hold, at a position counted in bytes. -/
  | forbiddenCharacter (position : Nat)
  | unknownAnchor (mark : Mark)
  | tooManyAliases
  | severalDocuments
  | shape (path : Path) (mark : Mark) (fault : ShapeFault)
deriving DecidableEq

namespace Error

/-- A message with the place it is about, unless that is the start of the text. -/
def placed (message : String) (mark : Mark) : String :=
  if mark.isStart then message else message ++ " at " ++ mark.text

/-- The words for an error. -/
def message : Error → String
  | malformed m => m.text
  | forbiddenCharacter position =>
    "control characters are not allowed" ++ if position == 0 then "" else " at position " ++ toString position
  | unknownAnchor mark => placed "unknown anchor" mark
  | tooManyAliases => "repetition limit exceeded"
  | severalDocuments => "deserializing from YAML containing more than one document is not supported"
  | shape path mark fault =>
    placed ((if path.isEmpty then "" else path.text ++ ": ") ++ fault.text) mark

end Error

end VersionChain.Yaml
