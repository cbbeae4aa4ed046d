import VersionChain.Metadata
import VersionChain.Refusal
import VersionChain.Version.Basic

/-!
# Matchers

What a selector asks for: the latest version, perhaps of a minimal status; every version whose text starts in a given way; every
version between two bounds; or one version by its text. Version bounds compare semantically, so `[1.0,2.0)` holds `v1.0.0`.
-/

namespace VersionChain

/-- One end of a range. -/
structure Bound where
  version : Version
  inclusive : Bool
deriving DecidableEq

/-- Whether a version lies on the given side of a bound, or on the bound where that is included. -/
def Bound.admits (b : Bound) (side : Ordering) (v : Version) : Bool :=
  match v.semanticCompare b.version with
  | .eq => b.inclusive
  | o => o == side

/-- What a selector asks for. -/
inductive Matcher where
  | latest (status : Option String)
  | startingWith (start : String)
  | range (lower upper : Option Bound)
  | exactly (version : String)
deriving DecidableEq

namespace Matcher

/-- The characters a bound's text may hold. -/
def isBoundChar (c : Char) : Bool :=
  !Text.isSpace c && c != ',' && c != '[' && c != ']' && c != '(' && c != ')'

/-- The bound with a given text; an empty text means that the range is open on that side. -/
def bound? (cs : List Char) (inclusive : Bool) : Option Bound :=
  if cs.isEmpty then none else some ⟨⟨String.ofList cs⟩, inclusive⟩

/-- Two bounds are in order unless both exist and the lower one is the greater. -/
def inOrder : Option Bound → Option Bound → Bool
  | some l, some u => l.version.semanticCompare u.version != .gt
  | _, _ => true

/-- A bound's text with the white space around it, and what follows. -/
def boundText (cs : List Char) : List Char × List Char :=
  let cs := cs.dropWhile Text.isSpace
  (cs.takeWhile isBoundChar, (cs.dropWhile isBoundChar).dropWhile Text.isSpace)

/-- A range: a bracket, two bound texts around a comma, a bracket. `[` includes a lower bound and `]` an upper one. -/
def range? : List Char → Option Matcher
  | opening :: cs =>
    let (low, cs) := boundText cs
    match cs with
    | ',' :: cs =>
      let (high, cs) := boundText cs
      match cs with
      | [closing] =>
        let lower := bound? low (opening == '[')
        let upper := bound? high (closing == ']')
        if (opening == '[' || opening == ']' || opening == '(') && (closing == ']' || closing == '[' || closing == ')') &&
            inOrder lower upper then
          some (range lower upper)
        else none
      | _ => none
    | _ => none
  | [] => none

/-- A text that opens like a range. -/
def opensRange : List Char → Bool
  | c :: _ => c == '[' || c == ']' || c == '('
  | [] => false

/-- The matcher for a selector without white space around it. -/
def ofTrimmed (cs : List Char) : Except SelectorFault Matcher :=
  if cs.isEmpty then .error .empty
  else if cs == "latest".toList || cs == ['+'] then .ok (latest none)
  else
    match "latest.".toList.isPrefixOf? cs with
    | some status => if status.isEmpty then .error .missingStatus else .ok (latest (some (String.ofList status)))
    | none =>
      if cs.getLast? == some '+' then .ok (startingWith (String.ofList cs.dropLast))
      else if opensRange cs then
        match range? cs with
        | some m => .ok m
        | none => .error .malformedRange
      else if cs.any fun c => Text.isSpace c || c == ',' then .error .strayCharacter
      else .ok (exactly (String.ofList cs))

/-- Reads a selector. -/
def ofSelector (selector : String) : Except SelectorError Matcher :=
  let cs := Text.trimmed selector.toList
  match ofTrimmed cs with
  | .ok m => .ok m
  | .error fault => .error ⟨String.ofList cs, fault⟩

/-- Whether the selector asks for one version only. -/
def isUnique : Matcher → Bool
  | latest _ => true
  | exactly _ => true
  | _ => false

/-- Whether a version can be judged only by its metadata. -/
def needsMetadata : Matcher → Bool
  | latest (some _) => true
  | _ => false

/-- Whether a version is what the selector asks for, as far as its text tells. -/
def accepts (m : Matcher) (v : Version) : Bool :=
  match m with
  | latest _ => true
  | startingWith start => start.toList.isPrefixOf v.source.toList
  | range lower upper => lower.all (·.admits .gt v) && upper.all (·.admits .lt v)
  | exactly version => v.source == version

/-- Whether the metadata is of the status asked for, or of a later one in its own scheme. -/
def acceptsMetadata (m : Matcher) (metadata : Metadata) : Bool :=
  match m with
  | latest (some wanted) =>
    match metadata.statusScheme.idxOf? metadata.status, metadata.statusScheme.idxOf? wanted with
    | some actual, some wanted => wanted ≤ actual
    | _, _ => false
  | _ => true

end Matcher

end VersionChain
