import VersionChain.Text.Whitespace

/-!
# Why a selector or coordinate is refused

A refusal names the text that was refused and the rule it breaks.
-/

namespace VersionChain

/-- The rule that a selector or coordinate breaks. -/
inductive SelectorFault where
  /-- A module is two non-empty texts around one colon. -/
  | notAModule
  /-- A request is a group, a name and a selector, none of them empty. -/
  | notARequest
  /-- A selector holds something beside white space. -/
  | empty
  /-- After `latest.` comes a status. -/
  | missingStatus
  /-- A text that opens like a range is one. -/
  | malformedRange
  /-- A version holds neither commas nor white space. -/
  | strayCharacter
  /-- A fault described by whoever found it. -/
  | described (message : String)
deriving DecidableEq

namespace SelectorFault

/-- The words for a fault. -/
def message : SelectorFault → String
  | notAModule => "expected 'group:name'"
  | notARequest => "expected 'group:name:version'"
  | empty => "selector is empty"
  | missingStatus => "missing status after 'latest.'"
  | malformedRange => "malformed version range"
  | strayCharacter => "unexpected ',' or whitespace"
  | described message => message

end SelectorFault

/-- A refused selector or coordinate. -/
structure SelectorError where
  selector : String
  fault : SelectorFault
deriving DecidableEq

namespace SelectorError

/-- The words for a refusal. -/
def message (e : SelectorError) : String :=
  "Invalid version selector '" ++ e.selector ++ "': " ++ e.fault.message

end SelectorError

end VersionChain
