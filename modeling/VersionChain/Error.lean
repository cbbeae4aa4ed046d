import VersionChain.Failure
import VersionChain.Files.Fault
import VersionChain.Glob
import VersionChain.Refusal
import VersionChain.Yaml.Error

/-!
# Errors

What ends an operation of this library as a whole. A repository's failures become part of an error only when no repository
resolves the request.
-/

namespace VersionChain

/-- What is wrong with a configuration. -/
inductive ConfigurationFault where
  /-- The text is not YAML of the expected shape. -/
  | malformed (error : Yaml.Error)
  /-- No repository is configured. -/
  | noRepositories
  /-- A repository's name is blank. -/
  | blankName
  /-- Two repositories have the same name. -/
  | duplicateName (name : String)
  /-- A reject rule is not a glob. -/
  | badPattern (pattern : String) (error : Glob.Error)
  /-- A fault described by whoever found it. -/
  | described (message : String) (hint : Option String)
deriving DecidableEq

namespace ConfigurationFault

/-- The words for a fault. -/
def message : ConfigurationFault → String
  | malformed error => error.message
  | noRepositories => "No repositories configured"
  | blankName => "Repository name must not be empty"
  | duplicateName name => "Duplicate repository name '" ++ name ++ "'"
  | badPattern pattern error => "Invalid reject pattern '" ++ pattern ++ "': " ++ error.message
  | described message _ => message

/-- What to do about a fault. -/
def hint : ConfigurationFault → Option String
  | malformed _ => some "See the 'repositories:' schema in the documentation"
  | noRepositories => some "Add at least one entry under 'repositories:' with a 'name'"
  | blankName => some "Give every repository a unique 'name'"
  | duplicateName _ => some "Repository names must be unique"
  | badPattern .. => some "Reject patterns use glob syntax, e.g. '*-SNAPSHOT'"
  | described _ hint => hint

end ConfigurationFault

/-- An error of this library. -/
inductive Error where
  | configuration (fault : ConfigurationFault)
  | selector (error : SelectorError)
  /-- No repository has a version that the request selects. -/
  | notFound (request : String) (attempted unmatched rejected : List String)
  /-- No repository resolved the request, and some failed. -/
  | unresolved (request : String) (causes : List Failure)
  | file (fault : Files.Fault)
  | yaml (error : Yaml.Error)
  | glob (error : Glob.Error)
deriving DecidableEq

namespace Error

/-- Entries below a heading, one to a line. -/
def itemized (heading : String) (entries : List String) : String :=
  "\n" ++ heading ++ String.join (entries.map fun e => "\n  - " ++ e)

/-- Entries below a heading, or nothing where there are none. -/
def optionalItems (heading : String) (entries : List String) : String :=
  if entries.isEmpty then "" else itemized heading entries

/-- The words for an error. -/
def message : Error → String
  | configuration fault =>
    "Configuration parsing error: " ++ fault.message ++ (fault.hint.map fun h => "\n  hint: " ++ h).getD ""
  | selector error => error.message
  | notFound request attempted unmatched rejected =>
    "Could not find any version that matches " ++ request ++ "." ++
      optionalItems "Versions that do not match:" unmatched ++
      optionalItems "Versions rejected by component selection rules:" rejected ++
      if attempted.isEmpty then "\nNo locations were searched."
      else itemized "Searched in the following locations:" attempted
  | unresolved request causes =>
    "Could not resolve " ++ request ++ "." ++ String.join (causes.map fun c => "\n  caused by: " ++ c.text)
  | file fault => "I/O error: " ++ fault.message
  | yaml error => "YAML parsing error: " ++ error.message
  | glob error => "Glob pattern error: " ++ error.message

end Error

end VersionChain
