import VersionChain.Coordinate
import VersionChain.Failure
import VersionChain.Outcome
import VersionChain.Text.Quoted

/-!
# The log

What a resolution tells about itself while it runs. Each event has a level, the topic it belongs to, and its words.
-/

namespace VersionChain

/-- The severity of an event, the gravest first. -/
inductive Level where
  | error
  | warn
  | info
  | debug
  | trace
deriving DecidableEq

namespace Level

/-- The place of a level, from the gravest on. -/
def rank : Level → Nat
  | error => 1
  | warn => 2
  | info => 3
  | debug => 4
  | trace => 5

/-- The name of a level. -/
def name : Level → String
  | error => "ERROR"
  | warn => "WARN"
  | info => "INFO"
  | debug => "DEBUG"
  | trace => "TRACE"

end Level

/-- How much of the log is shown: nothing, or everything down to a level. -/
abbrev Verbosity := Option Level

namespace Verbosity

/-- Whether events of a level are shown. -/
def shows (v : Verbosity) (l : Level) : Bool := v.any fun limit => l.rank ≤ limit.rank

/-- The verbosities by name. -/
def byName : List (String × Verbosity) :=
  [("off", none), ("error", some .error), ("warn", some .warn), ("info", some .info), ("debug", some .debug),
    ("trace", some .trace)]

/-- Reads a verbosity; the case of ASCII letters does not count. -/
def ofText? (text : String) : Option Verbosity := byName.lookup (text.map Char.toLower)

end Verbosity

/-- The part of the library that an event comes from. -/
inductive Topic where
  | candidate
  | directory
  | listing
  | memory
  | resolver
  | state
deriving DecidableEq

/-- The name of a topic in a log line. -/
def Topic.path : Topic → String
  | candidate => "dynamic_resolve::candidate"
  | directory => "dynamic_resolve::directory"
  | listing => "dynamic_resolve::listing"
  | memory => "dynamic_resolve::memory"
  | resolver => "dynamic_resolve::resolver"
  | state => "dynamic_resolve::state"

/-- What can be told. -/
inductive Event where
  /-- A tier is about to be asked for the versions of a module. -/
  | listing (module : Module) (repository : String) (tier : Tier)
  /-- A tier is about to be asked for the metadata of a component. -/
  | fetching (component : Component) (repository : String) (tier : Tier)
  /-- A tier was asked for versions and looks at the given place. -/
  | consulting (topic : Topic) (repository : String) (tier : Tier) (place : String)
  /-- A tier was asked for metadata and looks at the given place, perhaps saying for which request. -/
  | reading (topic : Topic) (repository : String) (tier : Tier) (place : String) (request : Option Request)
  /-- The policy matched a version that the repository did not list. -/
  | unlisted (component : Component) (repository : String)
  /-- A matching version turned out to have no metadata. -/
  | noMetadata (component : Component) (repository : String) (state : String)
  /-- A request is taken up. -/
  | attempting (request : Request) (repositories : List String)
  /-- No repository resolved the request nearby, and some are asked again. -/
  | retrying (request : Request) (repositories : Nat)
  /-- A failure does not matter because another repository resolved the request. -/
  | discarding (failure : Failure)
  /-- The request is resolved. -/
  | adopting (component : Component) (repository : String)
deriving DecidableEq

namespace Event

/-- The severity of an event. -/
def level : Event → Level
  | listing .. => .trace
  | fetching .. => .trace
  | consulting .. => .trace
  | reading .. => .trace
  | unlisted .. => .warn
  | noMetadata .. => .debug
  | attempting .. => .debug
  | retrying .. => .debug
  | discarding .. => .debug
  | adopting .. => .debug

/-- The topic of an event. -/
def topic : Event → Topic
  | listing .. => .listing
  | fetching .. => .candidate
  | consulting topic .. => topic
  | reading topic .. => topic
  | unlisted .. => .state
  | noMetadata .. => .state
  | attempting .. => .resolver
  | retrying .. => .resolver
  | discarding .. => .resolver
  | adopting .. => .resolver

/-- The words for an event. -/
def text : Event → String
  | listing module repository tier =>
    "Listing versions of " ++ module.text ++ " in " ++ repository ++ " (" ++ tier.name ++ ")"
  | fetching component repository tier =>
    "Fetching metadata of " ++ component.text ++ " from " ++ repository ++ " (" ++ tier.name ++ ")"
  | consulting _ repository tier place => repository ++ " " ++ tier.name ++ " listing " ++ place
  | reading _ repository tier place request =>
    repository ++ " " ++ tier.name ++ " metadata " ++ place ++ (request.map fun r => " for " ++ r.text).getD ""
  | unlisted component repository =>
    "Selection policy matched " ++ component.text ++ " which " ++ repository ++ " did not list"
  | noMetadata component repository state =>
    "No metadata for matching version " ++ component.text ++ " in " ++ repository ++ " (" ++ state ++ ")"
  | attempting request repositories =>
    "Attempting to resolve version for " ++ request.text ++ " using repositories " ++ Text.quotedList repositories
  | retrying request repositories =>
    "No local match for " ++ request.text ++ "; retrying " ++ toString repositories ++ " repositories remotely"
  | discarding failure => "Discarding resolve failure: " ++ failure.text
  | adopting component repository => "Using " ++ component.text ++ " from " ++ repository

end Event

/-- Events in the order in which they happened. -/
abbrev Log := List Event

/-- The part of a log that is shown. -/
def Log.shown (log : Log) (v : Verbosity) : Log := log.filter fun e => v.shows e.level

end VersionChain
