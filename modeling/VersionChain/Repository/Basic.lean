import VersionChain.Log
import VersionChain.Outcome

/-!
# Repositories

A repository has a name and two tiers. A tier answers two kinds of questions: which versions a module has, and what the metadata
of a component is. Its answers may depend on everything the repository was asked before, so a tier is a function of that history.
A `Visit` is one request's dealings with one repository: it asks, and it remembers what was asked, answered and told.
-/

namespace VersionChain

/-- A question to a tier together with its answer. -/
inductive Access where
  | listing (tier : Tier) (request : Request) (outcome : ListingOutcome)
  | lookup (tier : Tier) (component : Component) (requested : Request) (outcome : LookupOutcome)
deriving DecidableEq

namespace Access

/-- The tier that was asked. -/
def tier : Access → Tier
  | listing t .. => t
  | lookup t .. => t

/-- The locations that were searched for the answer. -/
def attempted : Access → List String
  | listing _ _ o => o.attempted
  | lookup _ _ _ o => o.attempted

/-- The failure that was the answer, if it was one. -/
def failure? : Access → Option Failure
  | listing _ _ o =>
    match o.result with
    | some (.failed f) => some f
    | _ => none
  | lookup _ _ _ o =>
    match o.result with
    | some (.failed f) => some f
    | _ => none

end Access

/-- What a repository was asked so far, the oldest access first. -/
abbrev History := List Access

/-- One tier of a repository: its answers and what it tells when it is asked. -/
structure Source where
  /-- The answer to a request for the versions of a module. -/
  list : History → Request → ListingOutcome
  /-- The answer to a request for the metadata of a component. -/
  lookup : History → Component → Request → LookupOutcome
  /-- What is told about a request for versions. -/
  listEvents : Request → Log := fun _ => []
  /-- What is told about a request for metadata. -/
  lookupEvents : Component → Request → Log := fun _ _ => []

/-- A named repository. -/
structure Repository where
  name : String
  source : Tier → Source

/-- A repository and what it was asked so far. -/
structure Session where
  repository : Repository
  history : History := []

namespace Session

/-- The accesses to one tier. -/
def accesses (s : Session) (tier : Tier) : List Access := s.history.filter (·.tier == tier)

end Session

/-- One request's dealings with one repository. -/
structure Visit where
  /-- The repository and everything it was asked, by earlier requests too. -/
  session : Session
  /-- The locations that were searched for metadata during this visit, in order. -/
  attempts : List String := []
  /-- What was told during this visit. -/
  log : Log := []

namespace Visit

/-- The name of the visited repository. -/
def name (v : Visit) : String := v.session.repository.name

/-- The visit after something is told. -/
def tell (v : Visit) (e : Event) : Visit := { v with log := v.log ++ [e] }

/-- Asks a tier for the versions of a module. -/
def list (v : Visit) (tier : Tier) (request : Request) : ListingOutcome × Visit :=
  let source := v.session.repository.source tier
  let outcome := source.list v.session.history request
  (outcome, { v with
    session := { v.session with history := v.session.history ++ [.listing tier request outcome] }
    log := v.log ++ .listing request.module v.name tier :: source.listEvents request })

/-- Asks a tier for the metadata of a component, and notes where it searched. -/
def lookup (v : Visit) (tier : Tier) (component : Component) (requested : Request) : LookupOutcome × Visit :=
  let source := v.session.repository.source tier
  let outcome := source.lookup v.session.history component requested
  (outcome, { v with
    session := { v.session with history := v.session.history ++ [.lookup tier component requested outcome] }
    attempts := v.attempts ++ outcome.attempted
    log := v.log ++ .fetching component v.name tier :: source.lookupEvents component requested })

end Visit

end VersionChain
