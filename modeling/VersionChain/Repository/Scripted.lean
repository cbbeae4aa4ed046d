import VersionChain.Repository.Basic
import VersionChain.Script

/-!
# Scripted repositories

A repository whose tiers follow scripts: one for the listings, and one for the metadata of each version. A metadata script takes a
turn each time the same request comes back. An empty script knows nothing.
-/

namespace VersionChain

/-- The scripts of one tier. -/
structure TierScript where
  listings : List ListingOutcome := []
  /-- The scripts for the metadata of versions. An entry says what it says about any component of that version. -/
  lookups : List (String × List (Component → LookupOutcome)) := []

namespace TierScript

/-- How many listings a tier was asked for. -/
def listingTurn (tier : Tier) (history : History) : Nat :=
  history.countP fun
    | .listing t _ _ => t == tier
    | .lookup .. => false

/-- How many times a tier was asked for metadata on account of the given request. -/
def lookupTurn (tier : Tier) (requested : Request) (history : History) : Nat :=
  history.countP fun
    | .listing .. => false
    | .lookup t _ r _ => t == tier && r == requested

/-- The scripts as a tier of a repository. -/
def source (s : TierScript) (tier : Tier) : Source where
  list history _ := (entryAt? s.listings (listingTurn tier history)).getD .unknown
  lookup history id requested :=
    ((entryAt? ((s.lookups.lookup id.version).getD []) (lookupTurn tier requested history)).map (· id)).getD .unknown

end TierScript

/-- The repository of two scripted tiers. -/
def Repository.scripted (name : String) (nearby remote : TierScript) : Repository where
  name := name
  source
    | .nearby => nearby.source .nearby
    | .remote => remote.source .remote

end VersionChain
