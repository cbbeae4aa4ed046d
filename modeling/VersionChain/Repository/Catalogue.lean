import VersionChain.Repository.Basic

/-!
# Catalogues

A catalogue is a tier that holds everything it knows in memory: listings by module and metadata by component. What is put in later
replaces what was there for the same module or component. A catalogue without an entry knows nothing and searches nowhere.
-/

namespace VersionChain

/-- What a catalogue says about the versions of a module. -/
inductive CatalogueListing where
  | versions (versions : List String)
  | failure (message : String)
deriving DecidableEq

/-- What a catalogue says about a component. -/
inductive CatalogueEntry where
  | present (facts : Facts)
  | missing
  | failure (message : String)
deriving DecidableEq

/-- A tier held in memory. The latest entry for a module or component comes first. -/
structure Catalogue where
  authoritative : Bool := false
  listings : List (Module × CatalogueListing) := []
  entries : List (Component × CatalogueEntry) := []
deriving DecidableEq

namespace Catalogue

/-- The catalogue with a listing for a module. -/
def putListing (c : Catalogue) (module : Module) (listing : CatalogueListing) : Catalogue :=
  { c with listings := (module, listing) :: c.listings }

/-- The catalogue with an entry for a component. -/
def putEntry (c : Catalogue) (id : Component) (entry : CatalogueEntry) : Catalogue :=
  { c with entries := (id, entry) :: c.entries }

/-- The catalogue with the metadata of a component. -/
def putFacts (c : Catalogue) (facts : Facts) : Catalogue := c.putEntry facts.id (.present facts)

/-- The catalogue with the versions of a module, each a component about which nothing is said. -/
def putModules (c : Catalogue) (module : Module) (versions : List String) : Catalogue :=
  versions.foldl (fun c version => c.putFacts (.plain ⟨module.group, module.name, version⟩))
    (c.putListing module (.versions versions))

/-- Where a catalogue says it found something. -/
def location (repository : String) (tier : Tier) (subject : String) : String :=
  "memory://" ++ repository ++ "/" ++ tier.name ++ "/" ++ subject

/-- The answer to a request for the versions of a module. -/
def list (c : Catalogue) (repository : String) (tier : Tier) (module : Module) : ListingOutcome :=
  match c.listings.lookup module with
  | none => .unknown
  | some listing =>
    { result := some <|
        match listing with
        | .versions versions => .listed versions
        | .failure message => .failed (.access repository tier module.text message)
      authoritative := c.authoritative
      attempted := [location repository tier module.text] }

/-- The answer to a request for the metadata of a component. -/
def lookup (c : Catalogue) (repository : String) (tier : Tier) (id : Component) : LookupOutcome :=
  match c.entries.lookup id with
  | none => .unknown
  | some entry =>
    let place := location repository tier id.text
    { result := some <|
        match entry with
        | .present facts => .resolved (.facts { facts with provenance := some ⟨repository, tier, place⟩ })
        | .missing => .missing
        | .failure message => .failed (.access repository tier id.text message)
      authoritative := c.authoritative
      attempted := [place] }

/-- The catalogue as a tier of a repository. -/
def source (c : Catalogue) (repository : String) (tier : Tier) : Source where
  list _ request := c.list repository tier request.module
  lookup _ id _ := c.lookup repository tier id
  listEvents request := [.consulting .memory repository tier request.module.text]
  lookupEvents id _ := [.reading .memory repository tier id.text none]

end Catalogue

/-- The repository of two catalogues. -/
def Repository.ofCatalogues (name : String) (nearby remote : Catalogue) : Repository where
  name := name
  source
    | .nearby => nearby.source name .nearby
    | .remote => remote.source name .remote

end VersionChain
