import VersionChain.Error
import VersionChain.Policy.Standard
import VersionChain.Repository.Directory
import VersionChain.Resolver.Basic
import VersionChain.Yaml.Decoder

/-!
# Configurations

A configuration names the repositories of a chain, in order, and the versions that must not be selected. It is written in YAML.
Relative paths in it are relative to a base directory; a repository that names no cache has one of its own name below the cache
root.
-/

namespace VersionChain

/-- One repository of a chain. -/
structure RepositoryEntry where
  name : String
  cache : Option Files.Path := none
  remote : Option Files.Path := none
  offline : Bool := false
deriving DecidableEq

namespace RepositoryEntry

/-- The directory of the cache. -/
def cachePath (r : RepositoryEntry) (base cacheRoot : Files.Path) : Files.Path :=
  match r.cache with
  | some cache => base.join cache
  | none => cacheRoot.join ⟨r.name⟩

/-- The directory of the origin. -/
def remotePath (r : RepositoryEntry) (base : Files.Path) : Option Files.Path := r.remote.map base.join

/-- The repository that the entry describes. -/
def repository (r : RepositoryEntry) (base cacheRoot : Files.Path) : DirectoryRepository :=
  .new r.name (r.cachePath base cacheRoot) (r.remotePath base) r.offline

end RepositoryEntry

/-- A chain of repositories and the rules for selecting versions. -/
structure Configuration where
  /-- Whether the repositories of a pass may be asked at the same time. -/
  parallel : Bool := false
  /-- The globs over versions that must not be selected. -/
  reject : List String := []
  repositories : List RepositoryEntry := []
deriving DecidableEq

namespace Configuration

section Reading

open Yaml (Place Decoder)

/-- Reads a path. -/
def path (p : Place) : Decoder Files.Path := return ⟨← p.text "path string"⟩

/-- Reads an entry of the chain. -/
def entry (p : Place) : Decoder RepositoryEntry :=
  p.record "struct RepositoryConfig"
    [Place.field "name" (·.text) fun name r => { r with name },
      Place.field "cache" (·.optional path) fun cache r => { r with cache },
      Place.field "remote" (·.optional path) fun remote r => { r with remote },
      Place.field "offline" (·.truth) fun offline r => { r with offline }]
    ["name"] { name := "" }

/-- Reads the rules for selecting versions. -/
def selection (p : Place) : Decoder (List String) :=
  p.record "struct SelectionRules" [Place.field "reject" (·.list (·.text)) fun reject _ => reject] [] []

/-- Reads a configuration. -/
def configuration (p : Place) : Decoder Configuration :=
  p.record "struct Config"
    [Place.field "parallel" (·.truth) fun parallel c => { c with parallel },
      Place.field "selection" selection fun reject c => { c with reject },
      Place.field "repositories" (·.list entry) fun repositories c => { c with repositories }]
    [] {}

end Reading

/-- The first fault in the names of a chain, given the names before it: a name that is blank, or that occurs before. -/
def nameFault? (earlier : List String) : List String → Option ConfigurationFault
  | [] => none
  | name :: rest =>
    if Text.isBlank name.toList then some .blankName
    else if name ∈ earlier then some (.duplicateName name)
    else nameFault? (name :: earlier) rest

/-- The first text that is not a glob. -/
def patternFault? (texts : List String) : Option ConfigurationFault :=
  texts.findSome? fun text =>
    match Glob.Pattern.ofText text with
    | .ok _ => none
    | .error e => some (.badPattern text e)

/-- What is wrong with a configuration: a chain without repositories, names that do not tell them apart, or rules that are no
globs. -/
def fault? (c : Configuration) : Option ConfigurationFault :=
  if c.repositories.isEmpty then some .noRepositories
  else (nameFault? [] (c.repositories.map (·.name))).or (patternFault? c.reject)

/-- The configuration that a text holds. -/
def ofText (cs : List Char) : Except ConfigurationFault Configuration := do
  let c ← (Yaml.decode configuration cs).mapError .malformed
  match c.fault? with
  | some fault => .error fault
  | none => .ok c

/-- The configuration that a file holds. -/
def ofFile (fs : Files.System) (file : Files.Path) : Except Error Configuration := do
  let content ← (fs.readText file).mapError .file
  (ofText content.toList).mapError .configuration

/-- The policy that a configuration describes. -/
def policy (c : Configuration) : Except Error Policy := do
  match c.fault? with
  | some fault => .error (.configuration fault)
  | none => return .standard (← (Rules.ofTexts c.reject).mapError .glob)

/-- The chain that a configuration describes. -/
def chain (c : Configuration) (fs : Files.System) (base cacheRoot : Files.Path) : List Repository :=
  c.repositories.map fun r => (r.repository base cacheRoot).inSystem fs

end Configuration

end VersionChain
