import VersionChain.Descriptor
import VersionChain.Files.System
import VersionChain.Repository.Basic
import VersionChain.Version.Basic

/-!
# Directories as repositories

A tier may be a directory with a directory for each group, in it one for each name, and in that one for each version, which holds
the descriptor file of the component. A cache that does not have a path knows nothing about it; an origin that does not have it
says that there is nothing. What cannot be read is a failure.
-/

namespace VersionChain

/-- How a directory is to be understood. -/
inductive DirectoryRole where
  | cache
  | origin
deriving DecidableEq

/-- The tier that a directory serves as. -/
def DirectoryRole.tier : DirectoryRole → Tier
  | cache => .nearby
  | origin => .remote

/-- A directory as a tier of a repository. Without a root it knows nothing. -/
structure DirectoryTier where
  repository : String
  role : DirectoryRole
  root : Option Files.Path
  authoritative : Bool
deriving DecidableEq

namespace DirectoryTier

/-- A cache; its answers are final only when the repository is offline. -/
def cache (repository : String) (root : Files.Path) (offline : Bool) : DirectoryTier :=
  ⟨repository, .cache, some root, offline⟩

/-- An origin, whose answers are final. -/
def origin (repository : String) (root : Option Files.Path) : DirectoryTier := ⟨repository, .origin, root, true⟩

/-- The name of descriptor files. -/
def descriptorFile : String := "module.yaml"

/-- The directory of a module below a root. -/
def modulePath (root : Files.Path) (m : Module) : Files.Path := (root.join ⟨m.group⟩).join ⟨m.name⟩

/-- The descriptor file of a component below a root. -/
def descriptorPath (root : Files.Path) (id : Component) : Files.Path :=
  ((modulePath root id.module).join ⟨id.version⟩).join ⟨descriptorFile⟩

/-- The versions that the directory of a module holds: its directories, in the order of versions. -/
def readVersions (fs : Files.System) (directory : Files.Path) : Except Files.Fault (List String) := do
  return (Version.ascending ((← fs.directories directory).map (⟨·⟩))).map (·.source)

/-- The descriptor in a file, or the words for what is wrong with it. -/
def readDescriptor (fs : Files.System) (file : Files.Path) : Except String Descriptor :=
  match fs.readText file with
  | .error fault => .error fault.message
  | .ok content =>
    (Descriptor.ofContent content.toList).mapError fun e => "invalid " ++ descriptorFile ++ ": " ++ e.message

/-- The answer to a request for the versions of a module. -/
def list (t : DirectoryTier) (fs : Files.System) (m : Module) : ListingOutcome :=
  match t.root with
  | none => .unknown
  | some root =>
    let directory := modulePath root m
    let attempted := [directory.text]
    if !fs.exists? directory then
      match t.role with
      | .cache => { attempted }
      | .origin => { result := some (.listed []), authoritative := true, attempted }
    else
      let result := match readVersions fs directory with
        | .ok versions => Listing.listed versions
        | .error fault => .failed (.access t.repository t.role.tier m.text fault.message)
      { result := some result, authoritative := t.authoritative, attempted }

/-- The answer to a request for the metadata of a component. -/
def lookup (t : DirectoryTier) (fs : Files.System) (id : Component) : LookupOutcome :=
  match t.root with
  | none => .unknown
  | some root =>
    let file := descriptorPath root id
    let attempted := [file.text]
    if !fs.isFile file then
      match t.role with
      | .cache => { attempted }
      | .origin => { result := some .missing, authoritative := true, attempted }
    else
      let result := match readDescriptor fs file with
        | .ok d =>
          let provenance : Provenance := ⟨t.repository, t.role.tier, file.text⟩
          Lookup.resolved (.facts { Facts.ofDescriptor id d with provenance := some provenance })
        | .error message => .failed (.access t.repository t.role.tier id.text message)
      { result := some result, authoritative := t.authoritative, attempted }

/-- What is told about a request for versions. -/
def listEvents (t : DirectoryTier) (m : Module) : Log :=
  t.root.toList.map fun root => .consulting .directory t.repository t.role.tier (modulePath root m).text

/-- What is told about a request for metadata. -/
def lookupEvents (t : DirectoryTier) (id : Component) (requested : Request) : Log :=
  t.root.toList.map fun root => .reading .directory t.repository t.role.tier (descriptorPath root id).text (some requested)

/-- The directory as a tier of a repository. -/
def source (t : DirectoryTier) (fs : Files.System) : Source where
  list _ request := t.list fs request.module
  lookup _ id _ := t.lookup fs id
  listEvents request := t.listEvents request.module
  lookupEvents id requested := t.lookupEvents id requested

end DirectoryTier

/-- A repository with a directory for a cache and perhaps one for an origin. -/
structure DirectoryRepository where
  name : String
  cache : DirectoryTier
  origin : DirectoryTier
deriving DecidableEq

namespace DirectoryRepository

/-- The repository with the given directories. Offline it has no origin, and the cache has the last word. -/
def new (name : String) (cache : Files.Path) (origin : Option Files.Path) (offline : Bool) : DirectoryRepository where
  name := name
  cache := .cache name cache offline
  origin := .origin name (if offline then none else origin)

/-- The tier that a directory of the repository serves as. -/
def tier (r : DirectoryRepository) : Tier → DirectoryTier
  | .nearby => r.cache
  | .remote => r.origin

/-- The repository in a file system. -/
def inSystem (r : DirectoryRepository) (fs : Files.System) : Repository where
  name := r.name
  source tier := (r.tier tier).source fs

end DirectoryRepository

end VersionChain
