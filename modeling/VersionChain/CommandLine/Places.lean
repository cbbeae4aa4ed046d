import VersionChain.CommandLine.Run

/-!
# Where a command looks

The paths whose content the outcome of a command depends on. They follow from one another: the configuration names the
directories, and these hold the versions whose descriptors may be read.
-/

namespace VersionChain

namespace Invocation

/-- The module that a command is about. -/
def module? (i : Invocation) : Option Module :=
  match i.command with
  | .resolve coordinate _ => (Request.ofText coordinate).toOption.map (·.module)
  | .versions coordinate => (Module.ofText coordinate).toOption

/-- The directories of a module in the tiers of a repository, and the descriptors of all versions that any of them holds. -/
def repositoryPlaces (fs : Files.System) (module : Module) (r : DirectoryRepository) : List Files.Path :=
  let roots := [r.cache, r.origin].filterMap (·.root)
  let directories := roots.map (DirectoryTier.modulePath · module)
  let versions := directories.flatMap fun d => (fs.directories d).toOption.getD []
  directories ++ roots.flatMap fun root =>
    versions.map fun version => DirectoryTier.descriptorPath root ⟨module.group, module.name, version⟩

/-- The paths that a command looks at, as far as a file system shows them. -/
def places (i : Invocation) (around : Surroundings) (fs : Files.System) : List Files.Path :=
  i.configuration ::
    match i.module?, i.load fs with
    | some module, .ok c => c.repositories.flatMap fun r => repositoryPlaces fs module (r.repository i.base (i.caches around))
    | _, _ => []

end Invocation

end VersionChain
