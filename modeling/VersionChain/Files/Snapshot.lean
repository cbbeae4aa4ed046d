import VersionChain.Files.System

/-!
# Snapshots

A file system as far as it was looked at: what was found at each of a list of paths. Elsewhere there is nothing.
-/

namespace VersionChain.Files

/-- What was found at a path. -/
structure Observation where
  kind : Option Kind
  entries : Except Fault (List (Except Fault Entry))
  content : Except Fault ByteArray

/-- Paths with what was found there. -/
abbrev Snapshot := List (Path × Observation)

/-- The snapshot as a file system. -/
def Snapshot.system (s : Snapshot) : System where
  kind? p := (s.lookup p).bind (·.kind)
  entries p := (s.lookup p).elim (.error .noSuchFile) (·.entries)
  read p := (s.lookup p).elim (.error .noSuchFile) (·.content)

end VersionChain.Files
