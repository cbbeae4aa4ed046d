/-!
# Scripts

A script is a list of entries to be played one a turn; from the last one on it repeats itself. Scripted repositories and policies
follow scripts, to exercise the library with whatever a real one might do.
-/

namespace VersionChain

/-- The entry for a turn: the one at its place, or else the last one. -/
def entryAt? {α : Type} (script : List α) (turn : Nat) : Option α :=
  script[turn]?.or script.getLast?

end VersionChain
