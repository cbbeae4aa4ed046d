import VersionChain.Files.Path

/-!
# Surroundings

What a run finds around it besides its arguments and the files: the variables of its environment, which of its streams go to a
terminal, and the account of its user.
-/

namespace VersionChain

/-- The variables of an environment with their values. -/
abbrev Environment := List (String × String)

/-- What a run finds around it. -/
structure Surroundings where
  environment : Environment := []
  /-- Whether the output goes to a terminal. -/
  showsOutput : Bool := false
  /-- Whether errors and the log go to a terminal. -/
  showsErrors : Bool := false
  /-- The home directory of the user's account. -/
  accountHome : Option Files.Path := none
deriving DecidableEq

namespace Surroundings

/-- The home directory: the one that the environment names, or else the account's. An empty name is none. -/
def home? (s : Surroundings) : Option Files.Path :=
  match s.environment.lookup "HOME" with
  | some home => if home.isEmpty then s.accountHome else some ⟨home⟩
  | none => s.accountHome

/-- The user's directory for caches, which has to be absolute where the environment names it. -/
def userCaches? (s : Surroundings) : Option Files.Path :=
  match (s.environment.lookup "XDG_CACHE_HOME").map Files.Path.mk with
  | some caches => if caches.isAbsolute then some caches else belowHome
  | none => belowHome
where
  /-- The directory for caches in the home directory. -/
  belowHome : Option Files.Path := s.home?.map (·.join ⟨".cache"⟩)

/-- The directory for caches when none is named: below the user's, or else in the working directory. -/
def cacheRoot (s : Surroundings) : Files.Path :=
  (s.userCaches?.getD ⟨".dynamic-resolve-cache"⟩).join ⟨"dynamic-resolve"⟩

end Surroundings

/-! ## Accounts -/

namespace Account

/-- The lines of a table, each as the texts between the given marks. -/
def rows (mark : Char) (table : String) : List (List String) :=
  (table.toList.splitOn '\n').map fun line => (line.splitOn mark).map String.ofList

/-- The number of the user in what the system tells about a process. -/
def user? (status : String) : Option String :=
  (rows '\t' status).findSome? fun row =>
    match row with
    | "Uid:" :: user :: _ => some user
    | _ => none

/-- The home directory of a user in the table of accounts: the sixth entry of the line whose third is the number of the user. -/
def home? (accounts user : String) : Option Files.Path :=
  (rows ':' accounts).findSome? fun row =>
    match row with
    | _ :: _ :: number :: _ :: _ :: home :: _ => if number == user then some ⟨home⟩ else none
    | _ => none

end Account

end VersionChain
