/-!
# Failures

What can go wrong with one repository while a request is being resolved. A failure ends the search in that repository; the
request as a whole fails only when no repository resolves it.
-/

namespace VersionChain

/-- The two tiers of a repository. The nearby one is consulted first; in messages it is called local. -/
inductive Tier where
  | nearby
  | remote
deriving DecidableEq

/-- The name of a tier in messages. -/
def Tier.name : Tier → String
  | nearby => "local"
  | remote => "remote"

/-- A failure of one repository. -/
inductive Failure where
  /-- A tier could not answer a question about the subject. -/
  | access (repository : String) (tier : Tier) (subject : String) (message : String)
  /-- The selection policy could not decide about the subject. -/
  | selection (subject : String) (message : String)
deriving DecidableEq

namespace Failure

/-- The words for a failure. -/
def text : Failure → String
  | access repository tier subject message =>
    tier.name ++ " access to repository '" ++ repository ++ "' failed for " ++ subject ++ ": " ++ message
  | selection subject message => "version selection failed for " ++ subject ++ ": " ++ message

end Failure

end VersionChain
