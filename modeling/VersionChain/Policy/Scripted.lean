import VersionChain.Policy.Basic
import VersionChain.Script

/-!
# Scripted policies

A policy that follows a script whatever it is offered, to exercise everything a policy may do: match versions that nobody listed,
repeat verdicts, contradict itself, or ask for metadata at will.
-/

namespace VersionChain

/-- One step of a script. -/
inductive Cue where
  | isMatch (version : String)
  | notMatched (version : String)
  | rejected (version : String)
  | noMatch
  | failed (failure : Failure)
  /-- Asks every candidate with this version for its metadata. -/
  | inspect (version : String)
deriving DecidableEq

namespace Cue

/-- Asks for the metadata at each position in turn, whatever the answers are. -/
def askAll : List Nat → Selection → Selection
  | [], next => next
  | position :: rest, next => .inspect position fun _ => askAll rest next

/-- What a step does, and then the rest. -/
def perform (candidates : List Candidate) (request : Request) (cue : Cue) (next : Selection) : Selection :=
  match cue with
  | isMatch version => .report (.isMatch (request.component version)) next
  | notMatched version => .report (.notMatched version) next
  | rejected version => .report (.rejected version) next
  | noMatch => .report .noMatch next
  | failed failure => .report (.failed failure) next
  | inspect version =>
    askAll ((candidates.filter fun c => c.component.version == version).map Candidate.position) next

end Cue

/-- The policy that performs the entry of its script for each turn and always finds the same component newer. -/
def Policy.scripted (script : List (List Cue)) (newest : Newest) : Policy where
  select turn candidates request :=
    ((entryAt? script turn).getD []).foldr (Cue.perform candidates request) .done
  newest _ _ := newest

end VersionChain
