import VersionChain.Metadata

/-!
# Outcomes

What one tier answers to one question. A tier that knows nothing gives no result, and the next tier is asked. An authoritative
result is final for the whole repository. Every outcome names the locations that were searched, with or without a result.
-/

namespace VersionChain

/-- An answer of a tier, or what several answers come to. -/
structure Outcome (ρ : Type) where
  result : Option ρ := none
  authoritative : Bool := false
  attempted : List String := []
deriving DecidableEq

namespace Outcome

variable {ρ : Type}

/-- The outcome of a tier that knows nothing and searched nowhere. -/
def unknown : Outcome ρ := {}

/-- The outcome with a result, not authoritative, searched nowhere. -/
def of (r : ρ) : Outcome ρ := { result := some r }

/-- Whether the tier knew something. -/
def hasResult (o : Outcome ρ) : Bool := o.result.isSome

/-- The outcome after a further one: a result replaces result and authority, the locations accumulate. -/
def absorb (o next : Outcome ρ) : Outcome ρ where
  result := if next.hasResult then next.result else o.result
  authoritative := if next.hasResult then next.authoritative else o.authoritative
  attempted := o.attempted ++ next.attempted

@[simp] theorem attempted_absorb (o next : Outcome ρ) : (o.absorb next).attempted = o.attempted ++ next.attempted := rfl

@[simp] theorem hasResult_absorb (o next : Outcome ρ) : (o.absorb next).hasResult = (o.hasResult || next.hasResult) := by
  unfold absorb hasResult
  cases next.result <;> simp

theorem result_absorb (o next : Outcome ρ) : (o.absorb next).result = next.result.or o.result := by
  unfold absorb hasResult
  cases next.result <;> rfl

@[simp] theorem result_unknown_absorb (o : Outcome ρ) : (unknown.absorb o).result = o.result := by
  rw [result_absorb]
  cases o.result <;> rfl

end Outcome

/-- What a tier that has a result says about the versions of a module. -/
inductive Listing where
  | listed (versions : List String)
  | failed (failure : Failure)
deriving DecidableEq

/-- What a tier that has a result says about the metadata of a component. -/
inductive Lookup where
  | resolved (metadata : Metadata)
  | missing
  | failed (failure : Failure)
deriving DecidableEq

namespace Lookup

/-- The name of a metadata state in messages. -/
def stateName : Option Lookup → String
  | none => "unknown"
  | some (resolved _) => "resolved"
  | some missing => "missing"
  | some (failed _) => "failed"

/-- A result after which no other tier is asked, whether it is authoritative or not. -/
def isConclusive : Lookup → Bool
  | resolved _ => true
  | missing => false
  | failed _ => true

/-- The metadata of a result that has one. -/
def metadata? : Lookup → Option Metadata
  | resolved m => some m
  | _ => none

end Lookup

/-- The outcome of asking for the versions of a module. -/
abbrev ListingOutcome := Outcome Listing

/-- The outcome of asking for the metadata of a component. -/
abbrev LookupOutcome := Outcome Lookup

namespace LookupOutcome

/-- Whether the outcome settles the question by itself. -/
def isConclusive (o : LookupOutcome) : Bool := o.result.any Lookup.isConclusive

/-- The metadata, if it was resolved. -/
def metadata? (o : LookupOutcome) : Option Metadata := o.result.bind Lookup.metadata?

end LookupOutcome

end VersionChain
