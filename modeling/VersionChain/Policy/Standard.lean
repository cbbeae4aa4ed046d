import VersionChain.Glob
import VersionChain.Matcher
import VersionChain.Policy.Basic

/-!
# The standard policy

Candidates are judged from the newest to the oldest. A version that the selector does not ask for is not matched; one that it asks
for is rejected if a glob of the rules covers it, and selected otherwise. A selector for one version ends with the first selected.
Of two components the one with the greater version is the newer, and the first one when they are equal.
-/

namespace VersionChain

/-- The rules of the standard policy: globs over versions that must not be selected. -/
structure Rules where
  reject : List Glob.Pattern := []
deriving DecidableEq

namespace Rules

/-- Reads the globs of the rules. -/
def ofTexts (texts : List String) : Except Glob.Error Rules := do
  return ⟨← texts.mapM Glob.Pattern.ofText⟩

/-- Whether a version must not be selected. -/
def rejects (rules : Rules) (v : Version) : Bool := rules.reject.any (·.admits v.source)

end Rules

namespace Candidate

/-- The candidates from the newest to the oldest; equal ones stay in the order in which they are offered. -/
def newestFirst (cs : List Candidate) : List Candidate :=
  cs.mergeSort fun a b => (Version.compare b.version a.version).isLE

end Candidate

namespace Policy

/-- The verdict on a version that the selector asks for. -/
def ruled (rules : Rules) (c : Candidate) : Verdict :=
  if rules.rejects c.version then .rejected c.version.source else .isMatch c.component

/-- The verdict on a version that can be judged only by its metadata. -/
def inspected (matcher : Matcher) (rules : Rules) (c : Candidate) (outcome : LookupOutcome) : Verdict :=
  match outcome.result with
  | some (.resolved m) => if matcher.acceptsMetadata m then ruled rules c else .notMatched c.version.source
  | some (.failed f) => .failed f
  | some .missing | none => .notMatched c.version.source

/-- Goes on after a verdict: not after a failure, and not after a match when one is all the selector asks for. The rest of the
selection depends on whether a version was selected. -/
def goOn (matcher : Matcher) (found : Bool) (verdict : Verdict) (rest : Bool → Selection) : Selection :=
  .report verdict <|
    match verdict with
    | .failed _ => .done
    | .isMatch _ => if matcher.isUnique then .done else rest true
    | _ => rest found

/-- Judges the candidates in the given order; `found` tells whether one was selected already. -/
def walk (matcher : Matcher) (rules : Rules) (found : Bool) : List Candidate → Selection
  | [] => if found then .done else .report .noMatch .done
  | c :: others =>
    let rest := fun found => walk matcher rules found others
    if !matcher.accepts c.version then goOn matcher found (.notMatched c.version.source) rest
    else if matcher.needsMetadata then
      .inspect c.position fun outcome => goOn matcher found (inspected matcher rules c outcome) rest
    else goOn matcher found (ruled rules c) rest

/-- The selection among candidates: a selector that cannot be read is a failure. -/
def standardSelect (rules : Rules) (candidates : List Candidate) (request : Request) : Selection :=
  match Matcher.ofSelector request.selector with
  | .ok matcher => walk matcher rules false (Candidate.newestFirst candidates)
  | .error e => .report (.failed (.selection request.text e.message)) .done

/-- The second component if its version is the greater one, the first otherwise. -/
def standardNewest (one two : Metadata) : Newest :=
  if Version.compare ⟨two.id.version⟩ ⟨one.id.version⟩ == .gt then .second else .first

/-- The standard policy under the given rules. -/
def standard (rules : Rules) : Policy where
  select _ := standardSelect rules
  newest := standardNewest

end Policy

end VersionChain
