import VersionChain.Error
import VersionChain.Resolver.State

/-!
# Resolving a request along a chain of repositories

In the first pass every repository is asked one step. If any resolves the request, the newest of their components wins, the
earliest repository on ties. Otherwise the repositories that found nothing but have more to ask are asked a second step. Failures
matter only when nobody wins: then they are the error, and without failures the error says what was searched and passed over.

The order in which the repositories of a pass are asked is a parameter, the schedule. What they answer is classified in the order
of registration in any case.
-/

namespace VersionChain

/-- A resolved request: the repository that won and the metadata of its component. -/
structure Resolution where
  repository : String
  metadata : Metadata
deriving DecidableEq

/-- The component of a resolution. -/
def Resolution.component (r : Resolution) : Component := r.metadata.id

/-- An order in which the queued repositories of a pass are asked. -/
structure Schedule where
  order : List Nat → List Nat
  perm : ∀ queue, (order queue).Perm queue

/-- The repositories of a pass in the order of the queue. -/
def Schedule.inOrder : Schedule := ⟨id, fun _ => .refl _⟩

namespace Resolver

/-- The states of a request, with the next turn of the policy. -/
structure Progress where
  turn : Nat
  states : List RequestState

/-- Asks the repository at a place one step further. -/
def resolveAt (policy : Policy) (p : Progress) (i : Nat) : Progress :=
  match p.states[i]? with
  | some s =>
    let (turn, s) := s.resolve policy p.turn
    ⟨turn, p.states.set i s⟩
  | none => p

/-- Asks the queued repositories one step further each. -/
def ask (policy : Policy) (schedule : Schedule) (queue : List Nat) (p : Progress) : Progress :=
  (schedule.order queue).foldl (resolveAt policy) p

/-- The best component so far and the place of its repository. -/
structure Winner where
  place : Nat
  metadata : Metadata

/-- The better of the best so far and a further component. -/
def better (policy : Policy) (best : Option Winner) (challenger : Winner) : Winner :=
  match best with
  | none => challenger
  | some w =>
    match policy.newest w.metadata challenger.metadata with
    | .first => w
    | .second => challenger

/-- What a pass has shown. -/
structure Verdicts where
  winner : Option Winner := none
  failures : List Failure := []
  /-- The repositories that found nothing and have more to ask. -/
  deferred : List Nat := []

/-- Takes in the state of the repository at a place. -/
def classifyStep (policy : Policy) (states : List RequestState) (v : Verdicts) (i : Nat) : Verdicts :=
  match states[i]? with
  | none => v
  | some s =>
    match s.outcome with
    | some (.failed f) => { v with failures := v.failures ++ [f] }
    | some (.resolved m) => { v with winner := some (better policy v.winner ⟨i, m⟩) }
    | some .missing | none => if s.canGoFurther then { v with deferred := v.deferred ++ [i] } else v

/-- What the states of the queued repositories show, taken in the order of the queue. -/
def classify (policy : Policy) (states : List RequestState) (queue : List Nat) : Verdicts :=
  queue.foldl (classifyStep policy states) {}

/-- The error of a request about which no repository failed. -/
def notFound (request : Request) (states : List RequestState) : Error :=
  .notFound request.text (Text.distinct (states.flatMap RequestState.attempted))
    (Text.distinct (states.flatMap RequestState.unmatched)) (Text.distinct (states.flatMap RequestState.rejected))

/-- What resolving a request leaves behind. -/
structure Run where
  result : Except Error Resolution
  states : List RequestState
  /-- The next turn of the policy. -/
  turn : Nat
  log : Log

/-- The repositories with everything they were asked, this request included. -/
def Run.sessions (r : Run) : List Session := r.states.map (·.visit.session)

/-- What the visits told, one after the other. -/
def told (states : List RequestState) : Log := states.flatMap (·.visit.log)

/-- The states with their logs emptied. -/
def silenced (states : List RequestState) : List RequestState :=
  states.map fun s => { s with visit := { s.visit with log := [] } }

/-- Ends a request: with the winner, or with the error that the failures and the states amount to. -/
def finish (request : Request) (winner : Option Winner) (failures : List Failure) (p : Progress) (log : Log) : Run :=
  match winner with
  | some w =>
    let repository := (p.states[w.place]?.map (·.visit.name)).getD ""
    { result := .ok ⟨repository, w.metadata⟩
      states := p.states
      turn := p.turn
      log := log ++ failures.map .discarding ++ [.adopting w.metadata.id repository] }
  | none =>
    { result := if failures.isEmpty then .error (notFound request p.states) else .error (.unresolved request.text failures)
      states := p.states
      turn := p.turn
      log := log }

/-- Resolves a request along a chain of repositories, the policy being at the given turn. -/
def resolve (policy : Policy) (schedule : Schedule) (turn : Nat) (sessions : List Session) (request : Request) : Run :=
  let queue := List.range sessions.length
  let begun : Log := [.attempting request (sessions.map (·.repository.name))]
  let first := ask policy schedule queue ⟨turn, sessions.map (RequestState.start request)⟩
  let verdicts := classify policy first.states queue
  let log := begun ++ told first.states
  if verdicts.winner.isNone && !verdicts.deferred.isEmpty then
    let second := ask policy schedule verdicts.deferred { first with states := silenced first.states }
    let further := classify policy second.states verdicts.deferred
    finish request further.winner (verdicts.failures ++ further.failures) second
      (log ++ [.retrying request verdicts.deferred.length] ++ told second.states)
  else finish request verdicts.winner verdicts.failures first log

end Resolver

end VersionChain
