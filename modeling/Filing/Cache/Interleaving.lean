import Filing.Cache.TemplateCache

/-!
# Callers that share a cache

Any number of callers use a cache at once. What one of them does in a single step is atomic, and the
steps of all of them follow each other in any order. A caller looks up its key; then it returns with
the result, waits for the flight that is under way, or leads a flight of its own. A flight takes
off, commits its result and lands by itself: a caller that is cancelled does not take its flight
along.

Callers wait in two ways. One that blocks its thread can tell at any time whether the flight has
landed. An asynchronous one is notified by the landing, but only if it waits at that moment; it can
also be cancelled while it waits. Both look again when the wait has become too long.

Between opening a flight and handing it over to its task a caller does not pause, so it is not
cancelled there, and look-up and hand-over are one step. A reading always comes to an end.
-/

namespace Filing.SingleFlight

/-- What is asked of a cache. -/
structure Service (ρ α : Type) where
  /-- The key of a request. -/
  key : ρ → String
  /-- The result of a request, which may tell one reading from another by its number. -/
  read : ρ → Nat → α

/-- How a caller waits. -/
inductive Mode where
  /-- As a task, which can be cancelled. -/
  | async
  /-- By blocking its thread. -/
  | blocking
deriving DecidableEq, Repr

/-- How far a caller has come. -/
inductive Stage (α : Type) where
  /-- About to look up its key, again if it has waited. -/
  | looking (waited : Bool)
  /-- Waiting for a flight; notified when it has landed since. -/
  | waiting (flight : Nat) (notified : Bool)
  /-- Waiting for its own flight. -/
  | leading (flight : Nat)
  /-- Returned with a result. -/
  | returned (result : α)
  /-- Cancelled. -/
  | cancelled
deriving DecidableEq, Repr

/-- A caller. -/
structure Caller (ρ α : Type) where
  /-- How it waits. -/
  mode : Mode
  /-- What it asks for. -/
  request : ρ
  /-- How far it has come. -/
  stage : Stage α
deriving DecidableEq, Repr

/-- How far a flight has come. -/
inductive Phase (α : Type) where
  /-- Not yet begun to read. -/
  | boarding
  /-- Reading, under a number. -/
  | reading (number : Nat)
  /-- The result is in the cache, and those who wait do not know it yet. -/
  | committed (result : α)
  /-- Over. -/
  | landed (result : α)
deriving DecidableEq, Repr

/-- A reading for the sake of all callers with one key. -/
structure Flight (ρ α : Type) where
  /-- What is read. -/
  request : ρ
  /-- The caller that leads. -/
  leader : Nat
  /-- How far the flight has come. -/
  phase : Phase α
deriving DecidableEq, Repr

/-- A cache and those who use it. Callers and flights are known by their positions. -/
structure System (ρ α : Type) where
  /-- The cache. -/
  cache : Cache α := {}
  /-- The callers, in the order in which they came. -/
  callers : List (Caller ρ α) := []
  /-- The flights, in the order in which they were opened. -/
  flights : List (Flight ρ α) := []

/-- What can happen in one step. -/
inductive Action (ρ : Type) where
  /-- Another caller comes. -/
  | call (mode : Mode) (request : ρ)
  /-- A caller looks up its key. -/
  | look (caller : Nat)
  /-- A flight begins to read. -/
  | takeOff (flight : Nat)
  /-- A flight stores its result. -/
  | commit (flight : Nat)
  /-- A flight ends and lets those who wait for it know. -/
  | land (flight : Nat)
  /-- A caller learns that the flight it waits for has landed. -/
  | wake (caller : Nat)
  /-- A caller has waited too long to go on waiting without another look. -/
  | timeOut (caller : Nat)
  /-- A caller returns with the result of its own flight. -/
  | deliver (caller : Nat)
  /-- A caller is cancelled. -/
  | cancel (caller : Nat)
  /-- The result of a request is forgotten. -/
  | invalidate (request : ρ)
  /-- All results are forgotten. -/
  | clear
deriving DecidableEq, Repr

variable {ρ α : Type}

/-- A landing notifies the asynchronous callers that wait for the flight. -/
def Caller.notify (flight : Nat) (c : Caller ρ α) : Caller ρ α :=
  match c.mode, c.stage with
  | .async, .waiting f _ => if f = flight then { c with stage := .waiting f true } else c
  | _, _ => c

/-- The caller neither returned nor was it cancelled. -/
def Stage.isOpen : Stage α → Bool
  | .returned _ => false
  | .cancelled => false
  | _ => true

namespace System

/-- Moves a caller to a stage. -/
def setStage (s : System ρ α) (i : Nat) (stage : Stage α) : System ρ α :=
  { s with callers := s.callers.modify i fun c => { c with stage } }

/-- Moves a flight to a phase. -/
def setPhase (s : System ρ α) (f : Nat) (phase : Phase α) : System ρ α :=
  { s with flights := s.flights.modify f fun fl => { fl with phase } }

/-- A flight begins to read, under the next number. -/
def takeOff (s : System ρ α) (f : Nat) : System ρ α :=
  { s.setPhase f (.reading s.cache.takeOff.parses) with cache := s.cache.takeOff }

/-- A flight stores its result under its key. -/
def commit (s : System ρ α) (f : Nat) (key : String) (result : α) : System ρ α :=
  { s.setPhase f (.committed result) with cache := s.cache.commit key result }

/-- A flight lands. -/
def land (s : System ρ α) (f : Nat) (result : α) : System ρ α :=
  { s.setPhase f (.landed result) with
    cache := s.cache.land f
    callers := s.callers.map (·.notify f) }

end System

namespace Service

/-- A caller looks up its key. The flight that a leader opens is at once a task of its own. -/
def look (svc : Service ρ α) (s : System ρ α) (i : Nat) (request : ρ) (waited : Bool) :
    System ρ α :=
  match s.cache.look (svc.key request) waited with
  | (cache, .found result) => { s.setStage i (.returned result) with cache }
  | (cache, .wait f) => { s.setStage i (.waiting f false) with cache }
  | (cache, .lead f) =>
    { s.setStage i (.leading f) with cache, flights := s.flights ++ [⟨request, i, .boarding⟩] }

/-- One step, unless it cannot be taken. -/
def step (svc : Service ρ α) (s : System ρ α) : Action ρ → Option (System ρ α)
  | .call mode request =>
    some { s with callers := s.callers ++ [⟨mode, request, .looking false⟩] }
  | .look i =>
    match s.callers[i]? with
    | some ⟨_, request, .looking waited⟩ => some (svc.look s i request waited)
    | _ => none
  | .takeOff f =>
    match s.flights[f]? with
    | some ⟨_, _, .boarding⟩ => some (s.takeOff f)
    | _ => none
  | .commit f =>
    match s.flights[f]? with
    | some ⟨request, _, .reading number⟩ =>
      some (s.commit f (svc.key request) (svc.read request number))
    | _ => none
  | .land f =>
    match s.flights[f]? with
    | some ⟨_, _, .committed result⟩ => some (s.land f result)
    | _ => none
  | .wake i =>
    match s.callers[i]? with
    | some ⟨.async, _, .waiting _ true⟩ => some (s.setStage i (.looking true))
    | some ⟨.blocking, _, .waiting f _⟩ =>
      if f ∈ s.cache.landed then some (s.setStage i (.looking true)) else none
    | _ => none
  | .timeOut i =>
    match s.callers[i]? with
    | some ⟨_, _, .waiting _ _⟩ => some (s.setStage i (.looking true))
    | _ => none
  | .deliver i =>
    match s.callers[i]? with
    | some ⟨_, _, .leading f⟩ =>
      match s.flights[f]? with
      | some ⟨_, _, .landed result⟩ => some (s.setStage i (.returned result))
      | _ => none
    | _ => none
  | .cancel i =>
    match s.callers[i]? with
    | some ⟨.async, _, stage⟩ => if stage.isOpen then some (s.setStage i .cancelled) else none
    | _ => none
  | .invalidate request => some { s with cache := (s.cache.invalidate (svc.key request)).1 }
  | .clear => some { s with cache := s.cache.clear }

/-- The steps of a run, one after the other, unless one of them cannot be taken. -/
def run (svc : Service ρ α) (s : System ρ α) (actions : List (Action ρ)) : Option (System ρ α) :=
  actions.foldlM svc.step s

end Service

/-- Templates on request: a source and the code of its form. -/
def templates (rootName : String) : Service (String × String) NumberedReading where
  key request := fingerprint request.1 request.2
  read request number :=
    ⟨number, TemplateReading.ofText rootName request.2 request.1⟩

end Filing.SingleFlight
