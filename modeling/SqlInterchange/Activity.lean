import SqlInterchange.Export

/-! # Activities

What an operation does beside computing its result is seen from outside: it asks the connection
for something, calls the caller's callbacks, writes to the log. An activity takes a state and leaves
a record of this: how it ended, the state it ended in, and its events in order. An activity that
fails keeps the state and the events up to its failure. -/
namespace SqlInterchange

/-- What begins or ends a transaction. -/
inductive Control where
  /-- Begins a transaction. -/
  | start
  /-- Ends it and keeps what it did. -/
  | commit
  /-- Ends it and takes back what it did. -/
  | rollback
deriving DecidableEq

/-- The result that an operation tells of. -/
inductive Success where
  /-- So many statements are executed. -/
  | executed (count : Nat)
  /-- A database is written as a script. -/
  | script (result : ScriptExport)
  /-- A database is written as a document. -/
  | document (result : DocumentExport)

/-- Something that is seen from outside. -/
inductive Event where
  /-- A transaction is to begin or end, and the connection's answer. -/
  | controlled (control : Control) (answer : Except Failure Unit)
  /-- A statement is to be executed, and the connection's answer. -/
  | submitted (statement : Text) (answer : Except Failure (List Row))
  /-- The caller is told how many statements of how many are executed. -/
  | progressed (current total : Int)
  /-- The caller is told of a result. -/
  | succeeded (result : Success)
  /-- The caller is told of an error. -/
  | failed (error : Error)
  /-- Something is logged. -/
  | logged (entry : LogEntry)

/-- How an activity ended, where, and by which events. -/
structure Record (S α : Type) where
  /-- The result, or why there is none. -/
  outcome : Except Failure α
  /-- The state at the end. -/
  state : S
  /-- The events, in order. -/
  events : List Event

/-- An activity on states of type `S`. -/
def Activity (S α : Type) : Type := S → Record S α

namespace Activity

variable {S T α β : Type}

/-- The activity that ends at once with a result. -/
protected def pure (a : α) : Activity S α := fun s => ⟨.ok a, s, []⟩

/-- One activity after another; the second one depends on the result of the first, and does not
run if there is none. -/
protected def bind (p : Activity S α) (k : α → Activity S β) : Activity S β := fun s =>
  let first := p s
  match first.outcome with
  | .ok a =>
    let second := k a first.state
    ⟨second.outcome, second.state, first.events ++ second.events⟩
  | .error f => ⟨.error f, first.state, first.events⟩

instance : Monad (Activity S) where
  pure := Activity.pure
  bind := Activity.bind

/-- The activity that fails. -/
def fail (f : Failure) : Activity S α := fun s => ⟨.error f, s, []⟩

/-- An activity whose failure is its result. -/
def attempt (p : Activity S α) : Activity S (Except Failure α) := fun s =>
  let r := p s
  ⟨.ok r.outcome, r.state, r.events⟩

/-- The activity that has a result or fails as said. -/
def ofExcept : Except Failure α → Activity S α
  | .ok a => Activity.pure a
  | .error f => fail f

/-- The state. -/
def get : Activity S S := fun s => ⟨.ok s, s, []⟩

/-- Changes the state. -/
def modify (f : S → S) : Activity S Unit := fun s => ⟨.ok (), f s, []⟩

/-- Makes an event. -/
def emit (e : Event) : Activity S Unit := fun s => ⟨.ok (), s, [e]⟩

/-- Writes to the log. -/
def log (entry : LogEntry) : Activity S Unit := emit (.logged entry)

/-- Writes some entries to the log, in order. -/
def logAll (entries : List LogEntry) : Activity S Unit := fun s =>
  ⟨.ok (), s, entries.map .logged⟩

/-- An activity on a connection together with a state of its own, as an activity on the connection
alone: the state of its own starts as said and is dropped at the end. -/
def withOwn {σ ρ ρ' : Type} (start : ρ) (p : Activity (σ × ρ) α) : Activity (σ × ρ') α :=
  fun (c, own) =>
    let r := p (c, start)
    ⟨r.outcome, (r.state.1, own), r.events⟩

end Activity
end SqlInterchange
