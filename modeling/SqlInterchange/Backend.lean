import SqlInterchange.Activity

/-! # Backends

A connection is the caller's: it says whether a transaction is open, begins and ends transactions
and executes statements, and it may refuse or break down at each. A backend drives a connection.
Work runs in a transaction: it is committed if the work ends well and rolled back if not. Backends
differ in whether they join a transaction that is already open, whose end is then left to whoever
opened it, and in whether they end a transaction that the work itself has ended. -/
namespace SqlInterchange

/-- A connection to a database with states of type `σ`. -/
structure Connection (σ : Type) where
  /-- Whether a transaction is open. -/
  inTransaction : σ → Bool
  /-- Begins or ends a transaction. -/
  control : Control → σ → Except Failure Unit × σ
  /-- Executes a statement and answers its rows. -/
  submit : Text → σ → Except Failure (List Row) × σ

/-- A connection and how to drive it. -/
structure Backend (σ : Type) extends Connection σ where
  /-- The name, as the log gives it. -/
  name : Text
  /-- Whether work joins a transaction that is already open. -/
  joinsOpen : Bool
  /-- Whether a transaction is ended only if it is still open. -/
  endsOnlyIfOpen : Bool

namespace Backend

variable {σ ρ α : Type}

/-- Drives a connection of the engine's own driver. -/
def engine (c : Connection σ) : Backend σ :=
  { c with name := "SQLiteBackend".toList, joinsOpen := true, endsOnlyIfOpen := true }

/-- Drives a connection of a toolkit for several engines, which keeps account of transactions
itself. -/
def toolkit (c : Connection σ) : Backend σ :=
  { c with name := "SQLAlchemyBackend".toList, joinsOpen := true, endsOnlyIfOpen := false }

variable (b : Backend σ)

/-- Whether a transaction is open. -/
def isOpen : Activity (σ × ρ) Bool := do return b.inTransaction (← Activity.get).1

/-- Begins or ends a transaction. -/
def perform (control : Control) : Activity (σ × ρ) Unit := fun (c, own) =>
  let (answer, c) := b.control control c
  ⟨answer, (c, own), [.controlled control answer]⟩

/-- Executes a statement. -/
def run (statement : Text) : Activity (σ × ρ) (List Row) := fun (c, own) =>
  let (answer, c) := b.submit statement c
  ⟨answer, (c, own), [.submitted statement answer]⟩

/-- Ends the transaction of a unit of work. -/
def endWith (control : Control) : Activity (σ × ρ) Unit := do
  if b.endsOnlyIfOpen && !(← b.isOpen) then return ()
  else b.perform control

/-- Work in a transaction of its own, which is committed if the work ends well and rolled back if
it fails. -/
def transact (work : Activity (σ × ρ) α) : Activity (σ × ρ) α := do
  b.perform .start
  match ← work.attempt with
  | .ok a =>
    b.endWith .commit
    return a
  | .error f =>
    b.endWith .rollback
    Activity.fail f

/-- A unit of work: in a transaction of its own, or in the one that is open if the backend joins
it. -/
def unitOfWork (work : Activity (σ × ρ) α) : Activity (σ × ρ) α := do
  if b.joinsOpen && (← b.isOpen) then work else b.transact work

/-- Executes a statement and answers its rows, or the words of the refusal. -/
def execute (statement : Text) : Activity (σ × ρ) (Except Text (List Row)) := do
  match ← (b.run statement).attempt with
  | .ok rows => return .ok rows
  | .error (.rejected detail) => return .error detail
  | .error f => Activity.fail f

end Backend
end SqlInterchange
