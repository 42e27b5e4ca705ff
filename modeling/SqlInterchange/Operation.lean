import SqlInterchange.Backend.Registry
import SqlInterchange.Export.Walk
import SqlInterchange.Pipeline
import SqlInterchange.Sql.Script.Wrapper

/-! # Operations

The operations that a caller has: to import a script or a document, to export a database as either,
and to wipe it. Each reports one outcome. An error is logged and given to the caller's error
callback, or ends the operation if there is none; a result is given to the success callback. A
fault is neither, and ends the operation. What a callback fails with ends the operation too. -/
namespace SqlInterchange

/-- The callbacks of a caller. Those for success and for errors may fail with a failure. -/
structure Callbacks where
  /-- Told of a result. -/
  success? : Option (Success → Option Failure)
  /-- Told of an error. -/
  error? : Option (Error → Option Failure)
  /-- Told of each statement that has succeeded. -/
  progress? : Option Progress

namespace Operation

variable {σ ρ α : Type}

/-- Tells a callback of an event and lets it fail. -/
def tell (event : Event) (failure? : Option Failure) : Activity (σ × ρ) Unit := do
  Activity.emit event
  match failure? with
  | none => return ()
  | some f => Activity.fail f

/-- Reports the outcome of some work. There is no result if the error callback took the error. -/
def reported (name : String) (callbacks : Callbacks) (success : α → Success)
    (work : Activity (σ × ρ) α) : Activity (σ × ρ) (Option α) := do
  match ← work.attempt with
  | .ok a =>
    match callbacks.success? with
    | none => return some a
    | some callback =>
      tell (.succeeded (success a)) (callback (success a))
      return some a
  | .error (.error e) =>
    Activity.log (.operationFailed name.toList e)
    match callbacks.error? with
    | none => Activity.fail (.error e)
    | some callback =>
      tell (.failed e) (callback e)
      return none
  | .error f => Activity.fail f

/-- What a caller passes: something to execute statements on, options, and callbacks. -/
structure Call (σ : Type) where
  /-- The ways to drive connections. -/
  registry : Registry (Backend σ) (Connection σ)
  /-- What to execute statements on. -/
  handle : Handle (Backend σ) (Connection σ)
  /-- The options. -/
  options : Options
  /-- The callbacks. -/
  callbacks : Callbacks

variable (call : Call σ)

/-- The backend of a call. -/
def backend : Activity (σ × ρ) (Backend σ) :=
  Activity.ofExcept ((call.registry.adapt call.handle).mapError .error)

/-- The document of a source. -/
def parsed (source : Source) : Activity (σ × ρ) Document :=
  Activity.ofExcept ((Document.parse source).mapError Refusal.toFailure)

/-- The statements of the document of a source. -/
def compiled (scope : Scope) (source : Source) : Activity (σ × ρ) Compiled := do
  let d ← parsed source
  Activity.logAll (d.compileLog scope)
  return d.compile scope

/-- Executes the statements of a script and answers how many they are. -/
def importScript (script : Text) : Activity (σ × ρ) (Option Nat) :=
  reported "import_sql" call.callbacks .executed do
    let b ← backend call
    let statements := Script.unwrap (Script.split script)
    Pipeline.runFresh b call.callbacks.progress? (.start "main".toList statements 0 none)

/-- Executes the statements of a document and answers how many they are. -/
def importDocument (source : Source) : Activity (σ × ρ) (Option Nat) :=
  reported "import_json" call.callbacks .executed do
    let b ← backend call
    let c ← compiled (.ofOptions call.options) source
    Pipeline.runBoth b call.callbacks.progress? c

/-- Writes a database as a script. -/
def exportScript : Activity (σ × ρ) (Option ScriptExport) :=
  reported "export_sql" call.callbacks .script do
    Walk.script (← backend call) call.options

/-- Writes a database as a document. -/
def exportDocument : Activity (σ × ρ) (Option DocumentExport) :=
  reported "export_json" call.callbacks .document do
    Walk.document (← backend call) call.options

/-- Drops the tables of a database and answers how many they were. -/
def wipe : Activity (σ × ρ) (Option Nat) :=
  reported "wipe" call.callbacks .executed do
    let b ← backend call
    let drops ← Walk.drops b call.options
    if drops.isEmpty then return 0
    else Pipeline.runFresh b call.callbacks.progress? (.start "wipe".toList drops 0 none)

end Operation
end SqlInterchange
