import SqlInterchange.Backend

/-! # Pipelines

A pipeline executes statements in order, in one unit of work: each is submitted only after the one
before it has succeeded, and the caller is told of each success. The first statement that fails
ends the run. A pipeline runs once: its state goes from pending over running to succeeded or
failed, and any further run is refused.

An import of a document takes two pipelines, one after the other; counts go on from the first to
the second. -/
namespace SqlInterchange

/-- What a progress callback does when it is told of a success. -/
inductive Reaction where
  /-- It returns. -/
  | proceed
  /-- It fails. -/
  | fail (failure : Failure)
  /-- It runs the pipeline that it is told of, and goes on as its refusal makes it. -/
  | runAgain (afterRefusal : Failure → Reaction)

/-- A progress callback: what it does when told how many statements of how many are executed. -/
abbrev Progress := Int → Int → Reaction

/-- A run of statements and how far it is. -/
structure Pipeline where
  /-- The name of the run, as messages give it. -/
  phase : Text
  /-- The statements that are still to be submitted. -/
  queue : List Text
  /-- How many statements there are in all. -/
  count : Nat
  /-- How many statements earlier runs of the same call have executed. -/
  offset : Int
  /-- How many statements the caller is told there are. -/
  total : Int
  /-- How many statements have succeeded. -/
  executed : Nat
  /-- The state of the run. -/
  state : RunState
deriving DecidableEq

namespace Pipeline

/-- A pipeline before its run. Unless told otherwise, it counts to its own end. -/
def start (phase : Text) (statements : List Text) (offset : Int) (total? : Option Int) : Pipeline :=
  { phase, queue := statements, count := statements.length, offset,
    total := total?.getD (offset + statements.length), executed := 0, state := .pending }

/-- How many statements of the call have succeeded. -/
def executedInCall (p : Pipeline) : Int := p.offset + p.executed

/-- Why a pipeline in this state cannot be run, if so. -/
def refusal? (p : Pipeline) : Option Failure :=
  match p.state with
  | .pending => none
  | state => some (.fault (.notPending state))

/-- The error of a statement that the database refuses. -/
def statementError (p : Pipeline) (statement detail : Text) : ExecutionError :=
  { message := "Failed to execute statement ".toList ++ Decimal.ofInt (p.executedInCall + 1) ++
      ':' :: ' ' :: detail
    statement, detail, executed := p.executedInCall }

/-- The error of a unit of work that the database refuses to begin or to end. -/
def unitError (p : Pipeline) (detail : Text) : ExecutionError :=
  { message := "Failed to complete ".toList ++ p.phase ++ " unit of work: ".toList ++ detail
    statement := [], detail, executed := p.executedInCall }

variable {σ ρ : Type}

/-- The pipeline of an activity. -/
def current : Activity (σ × Pipeline) Pipeline := do return (← Activity.get).2

/-- Changes the pipeline of an activity. -/
def update (f : Pipeline → Pipeline) : Activity (σ × Pipeline) Unit :=
  Activity.modify fun (c, p) => (c, f p)

/-- Lets a progress callback do what it does. -/
def react : Reaction → Activity (σ × Pipeline) Unit
  | .proceed => pure ()
  | .fail f => Activity.fail f
  | .runAgain afterRefusal => do
    match (← current).refusal? with
    | some f => react (afterRefusal f)
    | none => pure ()

/-- Tells the caller of a success. -/
def report (progress? : Option Progress) : Activity (σ × Pipeline) Unit := do
  match progress? with
  | none => pure ()
  | some progress =>
    let p ← current
    Activity.emit (.progressed p.executedInCall p.total)
    react (progress p.executedInCall p.total)

variable (b : Backend σ) (progress? : Option Progress)

/-- Submits the statements in order, up to the first that fails. -/
def drain : List Text → Activity (σ × Pipeline) Unit
  | [] => pure ()
  | statement :: rest => do
    update fun p => { p with queue := rest }
    match ← b.execute statement with
    | .ok _ =>
      update fun p => { p with executed := p.executed + 1 }
      report progress?
      drain rest
    | .error detail =>
      Activity.fail (.error (.execution ((← current).statementError statement detail)))

/-- The failure that a failed unit of work ends the run with. -/
def endingFailure (p : Pipeline) : Failure → Failure
  | .rejected detail => .error (.execution (p.unitError detail))
  | f => f

/-- Runs a pipeline and answers how many statements it has executed. -/
def run : Activity (σ × Pipeline) Nat := do
  let p ← current
  match p.refusal? with
  | some f => Activity.fail f
  | none =>
    update fun p => { p with state := .running }
    Activity.log (.phaseStarted p.phase b.name p.count)
    match ← (b.unitOfWork (drain b progress? p.queue)).attempt with
    | .ok () =>
      update fun p => { p with state := .succeeded }
      let p ← current
      Activity.log (.phaseFinished p.phase b.name p.executed)
      return p.executed
    | .error f =>
      update fun p => { p with state := .failed }
      Activity.fail ((← current).endingFailure f)

/-- Runs a pipeline from its start to its end. -/
def runFresh (p : Pipeline) : Activity (σ × ρ) Nat := Activity.withOwn p (run b progress?)

/-- Executes the statements of a document, those that make an index in a unit of work of their own
after all others have succeeded. -/
def runBoth (compiled : Compiled) : Activity (σ × ρ) Nat := do
  let main ← runFresh b progress? (.start "main".toList compiled.main 0 (some compiled.total))
  if compiled.deferred.isEmpty then return main
  else
    let deferred ← runFresh b progress?
      (.start "deferred".toList compiled.deferred main (some compiled.total))
    return main + deferred

end Pipeline
end SqlInterchange
