import SqlInterchange.Backend.Scripted
import SqlInterchange.Proofs.Pipeline.Course

/-! # Runs of a pipeline

A run of a pipeline that has not run before, on a connection without an open transaction, is one
unit of work that takes a course of its statements.  The trace of the run is that of the course
between the beginning and the end of the transaction (`run_takes`), so what is submitted, what the
caller is told and how the transaction ends can be read off the course.
-/
namespace SqlInterchange
namespace Pipeline

/-! ## Readings of a course -/

namespace Course

variable {progress? : Option Progress} {executed total : Int} {statements : List Text} {x : Course}

/-- What is submitted is the first statements, and what is not the others. -/
theorem Of.submitted_append_rest (h : x.Of progress? total executed statements) :
    x.submitted ++ x.rest = statements := by
  induction h with
  | complete => rfl
  | refused detail => rfl
  | broken hf => rfl
  | interrupted rows h => rfl
  | step rows h hx ih => exact congrArg (_ :: ·) ih

theorem Of.submitted_eq_take (h : x.Of progress? total executed statements) :
    x.submitted = statements.take (x.done.length + x.ending.attempted.length) := by
  have hlength : x.submitted.length = x.done.length + x.ending.attempted.length := by
    simp [submitted]
  rw [← hlength, ← h.submitted_append_rest, List.take_left]

theorem Of.done_eq_take (h : x.Of progress? total executed statements) :
    x.done.map Prod.fst = statements.take x.done.length := by
  have hlength : (x.done.map Prod.fst).length = x.done.length := List.length_map _
  rw [← hlength, ← h.submitted_append_rest, submitted, List.append_assoc, List.take_left]

theorem Of.rest_eq_drop (h : x.Of progress? total executed statements) :
    x.rest = statements.drop (x.done.length + x.ending.attempted.length) := by
  have hlength : x.submitted.length = x.done.length + x.ending.attempted.length := by
    simp [submitted]
  rw [← hlength, ← h.submitted_append_rest, List.drop_left]

/-- The statement that failed is the one after those done. -/
theorem Of.getElem?_attempted (h : x.Of progress? total executed statements) {statement : Text}
    (hs : statement ∈ x.ending.attempted) : statements[x.done.length]? = some statement := by
  have hattempted : x.ending.attempted = [statement] := by
    cases he : x.ending with
    | complete => simp [he, Ending.attempted] at hs
    | interrupted f => simp [he, Ending.attempted] at hs
    | refused s detail => simpa [he, Ending.attempted, eq_comm] using hs
    | broken s f => simpa [he, Ending.attempted, eq_comm] using hs
  rw [← h.submitted_append_rest, submitted, hattempted]
  simp

/-- A course is complete if and only if all statements are done and no call of the callback has
failed. -/
theorem Of.isComplete_iff (h : x.Of progress? total executed statements) :
    x.ending.isComplete ↔ x.done.length = statements.length ∧
      ∀ i < statements.length, told progress? (executed + i + 1) total = .ok () := by
  induction h with
  | complete => simp [Ending.isComplete]
  | refused detail => simp [Ending.isComplete]
  | broken hf => simp [Ending.isComplete]
  | interrupted rows h =>
    -- the first call of the callback is the one that failed
    simp only [Ending.isComplete, Bool.false_eq_true, false_iff, not_and]
    intro _ hall
    have hfirst := hall 0 (by simp)
    simp [h] at hfirst
  | @step executed statement statements rows x htold hx ih =>
    -- the first call is that of the step, and call `i + 1` is call `i` of the others
    rw [Course.step, ih]
    constructor
    · rintro ⟨hlength, hall⟩
      refine ⟨congrArg (· + 1) hlength, fun i hi => ?_⟩
      cases i with
      | zero => simpa using htold
      | succ i =>
        have := hall i (by simpa using hi)
        rwa [show executed + ((i + 1 : Nat) : Int) + 1 = executed + 1 + i + 1 by omega]
    · rintro ⟨hlength, hall⟩
      refine ⟨by simpa using hlength, fun i hi => ?_⟩
      have := hall (i + 1) (by simpa using hi)
      rwa [show executed + ((i + 1 : Nat) : Int) + 1 = executed + 1 + i + 1 by omega] at this

/-- What breaks a connection is no refusal. -/
theorem Of.not_rejected (h : x.Of progress? total executed statements) {statement : Text}
    {failure : Failure} (he : x.ending = .broken statement failure) :
    ∀ detail, failure ≠ .rejected detail := by
  induction h with
  | complete => cases he
  | refused detail => cases he
  | interrupted rows h => cases he
  | broken hf =>
    cases he
    exact hf
  | step rows h hx ih => exact ih he

/-- A complete course has submitted all statements. -/
theorem Of.submitted_eq (h : x.Of progress? total executed statements)
    (hcomplete : x.ending.isComplete) : x.submitted = statements := by
  have hlength := (h.isComplete_iff.mp hcomplete).1
  rw [h.submitted_eq_take]
  exact List.take_of_length_le (by omega)

/-! ### Readings of its trace -/

theorem submissions_events :
    Trace.submissions (x.events progress? total executed) = x.submitted := by
  have hdone : Trace.submissions (doneEvents progress? total executed x.done) =
      x.done.map Prod.fst := by
    induction x.done generalizing executed with
    | nil => rfl
    | cons d done ih =>
      rw [doneEvents, Trace.submissions_append, ih]
      cases progress? <;> rfl
  rw [events, Trace.submissions_append, hdone, submitted]
  cases x.ending <;> rfl

theorem controls_events : Trace.controls (x.events progress? total executed) = [] := by
  have hdone : Trace.controls (doneEvents progress? total executed x.done) = [] := by
    induction x.done generalizing executed with
    | nil => rfl
    | cons d done ih =>
      rw [doneEvents, Trace.controls_append, ih]
      cases progress? <;> rfl
  rw [events, Trace.controls_append, hdone]
  cases x.ending <;> rfl

/-- What the caller is told of so many statements, the first of them the one after `executed`
others. -/
def callsFrom (progress? : Option Progress) (total executed : Int) (count : Nat) :
    List (Int × Int) :=
  match progress? with
  | none => []
  | some _ => (List.range count).map fun i : Nat => (executed + i + 1, total)

theorem callsFrom_succ (count : Nat) : callsFrom progress? total executed (count + 1) =
    Trace.progressCalls (tellings progress? (executed + 1) total) ++
      callsFrom progress? total (executed + 1) count := by
  cases progress? with
  | none => rfl
  | some progress =>
    simp only [callsFrom, List.range_succ_eq_map, List.map_cons, List.map_map]
    refine List.cons_eq_cons.mpr ⟨by simp, List.map_congr_left fun i _ => ?_⟩
    simp only [Function.comp_apply, Prod.mk.injEq, and_true]
    omega

theorem callsFrom_append (m n : Nat) : callsFrom progress? total executed (m + n) =
    callsFrom progress? total executed m ++ callsFrom progress? total (executed + m) n := by
  induction m generalizing executed with
  | zero => cases progress? <;> simp [callsFrom]
  | succ m ih =>
    rw [show m + 1 + n = m + n + 1 by omega, callsFrom_succ, callsFrom_succ, ih,
      List.append_assoc, show executed + ((m + 1 : Nat) : Int) = executed + 1 + m by omega]

theorem progressCalls_events : Trace.progressCalls (x.events progress? total executed) =
    callsFrom progress? total executed x.done.length := by
  have hdone : Trace.progressCalls (doneEvents progress? total executed x.done) =
      callsFrom progress? total executed x.done.length := by
    induction x.done generalizing executed with
    | nil => cases progress? <;> rfl
    | cons d done ih =>
      rw [doneEvents, List.length_cons, callsFrom_succ, ← ih, Trace.progressCalls_append]
      rfl
  have hending : Trace.progressCalls x.ending.events = [] := by
    cases x.ending <;> rfl
  rw [events, Trace.progressCalls_append, hdone, hending, List.append_nil]

end Course

/-! ## The run -/

/-- What ends the transaction of a run. -/
def Ending.control (e : Ending) : Control := if e.isComplete then .commit else .rollback

theorem Ending.control_eq_commit {e : Ending} : e.control = .commit ↔ e.isComplete := by
  cases h : e.isComplete <;> simp [control, h]

namespace Course

/-- The result of a run that takes a course. -/
def result (p : Pipeline) (x : Course) : Except Failure Nat :=
  match x.ending with
  | .complete => .ok (p.follow x).executed
  | .interrupted failure => .error ((p.follow x).endingFailure failure)
  | .refused statement detail =>
    .error (.error (.execution ((p.follow x).statementError statement detail)))
  | .broken _ failure => .error failure

/-- The pipeline after such a run. -/
def finish (p : Pipeline) (x : Course) : Pipeline :=
  { p.follow x with state := if x.ending.isComplete then .succeeded else .failed }

/-- What the log says at the end of such a run. -/
def finalLog {σ : Type} (b : Backend σ) (p : Pipeline) (x : Course) : List LogEntry :=
  if x.ending.isComplete then [.phaseFinished p.phase b.name (p.follow x).executed] else []

/-- The trace of such a run. -/
def trace {σ : Type} (b : Backend σ) (progress? : Option Progress) (p : Pipeline) (x : Course) :
    List Event :=
  .logged (.phaseStarted p.phase b.name p.count) :: .controlled .start (.ok ()) ::
    x.events progress? p.total p.executedInCall ++
      .controlled x.ending.control (.ok ()) :: (x.finalLog b p).map .logged

end Course

variable {σ : Type} {b : Backend σ} {progress? : Option Progress} {p : Pipeline} {c : σ}

/-- A pipeline whose run has begun. -/
def begun (p : Pipeline) : Pipeline := { p with state := .running }

/-- What a run does once its unit of work has ended. -/
def conclude (b : Backend σ) : Except Failure Unit → Activity (σ × Pipeline) Nat
  | .ok () => do
    update fun p => { p with state := .succeeded }
    let p ← current
    Activity.log (.phaseFinished p.phase b.name p.executed)
    return p.executed
  | .error f => do
    update fun p => { p with state := .failed }
    Activity.fail ((← current).endingFailure f)

theorem run_eq (b : Backend σ) (progress? : Option Progress) :
    run b progress? = current >>= fun p =>
      match p.refusal? with
      | some f => Activity.fail f
      | none =>
        update begun >>= fun _ =>
          Activity.log (.phaseStarted p.phase b.name p.count) >>= fun _ =>
            (b.unitOfWork (drain b progress? p.queue)).attempt >>= conclude b := by
  rw [run]
  refine congrArg (current >>= ·) (funext fun p => ?_)
  cases p.refusal? with
  | some f => rfl
  | none =>
    refine congrArg (update _ >>= ·) (funext fun _ => congrArg (Activity.log _ >>= ·) ?_)
    refine funext fun _ => congrArg (_ >>= ·) (funext fun outcome => ?_)
    cases outcome <;> rfl

theorem run_of_pending (hp : p.state = .pending) :
    run b progress? (c, p) =
      (((b.unitOfWork (drain b progress? p.queue)).attempt >>= conclude b)
        (c, p.begun)).after [.logged (.phaseStarted p.phase b.name p.count)] := by
  have hcurrent : (current : Activity (σ × Pipeline) Pipeline) (c, p) = ⟨.ok p, (c, p), []⟩ := rfl
  have hlog (s : σ × Pipeline) : Activity.log (.phaseStarted p.phase b.name p.count) s =
      ⟨.ok (), s, [.logged (.phaseStarted p.phase b.name p.count)]⟩ := rfl
  have hrefusal : p.refusal? = none := by rw [refusal?, hp]
  rw [run_eq, Activity.bind_of_ok hcurrent, hrefusal]
  simp only
  rw [Activity.bind_of_ok (update_apply _ c p), Activity.bind_of_ok (hlog _), Record.after_nil,
    Record.after_nil]

/-- What comes of a run when its unit of work has ended. -/
def unitResult (r : Record (σ × Pipeline) Unit) : Except Failure Nat :=
  match r.outcome with
  | .ok () => .ok r.state.2.executed
  | .error f => .error (r.state.2.endingFailure f)

theorem unitResult_of_error {r : Record (σ × Pipeline) Unit} {f : Failure}
    (h : r.outcome = .error f) : unitResult r = .error (r.state.2.endingFailure f) := by
  rw [unitResult, h]

/-- What the log says of it. -/
def unitLog (b : Backend σ) (r : Record (σ × Pipeline) Unit) : List LogEntry :=
  match r.outcome with
  | .ok () => [.phaseFinished r.state.2.phase b.name r.state.2.executed]
  | .error _ => []

/-- A fresh run is one unit of work, whatever the connection answers. -/
theorem runFresh_apply {ρ : Type} {r : Record (σ × Pipeline) Unit} (hp : p.state = .pending)
    (hr : b.unitOfWork (drain b progress? p.queue) (c, p.begun) = r) (own : ρ) :
    runFresh b progress? p (c, own) =
      ⟨unitResult r, (r.state.1, own),
        .logged (.phaseStarted p.phase b.name p.count) :: r.events ++
          (unitLog b r).map .logged⟩ := by
  have hrun : run b progress? (c, p) = _ := run_of_pending hp
  rw [Activity.bind_of_ok (Activity.attempt_apply _ _), hr] at hrun
  show (Record.mk _ _ _ : Record (σ × ρ) Nat) = _
  rw [hrun]
  -- what is left is to set the state and to log it
  obtain ⟨outcome, state, es⟩ := r
  cases outcome <;> rfl

theorem Ending.control_outcome (e : Ending) (p : Pipeline) : .ending (e.outcome p) = e.control := by
  cases e <;> rfl

/-- The unit of work of a run takes a course of the statements. -/
theorem unitOfWork_drain (hp : p.state = .running) (hfree : b.Free c)
    (hopens : b.Opens c) (hkeeps : ∀ statement ∈ p.queue, b.Keeps statement)
    (h : Trace.Controlled (b.unitOfWork (drain b progress? p.queue) (c, p)).events) :
    ∃ x c₁ c₂, Course.Of progress? p.total p.executedInCall p.queue x ∧
      b.control x.ending.control c₁ = (.ok (), c₂) ∧
      b.unitOfWork (drain b progress? p.queue) (c, p) =
        ⟨x.ending.outcome (p.follow x), (c₂, p.follow x),
          .controlled .start (.ok ()) :: x.events progress? p.total p.executedInCall ++
            [.controlled x.ending.control (.ok ())]⟩ := by
  -- what the unit of work asks of its work, for whatever connection it is done on
  have hwork : b.KeepsOpen (drain b progress? p.queue) p := by
    intro c
    obtain ⟨x, c', hx, hdrain, hopen⟩ := drain_apply b progress? hp rfl c
    rw [hdrain]
    refine hopen fun s hs => hkeeps s ?_
    rw [← hx.submitted_append_rest]
    exact List.mem_append_left _ hs
  obtain ⟨c₀, c₂, -, hend, hunit⟩ := Backend.unitOfWork_apply hfree hopens hwork h
  obtain ⟨x, c₁, hx, hdrain, -⟩ := drain_apply b progress? hp rfl c₀
  simp only [hdrain, Ending.control_outcome] at hend hunit
  exact ⟨x, c₁, c₂, hx, hend, hunit⟩

theorem endingFailure_of_not_rejected (p : Pipeline) {f : Failure}
    (hf : ∀ detail, f ≠ .rejected detail) : p.endingFailure f = f := by
  cases f with
  | rejected detail => exact absurd rfl (hf detail)
  | error e => rfl
  | fault f => rfl

theorem Course.Of.conclude_apply {executed total : Int} {statements : List Text} {x : Course}
    (hx : x.Of progress? total executed statements) (p : Pipeline) :
    conclude b (x.ending.outcome (p.follow x)) (c, p.follow x) =
      ⟨x.result p, (c, x.finish p), (x.finalLog b p).map .logged⟩ := by
  rw [Course.result, Course.finish, Course.finalLog]
  cases he : x.ending with
  | complete => rfl
  | interrupted failure => rfl
  | refused statement detail => rfl
  | broken statement failure =>
    -- only a refusal is taken for that of the end, and this is none
    show Record.mk (.error ((p.follow x).endingFailure failure)) _ _ = _
    rw [endingFailure_of_not_rejected _ (hx.not_rejected he)]
    rfl

/-- **Main.** A run of a pipeline that has not run takes a course of its statements, in one unit
of work of its own. -/
theorem run_takes (hp : p.state = .pending) (hfree : b.Free c)
    (hopens : b.Opens c) (hkeeps : ∀ statement ∈ p.queue, b.Keeps statement)
    (h : Trace.Controlled (run b progress? (c, p)).events) :
    ∃ x c₁ c₂, Course.Of progress? p.total p.executedInCall p.queue x ∧
      b.control x.ending.control c₁ = (.ok (), c₂) ∧
      run b progress? (c, p) = ⟨x.result p, (c₂, x.finish p), x.trace b progress? p⟩ := by
  rw [run_of_pending hp, Activity.bind_of_ok (Activity.attempt_apply _ _)] at h ⊢
  -- all controls of the unit of work are among those of the run
  obtain ⟨x, c₁, c₂, hx, hend, hunit⟩ :=
    unitOfWork_drain (p := p.begun) rfl hfree hopens hkeeps h.right.left
  refine ⟨x, c₁, c₂, hx, hend, ?_⟩
  have hconclude := hx.conclude_apply (b := b) (c := c₂) p.begun
  rw [show p.queue = p.begun.queue from rfl, hunit, hconclude]
  simp only [Record.after, Course.trace, List.cons_append, List.nil_append, List.append_assoc]
  rfl

/-! ### Readings of the trace of a run -/

namespace Course

variable {x : Course}

theorem submissions_trace : Trace.submissions (x.trace b progress? p) = x.submitted := by
  rw [trace, Trace.submissions_append, ← submissions_events]
  have hlog := (Trace.remarks_logged (x.finalLog b p)).submissions_eq
  exact (congrArg (_ ++ ·) hlog).trans (List.append_nil _)

theorem progressCalls_trace : Trace.progressCalls (x.trace b progress? p) =
    callsFrom progress? p.total p.executedInCall x.done.length := by
  rw [trace, Trace.progressCalls_append, ← progressCalls_events]
  have hlog := (Trace.remarks_logged (x.finalLog b p)).progressCalls_eq
  exact (congrArg (_ ++ ·) hlog).trans (List.append_nil _)

theorem controls_trace : Trace.controls (x.trace b progress? p) = [.start, x.ending.control] := by
  rw [trace, Trace.controls_append]
  have hevents : Trace.controls (.logged (.phaseStarted p.phase b.name p.count) ::
      .controlled .start (.ok ()) :: x.events progress? p.total p.executedInCall) = [.start] :=
    congrArg (Control.start :: ·) controls_events
  have hlog := (Trace.remarks_logged (x.finalLog b p)).controls_eq
  rw [hevents]
  exact congrArg (Control.start :: x.ending.control :: ·) hlog

end Course

/-! ### The result of a run -/

theorem Course.result_of_isComplete {x : Course} (h : x.ending.isComplete) (p : Pipeline) :
    x.result p = .ok (p.executed + x.done.length) := by
  obtain ⟨done, ending, rest⟩ := x
  cases ending with
  | complete => rfl
  | interrupted failure => cases h
  | refused statement detail => cases h
  | broken statement failure => cases h

theorem Course.result_of_not_isComplete {x : Course} (h : x.ending.isComplete = false)
    (p : Pipeline) : ∃ f, x.result p = .error f := by
  obtain ⟨done, ending, rest⟩ := x
  cases ending with
  | complete => cases h
  | interrupted failure => exact ⟨_, rfl⟩
  | refused statement detail => exact ⟨_, rfl⟩
  | broken statement failure => exact ⟨_, rfl⟩

theorem Course.result_of_refused {x : Course} {statement detail : Text}
    (h : x.ending = .refused statement detail) (p : Pipeline) :
    x.result p = .error (.error (.execution ((p.follow x).statementError statement detail))) := by
  obtain ⟨done, ending, rest⟩ := x
  obtain rfl : ending = .refused statement detail := h
  rfl

theorem executedInCall_follow (p : Pipeline) (x : Course) :
    (p.follow x).executedInCall = p.executedInCall + x.done.length := by
  simp only [executedInCall, follow]
  omega

/-! ## Prefix safety -/

theorem executedInCall_start (phase : Text) (statements : List Text) (offset : Int)
    (total? : Option Int) : (start phase statements offset total?).executedInCall = offset :=
  Int.add_zero offset

theorem statementError_eq {executed : Int} (h : p.executedInCall = executed)
    (statement detail : Text) : p.statementError statement detail =
      { message := "Failed to execute statement ".toList ++ Decimal.ofInt (executed + 1) ++
          ':' :: ' ' :: detail
        statement, detail, executed } := by
  rw [← h]
  rfl

theorem unitError_eq {executed : Int} (h : p.executedInCall = executed) (detail : Text) :
    p.unitError detail =
      { message := "Failed to complete ".toList ++ p.phase ++ " unit of work: ".toList ++ detail
        statement := [], detail, executed } := by
  rw [← h]
  rfl

/-- What a pipeline that was fresh leaves behind when its run has taken a course. -/
structure Course.Leaves {σ : Type} (b : Backend σ) (progress? : Option Progress) (p : Pipeline)
    (x : Course) (r : Record (σ × Pipeline) Nat) : Prop where
  /-- After each statement done, and before the next one, the caller is told of it; the failure
  of a statement is the last thing before the transaction ends. -/
  events : r.events =
    [.logged (.phaseStarted p.phase b.name p.queue.length), .controlled .start (.ok ())] ++
      (doneEvents progress? p.total p.offset x.done ++ x.ending.events) ++
      [.controlled x.ending.control (.ok ())] ++
      if x.ending.isComplete then [.logged (.phaseFinished p.phase b.name x.done.length)] else []
  /-- The statements done, and the one that failed if one did, are the first ones. -/
  submissions : Trace.submissions r.events =
    p.queue.take (x.done.length + x.ending.attempted.length)
  /-- The statements done are the first ones. -/
  done : x.done.map Prod.fst = p.queue.take x.done.length
  /-- The statement that failed is the next one. -/
  attempted : ∀ statement ∈ x.ending.attempted, p.queue[x.done.length]? = some statement
  /-- The caller is told of each statement done and of no other. -/
  progressCalls : Trace.progressCalls r.events =
    callsFrom progress? p.total p.offset x.done.length
  /-- One transaction begins and ends. -/
  controls : Trace.controls r.events = [.start, x.ending.control]
  /-- It is committed if and only if all has gone well. -/
  commit_iff : x.ending.control = .commit ↔ x.done.length = p.queue.length ∧
    ∀ i < p.queue.length, told progress? (p.offset + i + 1) p.total = .ok ()
  /-- The pipeline has counted the statements done, and keeps those never submitted. -/
  pipeline : r.state.2 =
    { p with
      queue := p.queue.drop (x.done.length + x.ending.attempted.length)
      executed := x.done.length
      state := if x.ending.isComplete then .succeeded else .failed }
  /-- The run answers how many statements are done, or fails with what ended it. -/
  outcome : r.outcome =
    match x.ending with
    | .complete => .ok x.done.length
    | .interrupted (.rejected detail) =>
      .error (.error (.execution
        { message := "Failed to complete ".toList ++ p.phase ++ " unit of work: ".toList ++ detail
          statement := [], detail, executed := p.offset + x.done.length }))
    | .interrupted failure => .error failure
    | .refused statement detail =>
      .error (.error (.execution
        { message := "Failed to execute statement ".toList ++
            Decimal.ofInt (p.offset + x.done.length + 1) ++ ':' :: ' ' :: detail
          statement, detail, executed := p.offset + x.done.length }))
    | .broken _ failure => .error failure

/-- **Main: prefix safety.**  On a connection without an open transaction, the beginning and the
end of whose transaction are not refused, a run submits the first statements in order, each once,
up to the first that fails; it tells the caller of each one done before it submits the next; and
it commits if all of this went well and rolls back otherwise. -/
theorem run_is_prefix_safe (b : Backend σ) (progress? : Option Progress) (phase : Text)
    (statements : List Text) (offset : Int) (total? : Option Int) (c : σ)
    (hfree : b.Free c) (hopens : b.Opens c)
    (hkeeps : ∀ statement ∈ statements, b.Keeps statement)
    (hcontrolled : Trace.Controlled
      (run b progress? (c, .start phase statements offset total?)).events) :
    ∃ x : Course,
      x.Of progress? (total?.getD (offset + statements.length)) offset statements ∧
      x.Leaves b progress? (.start phase statements offset total?)
        (run b progress? (c, .start phase statements offset total?)) := by
  obtain ⟨x, c₁, c₂, hx, -, hrun⟩ :=
    run_takes (p := .start phase statements offset total?) rfl hfree hopens hkeeps hcontrolled
  rw [executedInCall_start] at hx
  have hexecuted : ((start phase statements offset total?).follow x).executed = x.done.length :=
    Nat.zero_add _
  have hcalls : ((start phase statements offset total?).follow x).executedInCall =
      offset + x.done.length := by
    rw [executedInCall_follow, executedInCall_start]
  refine ⟨x, hx, ?_⟩
  rw [hrun]
  constructor
  case events =>
    simp only [Course.trace, Course.finalLog, executedInCall_start, hexecuted, Course.events,
      List.cons_append, List.nil_append, List.append_assoc]
    split <;> rfl
  case submissions =>
    rw [Course.submissions_trace]
    exact hx.submitted_eq_take
  case done => exact hx.done_eq_take
  case attempted => exact fun statement hs => hx.getElem?_attempted hs
  case progressCalls =>
    rw [Course.progressCalls_trace, executedInCall_start]
    rfl
  case controls => exact Course.controls_trace
  case commit_iff => exact Ending.control_eq_commit.trans hx.isComplete_iff
  case pipeline =>
    simp only [Course.finish, follow, hx.rest_eq_drop]
    simp [start]
  case outcome =>
    obtain ⟨done, ending, rest⟩ := x
    cases ending with
    | complete => exact congrArg Except.ok hexecuted
    | interrupted failure =>
      -- a callback can fail with what looks like a refusal of the end
      cases failure with
      | rejected detail =>
        exact congrArg (Except.error ∘ Failure.error ∘ Error.execution) (unitError_eq hcalls detail)
      | error e => rfl
      | fault f => rfl
    | refused statement detail =>
      exact congrArg (Except.error ∘ Failure.error ∘ Error.execution)
        (statementError_eq hcalls statement detail)
    | broken statement failure => rfl

/-- An engine that refuses the second of three statements. -/
def refusing : Backend Bool := .engine (.bare (· == "B".toList))

/-- Three statements, to be submitted after five others. -/
def three : Pipeline := .start "main".toList ["A".toList, "B".toList, "C".toList] 5 none

/-- A caller who wants to be told. -/
def listening : Option Progress := some fun _ _ => .proceed

theorem controlled_refusing : Trace.Controlled (run refusing listening (false, three)).events := by
  decide

theorem run_refusing_leaves : ∃ x : Course,
    x.Of listening 8 5 ["A".toList, "B".toList, "C".toList] ∧
      x.Leaves refusing listening three (run refusing listening (false, three)) :=
  run_is_prefix_safe refusing listening "main".toList ["A".toList, "B".toList, "C".toList] 5 none
    false (fun _ => rfl) (Backend.opens_bare false)
    (fun statement _ => Backend.keeps_bare statement) controlled_refusing

end Pipeline
end SqlInterchange
