import SqlInterchange.Pipeline
import SqlInterchange.Proofs.Pipeline.UnitOfWork

/-! # The course of a run

Statements are submitted one after the other, and after each success the caller is told.  The
course of this is the statements done with their rows, how it ended, and the statements that were
never submitted.  `Course.Of` says which courses a list of statements may take: it ends because
there is nothing left, because a statement is refused or breaks the connection, or because the
caller's callback fails.  `drain_apply` says that each run takes one of them, whatever the
connection and the callback do.
-/
namespace SqlInterchange

/-- What comes of what a progress callback does while the pipeline is running. -/
def Reaction.outcome : Reaction → Except Failure Unit
  | proceed => .ok ()
  | fail f => .error f
  | runAgain afterRefusal => (afterRefusal (.fault (.notPending .running))).outcome

namespace Pipeline

variable {σ : Type} {c : σ} {p : Pipeline}

theorem react_apply (hp : p.state = .running) (r : Reaction) :
    react r (c, p) = ⟨r.outcome, (c, p), []⟩ := by
  induction r with
  | proceed => rfl
  | fail f => rfl
  | runAgain afterRefusal ih =>
    -- the pipeline is running, so it refuses to run again and the reaction goes on
    have hcurrent : (current : Activity (σ × Pipeline) Pipeline) (c, p) = ⟨.ok p, (c, p), []⟩ := rfl
    rw [react, Activity.bind_of_ok hcurrent]
    simp only [refusal?, hp, ih]
    rfl

/-! ## What the caller is told -/

/-- What comes of telling the caller. -/
def told (progress? : Option Progress) (executed total : Int) : Except Failure Unit :=
  match progress? with
  | none => .ok ()
  | some progress => (progress executed total).outcome

/-- The events of telling the caller. -/
def tellings (progress? : Option Progress) (executed total : Int) : List Event :=
  match progress? with
  | none => []
  | some _ => [.progressed executed total]

theorem report_apply (hp : p.state = .running) (progress? : Option Progress) :
    report progress? (c, p) =
      ⟨told progress? p.executedInCall p.total, (c, p),
        tellings progress? p.executedInCall p.total⟩ := by
  cases progress? with
  | none => rfl
  | some progress =>
    have hcurrent : (current : Activity (σ × Pipeline) Pipeline) (c, p) = ⟨.ok p, (c, p), []⟩ := rfl
    have hemit : (Activity.emit (.progressed p.executedInCall p.total) :
        Activity (σ × Pipeline) Unit) (c, p) =
          ⟨.ok (), (c, p), [.progressed p.executedInCall p.total]⟩ := rfl
    rw [report, Activity.bind_of_ok hcurrent, Activity.bind_of_ok hemit, react_apply hp]
    rfl

/-! ## Courses -/

/-- How statements ended. -/
inductive Ending where
  /-- All are done. -/
  | complete
  /-- The caller's callback failed after the last one done. -/
  | interrupted (failure : Failure)
  /-- The connection refused the next one. -/
  | refused (statement detail : Text)
  /-- The connection broke down at the next one. -/
  | broken (statement : Text) (failure : Failure)

namespace Ending

/-- The statement that was submitted and is not done. -/
def attempted : Ending → List Text
  | complete | interrupted _ => []
  | refused statement _ | broken statement _ => [statement]

/-- The events of that statement. -/
def events : Ending → List Event
  | complete | interrupted _ => []
  | refused statement detail => [.submitted statement (.error (.rejected detail))]
  | broken statement failure => [.submitted statement (.error failure)]

/-- Whether all statements are done, and the caller told of all of them. -/
def isComplete : Ending → Bool
  | complete => true
  | _ => false

/-- What comes of the statements, in a pipeline that has executed those done. -/
def outcome (p : Pipeline) : Ending → Except Failure Unit
  | complete => .ok ()
  | interrupted failure => .error failure
  | refused statement detail => .error (.error (.execution (p.statementError statement detail)))
  | broken _ failure => .error failure

end Ending

/-- A course of statements. -/
structure Course where
  /-- The statements done, with their rows. -/
  done : List (Text × List Row)
  /-- How it ended. -/
  ending : Ending
  /-- The statements that were never submitted. -/
  rest : List Text

namespace Course

/-- The course that begins with one more statement done. -/
def step (statement : Text) (rows : List Row) (x : Course) : Course :=
  { x with done := (statement, rows) :: x.done }

/-- The statements that were submitted. -/
def submitted (x : Course) : List Text := x.done.map Prod.fst ++ x.ending.attempted

/-- The events of statements done, the first of them the one after `executed` others. -/
def doneEvents (progress? : Option Progress) (total : Int) :
    Int → List (Text × List Row) → List Event
  | _, [] => []
  | executed, (statement, rows) :: done =>
    .submitted statement (.ok rows) :: tellings progress? (executed + 1) total ++
      doneEvents progress? total (executed + 1) done

/-- The events of a course after `executed` statements. -/
def events (progress? : Option Progress) (total executed : Int) (x : Course) : List Event :=
  doneEvents progress? total executed x.done ++ x.ending.events

/-- Which courses statements may take after `executed` others, as the caller's callback has it. -/
inductive Of (progress? : Option Progress) (total : Int) : Int → List Text → Course → Prop
  | complete {executed : Int} : Of progress? total executed [] ⟨[], .complete, []⟩
  | refused {executed : Int} {statement : Text} {rest : List Text} (detail : Text) :
    Of progress? total executed (statement :: rest) ⟨[], .refused statement detail, rest⟩
  | broken {executed : Int} {statement : Text} {rest : List Text} {failure : Failure}
    (h : ∀ detail, failure ≠ .rejected detail) :
    Of progress? total executed (statement :: rest) ⟨[], .broken statement failure, rest⟩
  | interrupted {executed : Int} {statement : Text} {rest : List Text} (rows : List Row)
    {failure : Failure} (h : told progress? (executed + 1) total = .error failure) :
    Of progress? total executed (statement :: rest)
      ⟨[(statement, rows)], .interrupted failure, rest⟩
  | step {executed : Int} {statement : Text} {statements : List Text} (rows : List Row)
    {x : Course} (h : told progress? (executed + 1) total = .ok ())
    (hx : Of progress? total (executed + 1) statements x) :
    Of progress? total executed (statement :: statements) (x.step statement rows)

end Course

/-! ## Each run takes a course -/

end Pipeline

namespace Backend

variable {σ ρ : Type} {b : Backend σ} {c c' : σ} {statement : Text}

theorem execute_of_ok {rows : List Row} (h : b.submit statement c = (.ok rows, c')) (own : ρ) :
    b.execute statement (c, own) =
      ⟨.ok (.ok rows), (c', own), [.submitted statement (.ok rows)]⟩ := by
  have hrun : (b.run statement).attempt (c, own) =
      ⟨.ok (.ok rows), (c', own), [.submitted statement (.ok rows)]⟩ := by
    simp [run, Activity.attempt, h]
  exact Activity.bind_of_ok hrun

theorem execute_of_rejected {detail : Text}
    (h : b.submit statement c = (.error (.rejected detail), c')) (own : ρ) :
    b.execute statement (c, own) =
      ⟨.ok (.error detail), (c', own), [.submitted statement (.error (.rejected detail))]⟩ := by
  have hrun : (b.run statement).attempt (c, own) =
      ⟨.ok (.error (.rejected detail)), (c', own),
        [.submitted statement (.error (.rejected detail))]⟩ := by
    simp [run, Activity.attempt, h]
  exact Activity.bind_of_ok hrun

theorem execute_of_broken {failure : Failure} (hf : ∀ detail, failure ≠ .rejected detail)
    (h : b.submit statement c = (.error failure, c')) (own : ρ) :
    b.execute statement (c, own) =
      ⟨.error failure, (c', own), [.submitted statement (.error failure)]⟩ := by
  have hrun : (b.run statement).attempt (c, own) =
      ⟨.ok (.error failure), (c', own), [.submitted statement (.error failure)]⟩ := by
    simp [run, Activity.attempt, h]
  rw [execute, Activity.bind_of_ok hrun]
  cases failure with
  | rejected detail => exact absurd rfl (hf detail)
  | error e => rfl
  | fault f => rfl

end Backend

namespace Pipeline

/-- The pipeline after a course. -/
def follow (p : Pipeline) (x : Course) : Pipeline :=
  { p with queue := x.rest, executed := p.executed + x.done.length }

variable {σ : Type} {p : Pipeline}

theorem update_apply (f : Pipeline → Pipeline) (c : σ) (p : Pipeline) :
    update f (c, p) = ⟨.ok (), (c, f p), []⟩ := rfl

/-- The pipeline after one more statement is done. -/
def advance (p : Pipeline) (rest : List Text) : Pipeline :=
  { p with queue := rest, executed := p.executed + 1 }

theorem executedInCall_advance (p : Pipeline) (rest : List Text) :
    (p.advance rest).executedInCall = p.executedInCall + 1 := by
  simp only [executedInCall, advance]
  omega

theorem follow_advance (p : Pipeline) (rest : List Text) (statement : Text) (rows : List Row)
    (x : Course) : (p.advance rest).follow x = p.follow (x.step statement rows) := by
  simp only [follow, advance, Course.step, List.length_cons, Pipeline.mk.injEq, true_and, and_true]
  omega

/-! ### One statement -/

variable {b : Backend σ} {progress? : Option Progress} {c c₁ : σ} {statement : Text}

theorem drain_of_ok {rows : List Row} (h : b.submit statement c = (.ok rows, c₁))
    (rest : List Text) (p : Pipeline) :
    drain b progress? (statement :: rest) (c, p) =
      ((report progress? >>= fun _ => drain b progress? rest) (c₁, p.advance rest)).after
        [.submitted statement (.ok rows)] := by
  rw [drain, Activity.bind_of_ok (update_apply _ c p),
    Activity.bind_of_ok (Backend.execute_of_ok h _), Record.after_nil]
  show Record.after _ ((update _ >>= fun _ => report progress? >>= _) (c₁, _)) = _
  rw [Activity.bind_of_ok (update_apply _ c₁ _), Record.after_nil]
  rfl

theorem drain_of_rejected {detail : Text}
    (h : b.submit statement c = (.error (.rejected detail), c₁)) (rest : List Text)
    (p : Pipeline) :
    drain b progress? (statement :: rest) (c, p) =
      ⟨.error (.error (.execution (p.statementError statement detail))),
        (c₁, { p with queue := rest }), [.submitted statement (.error (.rejected detail))]⟩ := by
  rw [drain, Activity.bind_of_ok (update_apply _ c p),
    Activity.bind_of_ok (Backend.execute_of_rejected h _)]
  rfl

theorem drain_of_broken {failure : Failure} (hf : ∀ detail, failure ≠ .rejected detail)
    (h : b.submit statement c = (.error failure, c₁)) (rest : List Text) (p : Pipeline) :
    drain b progress? (statement :: rest) (c, p) =
      ⟨.error failure, (c₁, { p with queue := rest }),
        [.submitted statement (.error failure)]⟩ := by
  rw [drain, Activity.bind_of_ok (update_apply _ c p),
    Activity.bind_of_error (Backend.execute_of_broken hf h _)]
  rfl

/-! ### All statements -/

/-- **Main.** Draining the queue of a pipeline takes a course of its statements, and what the
connection makes of each decides whether a transaction is open. -/
theorem drain_apply (b : Backend σ) (progress? : Option Progress) {statements : List Text}
    (hp : p.state = .running) (hqueue : p.queue = statements) (c : σ) :
    ∃ x c', Course.Of progress? p.total p.executedInCall statements x ∧
      drain b progress? statements (c, p) =
        ⟨x.ending.outcome (p.follow x), (c', p.follow x),
          x.events progress? p.total p.executedInCall⟩ ∧
      ((∀ statement ∈ x.submitted, b.Keeps statement) →
        b.inTransaction c' = b.inTransaction c) := by
  induction statements generalizing c p with
  | nil =>
    refine ⟨_, c, .complete, ?_, fun _ => rfl⟩
    have hfollow : p.follow ⟨[], .complete, []⟩ = p := by
      simp only [follow, ← hqueue]
      rfl
    rw [hfollow]
    rfl
  | cons statement rest ih =>
    have hkeep {submitted : List Text} (h : ∀ s ∈ statement :: submitted, b.Keeps s) :
        b.inTransaction (b.submit statement c).2 = b.inTransaction c :=
      h statement (List.mem_cons_self ..) c
    rcases hsubmit : b.submit statement c with ⟨failure | rows, c₁⟩ <;> rw [hsubmit] at hkeep
    · -- the statement fails, and the run with it
      by_cases hf : ∃ detail, failure = .rejected detail
      · obtain ⟨detail, rfl⟩ := hf
        exact ⟨_, c₁, .refused detail, drain_of_rejected hsubmit rest p, hkeep⟩
      · have hf : ∀ detail, failure ≠ .rejected detail := not_exists.mp hf
        exact ⟨_, c₁, .broken hf, drain_of_broken hf hsubmit rest p, hkeep⟩
    · rw [drain_of_ok hsubmit rest p]
      have hreport : report progress? (c₁, p.advance rest) =
          ⟨told progress? (p.executedInCall + 1) p.total, (c₁, p.advance rest),
            tellings progress? (p.executedInCall + 1) p.total⟩ := by
        rw [← executedInCall_advance p rest]
        exact report_apply (p := p.advance rest) hp progress?
      cases htold : told progress? (p.executedInCall + 1) p.total with
      | error f =>
        -- the statement is done, and the callback fails
        rw [htold] at hreport
        rw [Activity.bind_of_error hreport]
        refine ⟨_, c₁, .interrupted rows htold, ?_, hkeep⟩
        simp only [Record.after, Course.events, Course.doneEvents, Ending.events, List.append_nil]
        rfl
      | ok _ =>
        -- the statements left are drained from a pipeline that has executed one more
        rw [htold] at hreport
        rw [Activity.bind_of_ok hreport]
        obtain ⟨x, c', hx, hdrain, hopen⟩ := ih (p := p.advance rest) hp rfl c₁
        rw [executedInCall_advance, follow_advance p rest statement rows x] at hdrain
        rw [executedInCall_advance] at hx
        refine ⟨x.step statement rows, c', .step rows htold hx, ?_, fun h => ?_⟩
        · rw [hdrain]
          simp [Record.after, Course.events, Course.doneEvents, Course.step, advance]
        · rw [hopen fun s hs => h s (List.mem_cons_of_mem _ hs), hkeep h]

end Pipeline
end SqlInterchange
