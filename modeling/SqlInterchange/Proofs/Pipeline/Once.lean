import Mathlib.Data.List.Chain
import SqlInterchange.Proofs.Pipeline.Run

/-! # The life of a pipeline

A pipeline is a machine with four states, and its run moves it by the events that are seen from
outside: the run is announced, transactions begin and end, statements are taken from the queue and
submitted, the caller is told of each success.  `Step` says which event may come where, and
`run_path` that every run goes along such steps, whatever the connection and the callback do.  What a
step preserves holds therefore at each moment of a run: a statement is submitted or still queued, and
the statements executed, those queued and the one that failed are all there are.

Only a pipeline that is pending can begin to run, and no step leads back there.  So a call made by
the callback finds the pipeline running, a later one finds it succeeded or failed, and both are
refused and change nothing (`runs_at_most_once`).
-/
namespace SqlInterchange

/-! ## The states -/

/-- How the state of a run changes. -/
inductive RunState.Moves : RunState → RunState → Prop
  | begin : Moves .pending .running
  | succeed : Moves .running .succeeded
  | fail : Moves .running .failed

/-- Whether the statement of an event has failed, if it is one. -/
def Event.fails? : Event → Option Bool
  | submitted _ (.ok _) => some false
  | submitted _ (.error _) => some true
  | _ => none

/-- Whether the last statement submitted has failed. -/
def Trace.lastFails (es : List Event) : Bool := (es.filterMap Event.fails?).getLast?.getD false

namespace Pipeline

/-- A moment in the life of a pipeline. -/
structure Moment where
  /-- The pipeline as it is. -/
  pipeline : Pipeline
  /-- Whether the statement that was last submitted has failed. -/
  failed : Bool

/-- The pipeline after its next statement is taken from the queue. -/
def drop (p : Pipeline) (rest : List Text) : Pipeline := { p with queue := rest }

/-- One step in the life of a pipeline, with what is seen of it from outside. -/
inductive Step : Moment → Event → Moment → Prop
  | begin {p : Pipeline} (hstate : p.state = .pending) (backend : Text) :
    Step ⟨p, false⟩ (.logged (.phaseStarted p.phase backend p.count)) ⟨p.begun, false⟩
  | control {x : Moment} (hstate : x.pipeline.state = .running) (control : Control)
    (answer : Except Failure Unit) : Step x (.controlled control answer) x
  | submit {p : Pipeline} {statement : Text} {rest : List Text} (hstate : p.state = .running)
    (hqueue : p.queue = statement :: rest) (rows : List Row) :
    Step ⟨p, false⟩ (.submitted statement (.ok rows)) ⟨p.advance rest, false⟩
  | fail {p : Pipeline} {statement : Text} {rest : List Text} (hstate : p.state = .running)
    (hqueue : p.queue = statement :: rest) (failure : Failure) :
    Step ⟨p, false⟩ (.submitted statement (.error failure)) ⟨p.drop rest, true⟩
  | tell {p : Pipeline} (hstate : p.state = .running) :
    Step ⟨p, false⟩ (.progressed p.executedInCall p.total) ⟨p, false⟩
  | succeed {p : Pipeline} (hstate : p.state = .running) (hqueue : p.queue = []) (backend : Text) :
    Step ⟨p, false⟩ (.logged (.phaseFinished p.phase backend p.executed))
      ⟨{ p with state := .succeeded }, false⟩

/-- Steps one after the other: the events, and the moment to which each leads. -/
inductive Path : Moment → List (Event × Moment) → Moment → Prop
  | nil (x : Moment) : Path x [] x
  | cons {x y z : Moment} {e : Event} {path : List (Event × Moment)} (h : Step x e y)
    (hpath : Path y path z) : Path x ((e, y) :: path) z

/-- The states that are passed. -/
def states (path : List (Event × Moment)) : List RunState := path.map fun e => e.2.pipeline.state

/-! ## What a step preserves -/

variable {x y z : Moment} {e : Event} {path : List (Event × Moment)}

theorem Step.moves (h : Step x e y) :
    x.pipeline.state = y.pipeline.state ∨ x.pipeline.state.Moves y.pipeline.state := by
  cases h with
  | begin hstate => exact .inr (hstate ▸ .begin)
  | control | submit | fail | tell => exact .inl rfl
  | succeed hstate => exact .inr (hstate ▸ .succeed)

/-- A statement that leaves the queue is submitted, and no other is. -/
theorem Step.queue_eq (h : Step x e y) :
    x.pipeline.queue = e.statement?.toList ++ y.pipeline.queue := by
  cases h with
  | submit hstate hqueue rows => exact hqueue
  | fail hstate hqueue failure => exact hqueue
  | begin | control | tell | succeed => rfl

theorem Step.failed_eq (h : Step x e y) : y.failed = e.fails?.getD x.failed := by
  cases h <;> rfl

/-- The statements that are executed, those that are queued, and the one that has failed. -/
def Moment.statements (x : Moment) : Nat :=
  x.pipeline.executed + x.pipeline.queue.length + x.failed.toNat

theorem Step.statements_eq (h : Step x e y) : y.statements = x.statements := by
  cases h with
  | submit hstate hqueue rows =>
    simp only [Moment.statements, advance, hqueue, List.length_cons]
    omega
  | fail hstate hqueue failure =>
    simp only [Moment.statements, drop, hqueue, List.length_cons, Bool.toNat_true, Bool.toNat_false]
    omega
  | begin | control | tell | succeed => rfl

/-! ## What a path preserves -/

namespace Path

theorem append {path' : List (Event × Moment)} (h : Path x path y) (h' : Path y path' z) :
    Path x (path ++ path') z := by
  induction h with
  | nil x => exact h'
  | cons hstep hpath ih => exact .cons hstep (ih h')

theorem moves (h : Path x path y) : (x.pipeline.state :: states path).IsChain
    (fun s t => s = t ∨ s.Moves t) ∧
    (x.pipeline.state :: states path).getLast (List.cons_ne_nil _ _) = y.pipeline.state := by
  induction h with
  | nil x => exact ⟨.singleton _, rfl⟩
  | cons hstep hpath ih =>
    obtain ⟨hchain, hlast⟩ := ih
    exact ⟨.cons_cons hstep.moves hchain, (List.getLast_cons_cons ..).trans hlast⟩

theorem queue_eq (h : Path x path y) :
    x.pipeline.queue = Trace.submissions (path.map Prod.fst) ++ y.pipeline.queue := by
  induction h with
  | nil x => rfl
  | @cons x y z e path hstep hpath ih =>
    rw [hstep.queue_eq, ih, List.map_cons, ← List.singleton_append, Trace.submissions_append,
      List.append_assoc]
    cases h : e.statement? <;> simp [Trace.submissions, h]

theorem failed_eq (h : Path x path y) :
    y.failed = ((path.map Prod.fst).filterMap Event.fails?).getLast?.getD x.failed := by
  induction h with
  | nil x => rfl
  | @cons x y z e path hstep hpath ih =>
    rw [ih, hstep.failed_eq, List.map_cons, List.filterMap_cons]
    cases e.fails? with
    | none => rfl
    | some fails => simp [List.getLast?_cons]

theorem statements_eq (h : Path x path y) :
    (∀ e ∈ path, e.2.statements = x.statements) ∧ y.statements = x.statements := by
  induction h with
  | nil x => exact ⟨List.forall_mem_nil _, rfl⟩
  | cons hstep hpath ih =>
    rw [← hstep.statements_eq]
    exact ⟨List.forall_mem_cons.mpr ⟨rfl, ih.1⟩, ih.2⟩

end Path

/-! ## Runs go along paths -/

variable {σ : Type} {b : Backend σ} {progress? : Option Progress} {p : Pipeline} {c : σ}
variable {es : List Event}

/-- `Goes x es y`: a path with these events leads from one moment to the other. -/
def Goes (x : Moment) (es : List Event) (y : Moment) : Prop :=
  ∃ path, Path x path y ∧ path.map Prod.fst = es

namespace Goes

theorem nil (x : Moment) : Goes x [] x := ⟨[], .nil x, rfl⟩

theorem cons (h : Step x e y) (hgoes : Goes y es z) : Goes x (e :: es) z := by
  obtain ⟨path, hpath, rfl⟩ := hgoes
  exact ⟨(e, y) :: path, .cons h hpath, rfl⟩

theorem append {es' : List Event} (h : Goes x es y) (h' : Goes y es' z) :
    Goes x (es ++ es') z := by
  obtain ⟨path, hpath, rfl⟩ := h
  obtain ⟨path', hpath', rfl⟩ := h'
  exact ⟨path ++ path', hpath.append hpath', List.map_append⟩

theorem controls (hstate : x.pipeline.state = .running)
    (h : ∀ e ∈ es, ∃ control answer, e = .controlled control answer) : Goes x es x := by
  induction es with
  | nil => exact nil x
  | cons e es ih =>
    obtain ⟨⟨control, answer, rfl⟩, hes⟩ := List.forall_mem_cons.mp h
    exact cons (.control hstate control answer) (ih hes)

theorem tellings (hstate : p.state = .running) (progress? : Option Progress) :
    Goes ⟨p, false⟩ (Pipeline.tellings progress? p.executedInCall p.total) ⟨p, false⟩ := by
  cases progress? with
  | none => exact nil _
  | some progress => exact cons (.tell hstate) (nil _)

end Goes

/-- A course is a path, and at its end a statement has failed or none. -/
theorem Course.Of.goes {executed total : Int} {statements : List Text} {x : Course}
    (hx : x.Of progress? total executed statements) (hstate : p.state = .running)
    (hqueue : p.queue = statements) (hexecuted : p.executedInCall = executed)
    (htotal : p.total = total) :
    Goes ⟨p, false⟩ (x.events progress? total executed)
      ⟨p.follow x, !x.ending.attempted.isEmpty⟩ := by
  induction hx generalizing p with
  | complete =>
    have hfollow : p.follow ⟨[], .complete, []⟩ = p := by
      simp only [follow, ← hqueue]
      rfl
    rw [hfollow]
    exact .nil _
  | refused detail => exact .cons (.fail hstate hqueue _) (.nil _)
  | broken hf => exact .cons (.fail hstate hqueue _) (.nil _)
  | @interrupted executed statement rest rows failure htold =>
    have htell := Goes.tellings (p := p.advance rest) hstate progress?
    rw [executedInCall_advance, hexecuted, show (p.advance rest).total = total from htotal] at htell
    have hall := Goes.cons (.submit hstate hqueue rows) htell
    show Goes _ _ ⟨p.advance rest, false⟩
    simpa [events, doneEvents, Ending.events] using hall
  | @step executed statement statements rows x htold hx ih =>
    have hexecuted' : (p.advance statements).executedInCall = executed + 1 := by
      rw [executedInCall_advance, hexecuted]
    have htell := Goes.tellings (p := p.advance statements) hstate progress?
    rw [hexecuted', show (p.advance statements).total = total from htotal] at htell
    have hrest := ih (p := p.advance statements) hstate rfl hexecuted' htotal
    rw [follow_advance p statements statement rows x] at hrest
    have hall := Goes.cons (.submit hstate hqueue rows) (htell.append hrest)
    simpa [events, doneEvents, Course.step] using hall

/-- Where all has gone well nothing is left. -/
theorem Course.Of.rest_eq_nil {executed total : Int} {statements : List Text} {x : Course}
    (hx : x.Of progress? total executed statements) (h : x.ending.outcome p = .ok ()) :
    x.rest = [] ∧ x.ending.attempted = [] := by
  have hcomplete : x.ending = .complete := by
    cases hending : x.ending with
    | complete => rfl
    | interrupted failure | refused statement detail | broken statement failure =>
      rw [hending] at h
      cases h
  have hall : x.submitted = statements := hx.submitted_eq (hcomplete ▸ rfl)
  refine ⟨?_, hcomplete ▸ rfl⟩
  have hparts := hx.submitted_append_rest
  rw [hall] at hparts
  exact List.append_cancel_left (hparts.trans (List.append_nil _).symm)

/-- What a unit of work leaves of a pipeline: it is still running, and nothing is left of the queue
if all has gone well. -/
theorem unitOfWork_goes (b : Backend σ) (progress? : Option Progress) (hstate : p.state = .running)
    (c : σ) : ∃ y, Goes ⟨p, false⟩ (b.unitOfWork (drain b progress? p.queue) (c, p)).events y ∧
      (b.unitOfWork (drain b progress? p.queue) (c, p)).state.2 = y.pipeline ∧
      y.pipeline.state = .running ∧
      ((b.unitOfWork (drain b progress? p.queue) (c, p)).outcome = .ok () →
        y.pipeline.queue = [] ∧ y.failed = false) := by
  -- the same for the work itself, wherever it begins
  have hwork (c : σ) : ∃ y, Goes ⟨p, false⟩ (drain b progress? p.queue (c, p)).events y ∧
      (drain b progress? p.queue (c, p)).state.2 = y.pipeline ∧ y.pipeline.state = .running ∧
      ((drain b progress? p.queue (c, p)).outcome = .ok () →
        y.pipeline.queue = [] ∧ y.failed = false) := by
    obtain ⟨x, c', hx, hdrain, -⟩ := drain_apply b progress? hstate rfl c
    rw [hdrain]
    refine ⟨_, hx.goes hstate rfl rfl rfl, rfl, hstate, fun hok => ?_⟩
    obtain ⟨hrest, hattempted⟩ := hx.rest_eq_nil hok
    exact ⟨hrest, by rw [hattempted]; rfl⟩
  have hcontrol {control : Control} {answer : Except Failure Unit} {x : Moment}
      (hx : x.pipeline.state = .running) : Goes x [.controlled control answer] x :=
    .cons (.control hx control answer) (.nil x)
  generalize hr : b.unitOfWork (drain b progress? p.queue) (c, p) = r
  have hleaves : Backend.UnitLeaves (drain b progress? p.queue) p r :=
    hr ▸ Backend.unitOfWork_leaves b _ c p
  cases hleaves with
  | joined c => exact hwork c
  | unbegun c f => exact ⟨_, hcontrol hstate, rfl, hstate, nofun⟩
  | @ended c c' es hes =>
    obtain ⟨y, hgoes, hend, hrunning, hok⟩ := hwork c
    have hes' : ∀ e ∈ es, ∃ control answer, e = .controlled control answer := fun e he => by
      obtain ⟨control, rfl⟩ := hes e he
      exact ⟨control, _, rfl⟩
    exact ⟨y, (hcontrol hstate).append (hgoes.append (.controls hrunning hes')), hend, hrunning, hok⟩
  | unended c c' control f =>
    obtain ⟨y, hgoes, hend, hrunning, -⟩ := hwork c
    exact ⟨y, (hcontrol hstate).append (hgoes.append (hcontrol hrunning)), hend, hrunning, nofun⟩

/-- The state in which a run ends. -/
def finalState {α : Type} : Except Failure α → RunState
  | .ok _ => .succeeded
  | .error _ => .failed

/-- A run that begins is a unit of work, after which the state is set. -/
theorem run_apply {r : Record (σ × Pipeline) Unit} (hp : p.state = .pending)
    (hr : b.unitOfWork (drain b progress? p.queue) (c, p.begun) = r) :
    run b progress? (c, p) =
      ⟨unitResult r, (r.state.1, { r.state.2 with state := finalState r.outcome }),
        .logged (.phaseStarted p.phase b.name p.count) :: r.events ++
          (unitLog b r).map .logged⟩ := by
  rw [run_of_pending hp, Activity.bind_of_ok (Activity.attempt_apply _ _), hr]
  obtain ⟨outcome, ⟨c, q⟩, es⟩ := r
  cases outcome <;> rfl

/-- **A run goes from pending to the state that its outcome says.**  If it fails, that it does is not
seen as an event. -/
theorem run_goes (b : Backend σ) (progress? : Option Progress) (hp : p.state = .pending) (c : σ) :
    ∃ y, Goes ⟨p, false⟩ (run b progress? (c, p)).events y ∧
      (y.pipeline.state = finalState (run b progress? (c, p)).outcome ∨
        y.pipeline.state.Moves (finalState (run b progress? (c, p)).outcome)) ∧
      (run b progress? (c, p)).state.2 =
        { y.pipeline with state := finalState (run b progress? (c, p)).outcome } := by
  obtain ⟨y, hgoes, hend, hrunning, hok⟩ := unitOfWork_goes (p := p.begun) b progress? rfl c
  generalize hr : b.unitOfWork (drain b progress? p.begun.queue) (c, p.begun) = r at hgoes hend hok
  have hbegun : Goes ⟨p, false⟩ (.logged (.phaseStarted p.phase b.name p.count) :: r.events) y :=
    .cons (.begin hp b.name) hgoes
  rw [run_apply hp hr]
  obtain ⟨outcome, ⟨c', q⟩, es⟩ := r
  obtain rfl : q = y.pipeline := hend
  cases outcome with
  | ok _ =>
    obtain ⟨q, failed⟩ := y
    obtain ⟨hqueue, rfl⟩ := hok rfl
    exact ⟨_, hbegun.append (.cons (.succeed hrunning hqueue b.name) (.nil _)), .inl rfl, rfl⟩
  | error f => exact ⟨y, by simpa [unitLog] using hbegun, .inr (hrunning ▸ .fail), rfl⟩

/-! ## Further calls -/

/-- A pipeline that is not pending refuses to run. -/
theorem run_of_not_pending (b : Backend σ) (progress? : Option Progress)
    (hp : p.state ≠ .pending) (c : σ) : run b progress? (c, p) =
      ⟨.error (.fault (.notPending p.state)), (c, p), []⟩ := by
  have hcurrent : (current : Activity (σ × Pipeline) Pipeline) (c, p) = ⟨.ok p, (c, p), []⟩ := rfl
  have hrefusal : p.refusal? = some (.fault (.notPending p.state)) := by
    rw [refusal?]
    split
    · next hstate => exact absurd hstate hp
    · rfl
  rw [run_eq, Activity.bind_of_ok hcurrent, hrefusal]
  rfl

/-- Some calls on one pipeline, before each of which the caller uses the connection in some way. -/
def calls (b : Backend σ) (progress? : Option Progress) :
    List (σ → σ) → Activity (σ × Pipeline) (List (Except Failure Nat))
  | [] => return []
  | use :: uses => do
    Activity.modify fun (c, p) => (use c, p)
    let outcome ← (run b progress?).attempt
    return outcome :: (← calls b progress? uses)

theorem calls_cons {use : σ → σ} {r : Record (σ × Pipeline) Nat}
    (hr : run b progress? (use c, p) = r) {outcomes : List (Except Failure Nat)}
    {state : σ × Pipeline} {uses : List (σ → σ)}
    (huses : calls b progress? uses r.state = ⟨.ok outcomes, state, es⟩) :
    calls b progress? (use :: uses) (c, p) =
      ⟨.ok (r.outcome :: outcomes), state, r.events ++ es⟩ := by
  have huse : Activity.modify (fun s : σ × Pipeline => (use s.1, s.2)) (c, p) =
      ⟨.ok (), (use c, p), []⟩ := rfl
  rw [calls, Activity.bind_of_ok huse, Activity.bind_of_ok (Activity.attempt_apply _ _), hr,
    Activity.bind_of_ok huses]
  simp [Record.after, Activity.pure_apply]

/-- All calls on a pipeline that is not pending are refused. -/
theorem calls_of_not_pending (hp : p.state ≠ .pending) (uses : List (σ → σ)) (c : σ) :
    calls b progress? uses (c, p) =
      ⟨.ok (uses.map fun _ => .error (.fault (.notPending p.state))),
        (uses.foldl (fun c use => use c) c, p), []⟩ := by
  induction uses generalizing c with
  | nil => rfl
  | cons use uses ih =>
    exact calls_cons (run_of_not_pending b progress? hp (use c)) (ih (use c))

/-! ## Calls from the callback -/

/-- What a progress callback does, where each call of the pipeline that it is told of is one. -/
def reactCalling (call : Activity (σ × Pipeline) Nat) : Reaction → Activity (σ × Pipeline) Unit
  | .proceed => pure ()
  | .fail f => Activity.fail f
  | .runAgain afterRefusal => do
    match ← call.attempt with
    | .ok _ => pure ()
    | .error f => reactCalling call (afterRefusal f)

/-- On a running pipeline each such call is refused, and the callback goes on from there. -/
theorem reactCalling_apply (b : Backend σ) (progress? : Option Progress) (hp : p.state = .running)
    (reaction : Reaction) (c : σ) :
    reactCalling (run b progress?) reaction (c, p) = ⟨reaction.outcome, (c, p), []⟩ := by
  have hnot : p.state ≠ .pending := by simp [hp]
  induction reaction with
  | proceed => rfl
  | fail f => rfl
  | runAgain afterRefusal ih =>
    have hcall : (run b progress?).attempt (c, p) =
        ⟨.ok (.error (.fault (.notPending .running))), (c, p), []⟩ := by
      rw [Activity.attempt_apply, run_of_not_pending b progress? hnot, hp]
    rw [reactCalling, Activity.bind_of_ok hcall]
    exact congrArg (Record.after []) (ih _)

end Pipeline

/-- What a progress callback does, if each of its calls is taken for the refusal that it is. -/
def Reaction.answered : Reaction → Reaction
  | proceed => proceed
  | fail f => fail f
  | runAgain afterRefusal => (afterRefusal (.fault (.notPending .running))).answered

theorem Reaction.outcome_answered (reaction : Reaction) :
    reaction.answered.outcome = reaction.outcome := by
  induction reaction with
  | proceed => rfl
  | fail f => rfl
  | runAgain afterRefusal ih => exact ih _

/-- A callback that calls nothing. -/
def Progress.answered (progress : Progress) : Progress := fun current total =>
  (progress current total).answered

namespace Backend

variable {σ ρ α : Type} {b : Backend σ} {own : ρ}

/-- What work does elsewhere makes no difference to a unit of work. -/
theorem unitOfWork_congr {work work' : Activity (σ × ρ) α}
    (h : ∀ c, work (c, own) = work' (c, own)) (c : σ) :
    b.unitOfWork work (c, own) = b.unitOfWork work' (c, own) := by
  by_cases hfree : b.Free c
  · rw [unitOfWork_eq_transact hfree, unitOfWork_eq_transact hfree, transact_eq, transact_eq]
    rcases hstart : b.control .start c with ⟨f | ⟨⟩, c₁⟩
    · rw [Activity.bind_of_error (perform_apply hstart own),
        Activity.bind_of_error (perform_apply hstart own)]
    · rw [Activity.bind_of_ok (perform_apply hstart own),
        Activity.bind_of_ok (perform_apply hstart own),
        Activity.bind_of_ok (Activity.attempt_apply work _),
        Activity.bind_of_ok (Activity.attempt_apply work' _), h]
  · rw [unitOfWork_of_not_free hfree, unitOfWork_of_not_free hfree, h]

end Backend

namespace Pipeline

variable {σ : Type} {b : Backend σ} {p : Pipeline}

theorem report_answered (hp : p.state = .running) (progress? : Option Progress) (c : σ) :
    report (progress?.map Progress.answered) (c, p) = report progress? (c, p) := by
  rw [report_apply hp, report_apply hp]
  cases progress? with
  | none => rfl
  | some progress =>
    simp only [Option.map_some, told, tellings, Progress.answered, Reaction.outcome_answered]

theorem drain_answered (hp : p.state = .running) (progress? : Option Progress)
    (statements : List Text) (c : σ) :
    drain b (progress?.map Progress.answered) statements (c, p) =
      drain b progress? statements (c, p) := by
  induction statements generalizing c p with
  | nil => rfl
  | cons statement rest ih =>
    rcases hsubmit : b.submit statement c with ⟨failure | rows, c₁⟩
    · by_cases hf : ∃ detail, failure = .rejected detail
      · obtain ⟨detail, rfl⟩ := hf
        rw [drain_of_rejected hsubmit, drain_of_rejected hsubmit]
      · have hf : ∀ detail, failure ≠ .rejected detail := not_exists.mp hf
        rw [drain_of_broken hf hsubmit, drain_of_broken hf hsubmit]
    · rw [drain_of_ok hsubmit, drain_of_ok hsubmit]
      have hreport := report_apply (c := c₁) (p := p.advance rest) hp progress?
      have hanswered := (report_answered (p := p.advance rest) hp progress? c₁).trans hreport
      refine congrArg (Record.after _) ?_
      cases htold : told progress? (p.advance rest).executedInCall (p.advance rest).total with
      | error f =>
        rw [htold] at hreport hanswered
        rw [Activity.bind_of_error hreport, Activity.bind_of_error hanswered]
      | ok _ =>
        rw [htold] at hreport hanswered
        rw [Activity.bind_of_ok hreport, Activity.bind_of_ok hanswered,
          ih (p := p.advance rest) hp]

/-- **A run is the same if the calls from its callback are not made.** -/
theorem run_answered (b : Backend σ) (progress? : Option Progress) :
    run b (progress?.map Progress.answered) = run b progress? := by
  funext ⟨c, p⟩
  by_cases hp : p.state = .pending
  · have hunit : b.unitOfWork (drain b (progress?.map Progress.answered) p.queue) (c, p.begun) =
        b.unitOfWork (drain b progress? p.queue) (c, p.begun) :=
      Backend.unitOfWork_congr (drain_answered rfl progress? p.queue) c
    rw [run_apply hp rfl, run_apply hp rfl, hunit]
  · rw [run_of_not_pending b _ hp, run_of_not_pending b _ hp]

/-! ## The whole life -/

/-- What a pipeline's calls come to: `r` is the record of the first, in which the connection is `c`,
and `life` that of all, the caller using the connection in some way before each of the others. -/
structure RunsOnce (b : Backend σ) (progress? : Option Progress) (p : Pipeline) (c : σ)
    (others : List (σ → σ)) (r : Record (σ × Pipeline) Nat)
    (life : Record (σ × Pipeline) (List (Except Failure Nat))) : Prop where
  /-- The first call goes through the states one after the other, and at each moment of it the
  statements executed, those queued and the one that has failed are all there are. -/
  moves : ∃ path y, Path ⟨p, false⟩ path y ∧ path.map Prod.fst = r.events ∧
    (p.state :: states path ++ [r.state.2.state]).IsChain (fun s t => s = t ∨ s.Moves t) ∧
    ∀ e ∈ path, e.2.statements = p.queue.length
  /-- It ends in the state that its outcome says. -/
  ends : r.state.2.state = finalState r.outcome
  /-- A call of a pipeline that is not pending fails and changes nothing. -/
  refuses : ∀ c q, q.state ≠ .pending →
    run b progress? (c, q) = ⟨.error (.fault (.notPending q.state)), (c, q), []⟩
  /-- So do the calls that the callback makes of a running one. -/
  callback : ∀ c q reaction, q.state = .running →
    react reaction (c, q) = reactCalling (run b progress?) reaction (c, q)
  /-- The first call is therefore the same if these are not made. -/
  unmade : run b (progress?.map Progress.answered) (c, p) = r
  /-- All other calls are refused, and the rest of the life is the caller's own doing. -/
  later : life =
    ⟨.ok (r.outcome :: others.map fun _ => .error (.fault (.notPending r.state.2.state))),
      (others.foldl (fun c use => use c) r.state.1, r.state.2), r.events⟩
  /-- Each statement is submitted once, or is still queued. -/
  submitted : Trace.submissions life.events ++ life.state.2.queue = p.queue
  /-- The statements executed, those queued and the one that has failed are all there are. -/
  counted : life.state.2.executed + life.state.2.queue.length +
    (Trace.lastFails life.events).toNat = p.queue.length

/-- **Main.**  A pipeline runs at most once, whatever its calls are, and whatever the connection and
the callback do. -/
theorem runs_at_most_once (b : Backend σ) (progress? : Option Progress) (phase : Text)
    (statements : List Text) (offset : Int) (total? : Option Int) (c : σ) (use : σ → σ)
    (others : List (σ → σ)) :
    let p := start phase statements offset total?
    RunsOnce b progress? p (use c) others (run b progress? (use c, p))
      (calls b progress? (use :: others) (c, p)) := by
  intro p
  generalize hr : run b progress? (use c, p) = r
  obtain ⟨y, ⟨path, hpath, hevents⟩, hmoves, hend⟩ := run_goes (p := p) b progress? rfl (use c)
  rw [hr] at hevents hmoves hend
  have hstate : r.state.2.state = finalState r.outcome := congrArg Pipeline.state hend
  have hnot : r.state.2.state ≠ .pending := by
    rw [hstate]
    cases r.outcome <;> nofun
  have hlater : calls b progress? (use :: others) (c, p) = _ :=
    calls_cons hr (calls_of_not_pending hnot others r.state.1)
  rw [List.append_nil] at hlater
  obtain ⟨hmoments, hcount⟩ := hpath.statements_eq
  have hall : (⟨p, false⟩ : Moment).statements = statements.length := Nat.zero_add _
  obtain ⟨hchain, hlast⟩ := hpath.moves
  rw [hlater]
  constructor
  case moves =>
    refine ⟨path, y, hpath, hevents, ?_, fun e he => (hmoments e he).trans hall⟩
    refine List.isChain_append.mpr ⟨hchain, .singleton _, fun s hs t ht => ?_⟩
    obtain rfl : r.state.2.state = t := by simpa using ht
    obtain rfl : y.pipeline.state = s := by
      rw [← hlast]
      exact Option.some.inj ((List.getLast?_eq_some_getLast _).symm.trans hs)
    exact hstate ▸ hmoves
  case ends => exact hstate
  case refuses => exact fun c q hq => run_of_not_pending b progress? hq c
  case callback =>
    intro c q reaction hq
    rw [react_apply hq, reactCalling_apply b progress? hq]
  case unmade => rw [run_answered, hr]
  case later => rfl
  case submitted =>
    have hqueue := hpath.queue_eq
    rw [hevents] at hqueue
    rw [hend]
    exact hqueue.symm
  case counted =>
    have hfailed : y.failed = Trace.lastFails r.events := by
      rw [hpath.failed_eq, hevents]
      rfl
    rw [hend, ← hfailed]
    exact hcount.trans hall

end Pipeline
end SqlInterchange
