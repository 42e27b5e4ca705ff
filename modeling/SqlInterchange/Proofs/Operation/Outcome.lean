import SqlInterchange.Proofs.Operation.Refusals
import SqlInterchange.Proofs.Pipeline.Phases

/-! # One outcome

A request reports one outcome.  If its work has a result, the success callback is told of it once,
and of an import or a wipe it is the number of statements that the runs have executed, of which the
progress callback has counted each one.  If its work fails with an error, the error is logged once,
and given once to the error callback or, without one, to the caller.  If it fails with anything
else, nobody is told (`perform_reports_one_outcome`).  A callback that fails changes how the request
ends and nothing of this: what the success callback fails with is not reported again.

The reason is that work itself never reports, and that a run which ends well has executed all of its
statements one after the other.  `Trace.Ran` says this of a trace, whatever follows it, so that it
can be put together along the work.
-/
namespace SqlInterchange

/-! ## Readings of a report -/

namespace Event

/-- The result that the caller is told of. -/
def success? : Event → Option Success
  | succeeded result => some result
  | _ => none

/-- The error that the caller is told of. -/
def error? : Event → Option Error
  | failed error => some error
  | _ => none

/-- The operation that is logged as failed, and its error. -/
def loggedError? : Event → Option (Text × Error)
  | logged (.operationFailed operation error) => some (operation, error)
  | _ => none

/-- The statement that has succeeded. -/
def executed? : Event → Option Text
  | submitted statement (.ok _) => some statement
  | _ => none

/-- Whether an event is one of work that reads. -/
def isOfReading : Event → Bool
  | controlled .. | submitted .. => true
  | logged entry => entry.isRemark
  | _ => false

end Event

namespace Trace

/-- The calls of the success callback, in order. -/
def successes (es : List Event) : List Success := es.filterMap Event.success?

/-- The calls of the error callback, in order. -/
def errors (es : List Event) : List Error := es.filterMap Event.error?

/-- The failed operations in the log, in order. -/
def loggedErrors (es : List Event) : List (Text × Error) := es.filterMap Event.loggedError?

/-- The statements that runs have executed, in a trace that begins in a run or not. -/
def executedFrom : Bool → List Event → List Text
  | _, [] => []
  | inRun, e :: es =>
    (if inRun then e.executed?.toList else []) ++ executedFrom (e.runs?.getD inRun) es

/-- The statements that runs have executed, in order. -/
def executed (es : List Event) : List Text := executedFrom false es

/-- Whether runs have executed these statements in a trace, which has ended in none of them, and
the caller was told this of progress. -/
structure Ran (es : List Event) (statements : List Text) (calls : List (Int × Int)) : Prop where
  executed : ∀ rest, executed (es ++ rest) = statements ++ Trace.executed rest
  calls : progressCalls es = calls

variable {es fs : List Event}

theorem successes_append (es fs : List Event) :
    successes (es ++ fs) = successes es ++ successes fs :=
  List.filterMap_append

theorem errors_append (es fs : List Event) : errors (es ++ fs) = errors es ++ errors fs :=
  List.filterMap_append

theorem loggedErrors_append (es fs : List Event) :
    loggedErrors (es ++ fs) = loggedErrors es ++ loggedErrors fs :=
  List.filterMap_append

/-- Whether a trace tells nobody of an outcome. -/
structure Untold (es : List Event) : Prop where
  successes : successes es = []
  errors : errors es = []
  loggedErrors : loggedErrors es = []

theorem Unreported.errors_eq (h : Unreported es) : errors es = [] := by
  refine List.filterMap_eq_nil_iff.mpr fun e he => ?_
  have hreport := h e he
  cases e with
  | failed error => cases hreport
  | controlled _ _ | submitted _ _ | progressed _ _ | succeeded _ | logged _ => rfl

theorem Unreported.loggedErrors_eq (h : Unreported es) : loggedErrors es = [] := by
  refine List.filterMap_eq_nil_iff.mpr fun e he => ?_
  have hreport := h e he
  unfold Event.loggedError?
  split
  · cases hreport
  · rfl

/-- Nothing is executed by events that are of no statement. -/
theorem Remarks.executed_eq (h : Remarks es) : executed es = [] := by
  have hfrom (inRun : Bool) : executedFrom inRun es = [] := by
    induction es generalizing inRun with
    | nil => rfl
    | cons e es ih =>
      obtain ⟨he, hes⟩ := List.forall_mem_cons.mp h
      have hexecuted : e.executed? = none := by
        cases e with
        | submitted statement answer => cases he.1
        | controlled _ _ | progressed _ _ | succeeded _ | failed _ | logged _ => rfl
      rw [executedFrom, hexecuted, ih hes]
      split <;> rfl
  exact hfrom false

/-- Events of transactions change nothing of what is executed. -/
theorem executedFrom_controlled_append (inRun : Bool)
    (h : ∀ e ∈ es, ∃ control, e = .controlled control (.ok ())) (rest : List Event) :
    executedFrom inRun (es ++ rest) = executedFrom inRun rest := by
  induction es with
  | nil => rfl
  | cons e es ih =>
    obtain ⟨⟨control, rfl⟩, hes⟩ := List.forall_mem_cons.mp h
    rw [List.cons_append, executedFrom, ← ih hes]
    cases inRun <;> rfl

theorem progressCalls_controlled (h : ∀ e ∈ es, ∃ control, e = .controlled control (.ok ())) :
    progressCalls es = [] := by
  refine List.filterMap_eq_nil_iff.mpr fun e he => ?_
  obtain ⟨control, rfl⟩ := h e he
  rfl

namespace Ran

variable {xs ys : List Text} {cs ds : List (Int × Int)}

theorem append (hes : Ran es xs cs) (hfs : Ran fs ys ds) :
    Ran (es ++ fs) (xs ++ ys) (cs ++ ds) where
  executed rest := by rw [List.append_assoc, hes.executed, hfs.executed, List.append_assoc]
  calls := by rw [progressCalls_append, hes.calls, hfs.calls]

/-- What reads is not in a run, so it executes nothing. -/
theorem of_reading (h : ∀ e ∈ es, e.isOfReading = true) : Ran es [] [] := by
  have hread {e : Event} (he : e.isOfReading = true) : e.runs? = none ∧ e.progress? = none := by
    cases e with
    | controlled _ _ | submitted _ _ => exact ⟨rfl, rfl⟩
    | progressed _ _ | succeeded _ | failed _ => cases he
    | logged entry =>
      -- a run begins and ends with entries that are no remarks
      cases entry with
      | phaseStarted _ _ _ | phaseFinished _ _ _ => cases he
      | _ => exact ⟨rfl, rfl⟩
  refine ⟨fun rest => ?_, List.filterMap_eq_nil_iff.mpr fun e he => (hread (h e he)).2⟩
  induction es with
  | nil => rfl
  | cons e es ih =>
    obtain ⟨he, hes⟩ := List.forall_mem_cons.mp h
    rw [List.cons_append, Trace.executed, executedFrom, (hread he).1]
    exact ih hes

theorem nil : Ran [] [] [] := ⟨fun _ => rfl, rfl⟩

end Ran
end Trace

/-! ## Units of work -/

variable {σ ρ α : Type} {b : Backend σ} {progress? : Option Progress}

namespace Backend

variable {c : σ} {own : ρ} {work : Activity (σ × ρ) α}

/-- What holds of the events of work and of those of transactions holds of a unit of work. -/
theorem forall_events_unitOfWork {P : Event → Prop}
    (hcontrol : ∀ control answer, P (.controlled control answer))
    (hwork : ∀ c, ∀ e ∈ (work (c, own)).events, P e) :
    ∀ e ∈ (b.unitOfWork work (c, own)).events, P e := by
  have hwithin (c : σ) {es : List Event} (hes : ∀ e ∈ es, P e) :
      ∀ e ∈ .controlled .start (.ok ()) :: ((work (c, own)).events ++ es), P e :=
    List.forall_mem_cons.mpr ⟨hcontrol _ _, List.forall_mem_append.mpr ⟨hwork c, hes⟩⟩
  generalize hr : b.unitOfWork work (c, own) = r
  have hleaves : UnitLeaves work own r := hr ▸ unitOfWork_leaves b work c own
  cases hleaves with
  | joined c => exact hwork c
  | unbegun c f => exact List.forall_mem_singleton.mpr (hcontrol _ _)
  | ended c c' hes =>
    refine hwithin c fun e he => ?_
    obtain ⟨control, rfl⟩ := hes e he
    exact hcontrol _ _
  | unended c c' control f => exact hwithin c (List.forall_mem_singleton.mpr (hcontrol _ _))

/-- A unit of work that ends well is its work, which has ended well, between the beginning and the
end of a transaction. -/
theorem unitOfWork_of_ok {a : α} (h : (b.unitOfWork work (c, own)).outcome = .ok a) :
    ∃ c₁ before behind, (work (c₁, own)).outcome = .ok a ∧
      (b.unitOfWork work (c, own)).state.2 = (work (c₁, own)).state.2 ∧
      (b.unitOfWork work (c, own)).events = before ++ ((work (c₁, own)).events ++ behind) ∧
      (∀ e ∈ before, ∃ control, e = .controlled control (.ok ())) ∧
      ∀ e ∈ behind, ∃ control, e = .controlled control (.ok ()) := by
  generalize hr : b.unitOfWork work (c, own) = r at h
  have hleaves : UnitLeaves work own r := hr ▸ unitOfWork_leaves b work c own
  cases hleaves with
  | joined c =>
    exact ⟨c, [], [], h, rfl, (List.append_nil _).symm, (fun e he => nomatch he),
      fun e he => nomatch he⟩
  | unbegun c f => cases h
  | ended c c' hes =>
    exact ⟨c, [_], _, h, rfl, rfl, fun e he => ⟨.start, List.mem_singleton.mp he⟩, hes⟩
  | unended c c' control f => cases h

end Backend

/-- What holds of the events of each part holds of a sequence. -/
theorem Activity.forall_events_bind {S β : Type} {P : Event → Prop} {p : Activity S α}
    {k : α → Activity S β} {s : S} (hp : ∀ e ∈ (p s).events, P e)
    (hk : ∀ a s', ∀ e ∈ (k a s').events, P e) : ∀ e ∈ ((p >>= k) s).events, P e := by
  rcases hps : p s with ⟨f | a, s', es⟩ <;> rw [hps] at hp
  · rw [bind_of_error hps]
    exact hp
  · rw [bind_of_ok hps]
    exact List.forall_mem_append.mpr ⟨hp, hk a s'⟩

theorem Walk.Reading.events_isOfReading {work : Activity (σ × ρ) α} (h : Reading b α work)
    (s : σ × ρ) : ∀ e ∈ (work s).events, e.isOfReading = true := by
  induction h generalizing s with
  | pure a => exact fun e he => nomatch he
  | fault f => exact fun e he => nomatch he
  | remark entries h =>
    intro e he
    obtain ⟨entry, hentry, rfl⟩ := List.mem_map.mp he
    exact h entry hentry
  | ask statement =>
    rw [show s = (s.1, s.2) from rfl, ask_apply]
    exact List.forall_mem_singleton.mpr rfl
  | bind hp hk ihp ihk => exact Activity.forall_events_bind (ihp s) ihk

theorem Walk.Reading.events_unitOfWork {work : Activity (σ × ρ) α} (h : Reading b α work)
    (s : σ × ρ) : ∀ e ∈ (b.unitOfWork work s).events, e.isOfReading = true :=
  Backend.forall_events_unitOfWork (fun _ _ => rfl) fun c => h.events_isOfReading (c, s.2)

/-! ## Runs -/

namespace Pipeline

theorem Course.events_success? (progress? : Option Progress) (total executed : Int) (x : Course) :
    ∀ e ∈ x.events progress? total executed, e.success? = none := by
  have hdone : ∀ e ∈ doneEvents progress? total executed x.done, e.success? = none := by
    induction x.done generalizing executed with
    | nil => exact fun e he => nomatch he
    | cons d done ih =>
      refine List.forall_mem_append.mpr ⟨List.forall_mem_cons.mpr ⟨rfl, fun e he => ?_⟩, ih _⟩
      cases progress? with
      | none => cases he
      | some progress =>
        rw [List.mem_singleton.mp he]
        rfl
  refine List.forall_mem_append.mpr ⟨hdone, fun e he => ?_⟩
  cases hending : x.ending <;> simp only [hending, Ending.events, List.not_mem_nil,
    List.mem_singleton] at he
  all_goals
    rw [he]
    rfl

/-- In a run, the statements done are those executed. -/
theorem Course.executedFrom_doneEvents (total executed : Int) (done : List (Text × List Row))
    (rest : List Event) :
    Trace.executedFrom true (doneEvents progress? total executed done ++ rest) =
      done.map Prod.fst ++ Trace.executedFrom true rest := by
  induction done generalizing executed with
  | nil => rfl
  | cons d done ih =>
    have htold (es : List Event) : Trace.executedFrom true
        (tellings progress? (executed + 1) total ++ es) = Trace.executedFrom true es := by
      cases progress? <;> rfl
    show d.1 :: Trace.executedFrom true (_ ++ _ ++ rest) = _
    rw [List.append_assoc, htold, ih]
    rfl

theorem complete_of_outcome {x : Course} {p : Pipeline} (h : x.ending.outcome p = .ok ()) :
    x.ending = .complete := by
  cases hending : x.ending with
  | complete => rfl
  | interrupted | refused | broken =>
    rw [hending] at h
    cases h

theorem events_success? {p : Pipeline} (hp : p.state = .pending) (s : σ × ρ) :
    ∀ e ∈ (runFresh b progress? p s).events, e.success? = none := by
  have hunit : ∀ e ∈ (b.unitOfWork (drain b progress? p.queue) (s.1, p.begun)).events,
      e.success? = none := by
    refine Backend.forall_events_unitOfWork (fun _ _ => rfl) fun c => ?_
    obtain ⟨x, c', -, hdrain, -⟩ := drain_apply b progress? (p := p.begun) rfl rfl c
    rw [show p.queue = p.begun.queue from rfl, hdrain]
    exact x.events_success? progress? p.total p.executedInCall
  rw [show s = (s.1, s.2) from rfl, runFresh_apply hp rfl s.2]
  refine List.forall_mem_append.mpr ⟨List.forall_mem_cons.mpr ⟨rfl, hunit⟩, fun e he => ?_⟩
  obtain ⟨entry, -, rfl⟩ := List.mem_map.mp he
  rfl

/-- **Main (runs).** A run that ends well has executed its statements and told of each, and answers
how many they are. -/
theorem ran_runFresh {p : Pipeline} (hp : p.state = .pending) {s : σ × ρ} {n : Nat}
    (h : (runFresh b progress? p s).outcome = .ok n) :
    n = p.executed + p.queue.length ∧ Trace.Ran (runFresh b progress? p s).events p.queue
      (Course.callsFrom progress? p.total p.executedInCall p.queue.length) := by
  generalize hr : b.unitOfWork (drain b progress? p.queue) (s.1, p.begun) = r
  have hrun : runFresh b progress? p s = _ := runFresh_apply hp hr s.2
  rw [hrun] at h ⊢
  cases houtcome : r.outcome with
  | error f => cases (unitResult_of_error houtcome).symm.trans h
  | ok _ =>
    obtain ⟨c₁, before, behind, hwork, hown, hevents, hbefore, hbehind⟩ :=
      Backend.unitOfWork_of_ok (hr ▸ houtcome)
    obtain ⟨x, c', hx, hdrain, -⟩ := drain_apply b progress? (p := p.begun) rfl rfl c₁
    rw [show p.begun.queue = p.queue from rfl] at hdrain hx
    rw [hr, hdrain] at hown hevents
    have hcomplete : x.ending = .complete := complete_of_outcome (hdrain ▸ hwork)
    obtain ⟨hlength, -⟩ := hx.isComplete_iff.mp (hcomplete ▸ rfl)
    have hdone : x.done.map Prod.fst = p.queue := by
      rw [hx.done_eq_take, hlength, List.take_length]
    have hcourse : x.events progress? p.total p.executedInCall =
        Course.doneEvents progress? p.total p.executedInCall x.done := by
      rw [Course.events, hcomplete]
      exact List.append_nil _
    refine ⟨?_, fun rest => ?_, ?_⟩
    · rw [unitResult, houtcome] at h
      rw [← Except.ok.inj h, hown, ← hlength]
      rfl
    · -- the transaction makes no difference, and the run has ended behind it
      have hlog : unitLog b r = [.phaseFinished r.state.2.phase b.name r.state.2.executed] := by
        rw [unitLog, houtcome]
      show Trace.executedFrom true (r.events ++ (unitLog b r).map .logged ++ rest) = _
      rw [hevents, List.append_assoc, List.append_assoc, List.append_assoc,
        Trace.executedFrom_controlled_append true hbefore]
      show Trace.executedFrom true (x.events progress? p.total p.executedInCall ++ _) = _
      rw [hcourse, Course.executedFrom_doneEvents, hdone,
        Trace.executedFrom_controlled_append true hbehind, hlog]
      rfl
    · have hfinal := (Trace.remarks_logged (unitLog b r)).progressCalls_eq
      show Trace.progressCalls (r.events ++ _) = _
      rw [Trace.progressCalls_append, hfinal, hevents, Trace.progressCalls_append,
        Trace.progressCalls_append, Trace.progressCalls_controlled hbefore,
        Trace.progressCalls_controlled hbehind, List.nil_append, List.append_nil, List.append_nil,
        ← hlength]
      exact Course.progressCalls_events

/-- Two runs of a document that end well have executed its statements and told of each. -/
theorem ran_runBoth {compiled : Compiled} {s : σ × ρ} {n : Nat}
    (h : (runBoth b progress? compiled s).outcome = .ok n) :
    n = compiled.total ∧ Trace.Ran (runBoth b progress? compiled s).events compiled.statements
      (Course.callsFrom progress? compiled.total 0 compiled.total) := by
  rw [runBoth_eq] at h ⊢
  obtain ⟨m, s', es, hmain, hrest⟩ := Activity.exists_of_bind_ok h
  obtain ⟨hm, hran⟩ := ran_runFresh (p := mainPhase compiled) rfl (congrArg Record.outcome hmain)
  obtain rfl : m = compiled.main.length := hm.trans (Nat.zero_add _)
  rw [hmain, executedInCall_mainPhase] at hran
  rw [Activity.bind_of_ok hmain]
  by_cases hdeferred : compiled.deferred = []
  · -- the main statements are all
    rw [if_pos (List.isEmpty_iff.mpr hdeferred)] at hrest ⊢
    have htotal : compiled.total = compiled.main.length := by simp [Compiled.total, hdeferred]
    have hcalls := congrArg (Course.callsFrom progress? compiled.total 0) htotal
    refine ⟨(Except.ok.inj hrest).symm.trans htotal.symm, ?_⟩
    rw [hcalls, Compiled.statements, hdeferred, List.append_nil, Record.after, Activity.pure_apply,
      List.append_nil]
    exact hran
  · -- the count goes on from the main statements to the deferred ones
    rw [if_neg (mt List.isEmpty_iff.mp hdeferred), ← deferredPhase] at hrest ⊢
    obtain ⟨k, s'', es', hsecond, hlast⟩ := Activity.exists_of_bind_ok hrest
    obtain ⟨hk, hran'⟩ :=
      ran_runFresh (p := deferredPhase compiled) rfl (congrArg Record.outcome hsecond)
    obtain rfl : k = compiled.deferred.length := hk.trans (Nat.zero_add _)
    rw [hsecond, executedInCall_deferredPhase] at hran'
    have hcalls : Course.callsFrom progress? compiled.total 0 compiled.total =
        Course.callsFrom progress? compiled.total 0 compiled.main.length ++
          Course.callsFrom progress? compiled.total compiled.main.length
            compiled.deferred.length := by
      rw [Compiled.total, Course.callsFrom_append, Int.zero_add]
    refine ⟨(Except.ok.inj hlast).symm, ?_⟩
    rw [hcalls, Activity.bind_of_ok hsecond, Record.after, Record.after, Activity.pure_apply,
      List.append_nil]
    exact hran.append hran'

end Pipeline

/-! ## Requests -/

namespace Operation

variable {reads : Prop}

/-- Conducted work tells of no result. -/
theorem Conducted.events_success? {work : Activity (σ × ρ) α}
    (h : Conducted b progress? reads α work) (s : σ × ρ) :
    ∀ e ∈ (work s).events, e.success? = none := by
  induction h generalizing s with
  | pure a => exact fun e he => nomatch he
  | fail f hf => exact fun e he => nomatch he
  | log entries h =>
    intro e he
    obtain ⟨entry, -, rfl⟩ := List.mem_map.mp he
    rfl
  | read h hwork =>
    intro e he
    have hread := hwork.events_unitOfWork s e he
    cases e with
    | succeeded result => cases hread
    | controlled _ _ | submitted _ _ | progressed _ _ | failed _ | logged _ => rfl
  | run phase statements offset total? => exact Pipeline.events_success? rfl s
  | bind hp hk ihp ihk => exact Activity.forall_events_bind (ihp s) ihk

namespace Request

/-- Whether a result is what an operation answers whose runs have executed these statements: if it
is a wipe or an import, it counts them, and an export has none. -/
def Answers (executed : List Text) : Request → Success → Prop
  | importScript _, .executed n | importDocument _, .executed n | wipe, .executed n =>
    n = executed.length
  | exportScript, .script _ | exportDocument, .document _ => executed = []
  | _, _ => False

end Request

/-- What the caller is told of progress when so many statements are executed in all. -/
def countTo (progress? : Option Progress) (n : Nat) : List (Int × Int) :=
  if progress?.isSome then (List.range n).map fun i : Nat => ((i : Int) + 1, (n : Int)) else []

theorem countTo_zero : countTo progress? 0 = [] := ite_self _

theorem callsFrom_eq_countTo (n : Nat) :
    Pipeline.Course.callsFrom progress? n 0 n = countTo progress? n := by
  cases progress? with
  | none => rfl
  | some progress => simp [Pipeline.Course.callsFrom, countTo]

/-- Whether work that ends well answers how many statements its runs have executed, and has told of
each. -/
def CountsRun {S : Type} (progress? : Option Progress) (r : Record S Nat) : Prop :=
  ∀ n, r.outcome = .ok n → ∃ statements : List Text, statements.length = n ∧
    Trace.Ran r.events statements (countTo progress? n)

namespace CountsRun

theorem zero (s : σ × ρ) : CountsRun progress? ((pure 0 : Activity (σ × ρ) Nat) s) := by
  intro n hn
  obtain rfl : 0 = n := Except.ok.inj hn
  exact ⟨[], rfl, countTo_zero.symm ▸ .nil⟩

theorem runFresh (b : Backend σ) (phase : Text) (statements : List Text) (s : σ × ρ) :
    CountsRun progress?
      (Pipeline.runFresh b progress? (.start phase statements 0 none) s) := by
  intro n hn
  obtain ⟨hlength, hran⟩ := Pipeline.ran_runFresh rfl hn
  obtain rfl : n = statements.length := hlength.trans (Nat.zero_add _)
  have htotal : (Pipeline.start phase statements 0 none).total = statements.length := Int.zero_add _
  rw [htotal, Pipeline.executedInCall_start] at hran
  exact ⟨statements, rfl, (callsFrom_eq_countTo statements.length) ▸ hran⟩

theorem runBoth (b : Backend σ) (compiled : Compiled) (s : σ × ρ) :
    CountsRun progress? (Pipeline.runBoth b progress? compiled s) := by
  intro n hn
  obtain ⟨rfl, hran⟩ := Pipeline.ran_runBoth hn
  rw [callsFrom_eq_countTo] at hran
  exact ⟨compiled.statements, List.length_append, hran⟩

/-- Reading before the runs makes no difference. -/
theorem of_reading {p : Activity (σ × ρ) α} {k : α → Activity (σ × ρ) Nat} {s : σ × ρ}
    (hp : ∀ e ∈ (p s).events, e.isOfReading = true) (hk : ∀ a s', CountsRun progress? (k a s')) :
    CountsRun progress? ((p >>= k) s) := by
  rcases hps : p s with ⟨f | a, s', es⟩ <;> rw [hps] at hp
  · rw [Activity.bind_of_error hps]
    exact fun n hn => nomatch hn
  · rw [Activity.bind_of_ok hps]
    intro n hn
    obtain ⟨statements, hlength, hran⟩ := hk a s' n hn
    exact ⟨statements, hlength, (Trace.Ran.of_reading hp).append hran⟩

/-- The count is the result that the caller is told of. -/
theorem executed {work : Activity (σ × ρ) Nat} {s : σ × ρ} (hwork : CountsRun progress? (work s))
    {success : Success}
    (h : ((work >>= fun n => pure (.executed n)) s).outcome = .ok success) :
    ∃ statements, success = .executed statements.length ∧
      Trace.Ran ((work >>= fun n => pure (Success.executed n)) s).events statements
        (countTo progress? statements.length) := by
  obtain ⟨n, s', es, hn, hsuccess⟩ := Activity.exists_of_bind_ok h
  obtain ⟨statements, rfl, hran⟩ := hwork n (congrArg Record.outcome hn)
  rw [Activity.map_apply]
  exact ⟨statements, (Except.ok.inj hsuccess).symm, hran⟩

end CountsRun

/-- Work that only reads has executed nothing. -/
theorem ran_of_reading {β : Type} {work : Activity (σ × ρ) β} {f : β → Success} {s : σ × ρ}
    (hwork : ∀ e ∈ (work s).events, e.isOfReading = true) {success : Success}
    (h : ((work >>= fun a => pure (f a)) s).outcome = .ok success) :
    (∃ a, success = f a) ∧
      Trace.Ran ((work >>= fun a => pure (f a)) s).events [] (countTo progress? 0) := by
  obtain ⟨a, s', es, -, hsuccess⟩ := Activity.exists_of_bind_ok h
  rw [Activity.map_apply, countTo_zero]
  exact ⟨⟨a, (Except.ok.inj hsuccess).symm⟩, .of_reading hwork⟩

/-- Compiling a document remarks on it and does nothing else. -/
theorem events_compiled (scope : Scope) (source : Source) (s : σ × ρ) :
    ∀ e ∈ (compiled scope source s).events, e.isOfReading = true := by
  cases hd : Document.parse source with
  | error refusal =>
    have hparsed : (parsed source : Activity (σ × ρ) Document) s =
        ⟨.error refusal.toFailure, s, []⟩ := by
      rw [parsed, hd]
      rfl
    rw [compiled, Activity.bind_of_error hparsed]
    exact fun e he => absurd he List.not_mem_nil
  | ok d =>
    rw [compiled_apply hd]
    intro e he
    obtain ⟨entry, hentry, rfl⟩ := List.mem_map.mp he
    exact d.isRemark_compileLog scope entry hentry

/-- An export reads and remarks, whatever it makes of what it has read. -/
theorem events_export (b : Backend σ) (o : Options) {remarks : Remarks} (hremarks : remarks.Apart)
    {β : Type} (count : Snapshot → Nat) (make : Snapshot → β) (s : σ × ρ) :
    ∀ e ∈ ((Walk.snapshot b o remarks >>= fun x =>
      Walk.finish x (count x) >>= fun _ => pure (make x)) s).events, e.isOfReading = true :=
  Activity.forall_events_bind ((Walk.reading_gather o hremarks).events_unitOfWork s) fun _ _ =>
    Activity.forall_events_bind (List.forall_mem_singleton.mpr rfl) fun _ _ _ he => nomatch he

/-- **Run.** Work that has a result has executed statements and told of each, and the result is
what the operation answers. -/
theorem ran_work (call : Call σ) (b : Backend σ) (q : Request) {s : σ × ρ} {success : Success}
    (h : (q.work call b s).outcome = .ok success) :
    ∃ statements, q.Answers statements success ∧
      Trace.Ran (q.work call b s).events statements
        (countTo call.callbacks.progress? statements.length) := by
  cases q with
  | importScript script =>
    obtain ⟨statements, rfl, hran⟩ := (CountsRun.runFresh b _ _ s).executed h
    exact ⟨statements, rfl, hran⟩
  | importDocument source =>
    obtain ⟨statements, rfl, hran⟩ :=
      (CountsRun.of_reading (events_compiled _ source s) fun c s' => .runBoth b c s').executed h
    exact ⟨statements, rfl, hran⟩
  | exportScript =>
    obtain ⟨⟨x, rfl⟩, hran⟩ :=
      ran_of_reading (events_export b call.options Remarks.apart_forScript _ (·.toScript) s) h
    exact ⟨[], rfl, hran⟩
  | exportDocument =>
    obtain ⟨⟨x, rfl⟩, hran⟩ :=
      ran_of_reading (events_export b call.options Remarks.apart_forDocument _ _ s) h
    exact ⟨[], rfl, hran⟩
  | wipe =>
    have hdrops : ∀ e ∈ (Walk.drops b call.options s).events, e.isOfReading = true :=
      Walk.Reading.events_unitOfWork (.bind (Walk.reading_catalog _) fun _ => .pure _) s
    have hrest (drops : List Text) (s' : σ × ρ) : CountsRun call.callbacks.progress?
        ((if drops.isEmpty then pure 0
          else Pipeline.runFresh b call.callbacks.progress?
            (.start "wipe".toList drops 0 none) : Activity (σ × ρ) Nat) s') := by
      split
      · exact .zero s'
      · exact .runFresh b _ drops s'
    obtain ⟨statements, rfl, hran⟩ := (CountsRun.of_reading hdrops hrest).executed h
    exact ⟨statements, rfl, hran⟩

/-! ## Reports -/

/-- Whether a request reports a result, and nothing else. -/
structure Completes {S : Type} (q : Request) (callbacks : Callbacks) (success : Success)
    (r : Record S (Option Success)) : Prop where
  /-- The success callback is called once. -/
  successes : Trace.successes r.events = if callbacks.success?.isSome then [success] else []
  errors : Trace.errors r.events = []
  loggedErrors : Trace.loggedErrors r.events = []
  /-- The result is that of the runs. -/
  answers : q.Answers (Trace.executed r.events) success
  /-- The progress callback has counted the statements that the runs have executed. -/
  progress : Trace.progressCalls r.events =
    countTo callbacks.progress? (Trace.executed r.events).length
  /-- The same result is returned, or else the success callback fails. -/
  outcome : r.outcome =
    match callbacks.success?.bind (· success) with
    | none => .ok (some success)
    | some f => .error f

/-- Whether a request reports an error, and nothing else. -/
structure Errs {S : Type} (q : Request) (callbacks : Callbacks) (e : Error)
    (r : Record S (Option Success)) : Prop where
  successes : Trace.successes r.events = []
  /-- The error callback is called once, with the error. -/
  errors : Trace.errors r.events = if callbacks.error?.isSome then [e] else []
  /-- The error is logged once. -/
  loggedErrors : Trace.loggedErrors r.events = [(q.name.toList, e)]
  /-- The error callback takes the error or fails; without one, the caller gets it. -/
  outcome : r.outcome =
    match callbacks.error? with
    | none => .error (.error e)
    | some callback => ((callback e).map .error).getD (.ok none)

/-- Whether a request reports nothing, and ends with the failure of its work. -/
structure Propagates {S : Type} (f : Failure) (r : Record S (Option Success)) : Prop where
  successes : Trace.successes r.events = []
  errors : Trace.errors r.events = []
  loggedErrors : Trace.loggedErrors r.events = []
  outcome : r.outcome = .error f

/-- Whether a request reports the outcome of its work, once. -/
inductive ReportsOnce {S : Type} (q : Request) (callbacks : Callbacks)
    (r : Record S (Option Success)) : Except Failure Success → Prop
  | completed {success : Success} (h : Completes q callbacks success r) :
    ReportsOnce q callbacks r (.ok success)
  | erred {e : Error} (h : Errs q callbacks e r) : ReportsOnce q callbacks r (.error (.error e))
  | broken {f : Failure} (hf : ∀ e, f ≠ .error e) (h : Propagates f r) :
    ReportsOnce q callbacks r (.error f)

variable {es : List Event} {callbacks : Callbacks} {q : Request} {state : σ × ρ}

/-- A verdict on a result reports it. -/
theorem completes_verdict (hes : Trace.Untold es) {success : Success} {statements : List Text}
    (hanswers : q.Answers statements success)
    (hran : Trace.Ran es statements (countTo callbacks.progress? statements.length)) :
    let v := verdict q.name callbacks id (.ok success)
    Completes q callbacks success ⟨v.2, state, es ++ v.1⟩ := by
  intro v
  have hremarks : Trace.Remarks v.1 := remarks_verdict q.name callbacks id (.ok success)
  have hexecuted : Trace.executed (es ++ v.1) = statements := by
    rw [hran.executed, hremarks.executed_eq, List.append_nil]
  obtain ⟨success?, error?, progress?⟩ := callbacks
  constructor
  case successes =>
    rw [Trace.successes_append, hes.successes]
    cases success? <;> rfl
  case errors =>
    rw [Trace.errors_append, hes.errors]
    cases success? <;> rfl
  case loggedErrors =>
    rw [Trace.loggedErrors_append, hes.loggedErrors]
    cases success? <;> rfl
  case answers => exact hexecuted.symm ▸ hanswers
  case progress =>
    rw [hexecuted, Trace.progressCalls_append, hran.calls, hremarks.progressCalls_eq,
      List.append_nil]
  case outcome =>
    cases success? with
    | none => rfl
    | some callback => cases hf : callback success <;> simp [v, verdict, hf]

/-- A verdict on an error reports it. -/
theorem errs_verdict (hes : Trace.Untold es) (e : Error) :
    let v := verdict q.name callbacks id (.error (.error e) : Except Failure Success)
    Errs q callbacks e ⟨v.2, state, es ++ v.1⟩ := by
  intro v
  obtain ⟨success?, error?, progress?⟩ := callbacks
  constructor
  case successes =>
    rw [Trace.successes_append, hes.successes]
    cases error? <;> rfl
  case errors =>
    rw [Trace.errors_append, hes.errors]
    cases error? <;> rfl
  case loggedErrors =>
    rw [Trace.loggedErrors_append, hes.loggedErrors]
    cases error? <;> rfl
  case outcome => cases error? <;> rfl

/-- A verdict on what is neither passes it on. -/
theorem propagates_verdict (hes : Trace.Untold es) {f : Failure} (hf : ∀ e, f ≠ .error e) :
    let v := verdict q.name callbacks id (.error f : Except Failure Success)
    Propagates f ⟨v.2, state, es ++ v.1⟩ := by
  intro v
  have hv : v = ([], .error f) := by
    cases f with
    | error e => exact absurd rfl (hf e)
    | rejected detail => rfl
    | fault f => rfl
  rw [hv, List.append_nil]
  exact ⟨hes.successes, hes.errors, hes.loggedErrors, rfl⟩

/-- The work of a request tells nobody of its outcome, and answers what its runs have executed. -/
theorem work_of_request (call : Call σ) (q : Request) (s : σ × ρ) :
    let r := (backend call >>= q.work call) s
    Trace.Untold r.events ∧ ∀ success, r.outcome = .ok success →
      ∃ statements, q.Answers statements success ∧
        Trace.Ran r.events statements (countTo call.callbacks.progress? statements.length) := by
  intro r
  cases hb : call.registry.adapt call.handle with
  | error e =>
    have hr : r = ⟨.error (.error e), s, []⟩ := backend_of_error hb _ s
    rw [hr]
    exact ⟨⟨rfl, rfl, rfl⟩, fun success h => nomatch h⟩
  | ok b =>
    have hr : r = q.work call b s := backend_bind_apply hb _ s
    rw [hr]
    have hwork := conducted_work (ρ := ρ) call b q
    have hreported := (hwork.ends s).unreported
    exact ⟨⟨List.filterMap_eq_nil_iff.mpr (hwork.events_success? s), hreported.errors_eq,
      hreported.loggedErrors_eq⟩, fun success h => ran_work call b q h⟩

/-- **Main: one outcome.**  Whatever the backend and the callbacks do, a request reports the outcome
of its work once, by the callback for it if there is one, and an error also in the log. -/
theorem perform_reports_one_outcome (call : Call σ) (q : Request) (s : σ × ρ) :
    ReportsOnce q call.callbacks (q.perform call s) ((backend call >>= q.work call) s).outcome := by
  obtain ⟨huntold, hran⟩ := work_of_request call q s
  rw [Request.perform_apply]
  cases houtcome : ((backend call >>= q.work call) s).outcome with
  | ok success =>
    obtain ⟨statements, hanswers, hran⟩ := hran success houtcome
    exact .completed (completes_verdict huntold hanswers hran)
  | error f =>
    by_cases hf : ∃ e, f = .error e
    · obtain ⟨e, rfl⟩ := hf
      exact .erred (errs_verdict huntold e)
    · have hf : ∀ e, f ≠ .error e := not_exists.mp hf
      exact .broken hf (propagates_verdict huntold hf)

end Operation
end SqlInterchange
