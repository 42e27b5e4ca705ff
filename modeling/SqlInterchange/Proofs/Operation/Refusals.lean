import SqlInterchange.Proofs.Operation.Request
import SqlInterchange.Proofs.Pipeline.Run

/-! # How refusals surface

What the connection fails to do ends the request, so the last failure of the connection decides
how a request ends.  A refused statement becomes an error that quotes it, and so does, without a
statement, a transaction of a run that the connection refuses to begin or to end.  An error is
logged and given to the caller.  The transaction in which an export or a wipe reads is the
exception: if the connection refuses to begin or to end it, the refusal itself is what the caller
gets, and nothing is logged (`perform_surfaces_refusals`).

How the work of a request ends is stated as a relation between the last failure, whether it is in
a run, and the failure of the work.  `Ends` carries such a relation through sequences of
activities.
-/
namespace SqlInterchange

/-! ## The last failure of the connection -/

namespace Event

/-- Why the connection has not done something. -/
def failure? : Event → Option Failure
  | controlled _ (.error f) | submitted _ (.error f) => some f
  | _ => none

/-- Whether a run begins, or else has ended well. -/
def runs? : Event → Option Bool
  | logged (.phaseStarted ..) => some true
  | logged (.phaseFinished ..) => some false
  | _ => none

/-- Whether an event tells of an error. -/
def isReport : Event → Bool
  | failed _ | logged (.operationFailed ..) => true
  | _ => false

end Event

namespace Trace

/-- The last thing that the connection has not done. -/
def lastFailed? (es : List Event) : Option Event := (es.filter (·.failure?.isSome)).getLast?

/-- Whether a trace ends in a run. -/
def endsInRun (es : List Event) : Bool := ((es.filterMap Event.runs?).getLast?).getD false

/-- Whether nothing in a trace tells of an error. -/
def Unreported (es : List Event) : Prop := ∀ e ∈ es, e.isReport = false

/-- Whether events are neither failures of the connection nor of runs nor reports. -/
def Quiet (es : List Event) : Prop :=
  ∀ e ∈ es, e.failure? = none ∧ e.runs? = none ∧ e.isReport = false

variable {es fs : List Event}

theorem lastFailed?_append (es fs : List Event) :
    lastFailed? (es ++ fs) = (lastFailed? fs).or (lastFailed? es) := by
  rw [lastFailed?, List.filter_append, List.getLast?_append]
  rfl

theorem endsInRun_append_of_false (fs : List Event) (h : endsInRun es = false) :
    endsInRun (es ++ fs) = endsInRun fs := by
  simp only [endsInRun, List.filterMap_append, List.getLast?_append] at h ⊢
  cases (fs.filterMap Event.runs?).getLast? with
  | some inRun => rfl
  | none => exact h

/-- Events that are neither failures of the connection nor have a part in runs. -/
theorem readings_append (es : List Event) (h : ∀ e ∈ fs, e.failure? = none ∧ e.runs? = none) :
    lastFailed? (es ++ fs) = lastFailed? es ∧ endsInRun (es ++ fs) = endsInRun es := by
  have hfailed : fs.filter (·.failure?.isSome) = [] :=
    List.filter_eq_nil_iff.mpr fun e he => by simp [(h e he).1]
  have hruns : fs.filterMap Event.runs? = [] :=
    List.filterMap_eq_nil_iff.mpr fun e he => (h e he).2
  constructor
  · rw [lastFailed?, List.filter_append, hfailed, List.append_nil]
    rfl
  · rw [endsInRun, List.filterMap_append, hruns, List.append_nil]
    rfl

theorem Unreported.append (hes : Unreported es) (hfs : Unreported fs) : Unreported (es ++ fs) :=
  fun e he => (List.mem_append.mp he).elim (hes e) (hfs e)

theorem Quiet.append_left (h : Quiet fs) (es : List Event) :
    lastFailed? (es ++ fs) = lastFailed? es ∧ endsInRun (es ++ fs) = endsInRun es :=
  readings_append es fun e he => ⟨(h e he).1, (h e he).2.1⟩

theorem Quiet.lastFailed? (h : Quiet es) : lastFailed? es = none := (h.append_left []).1

theorem Quiet.endsInRun (h : Quiet es) : endsInRun es = false := (h.append_left []).2

theorem Quiet.runs (h : Quiet es) : es.filterMap Event.runs? = [] :=
  List.filterMap_eq_nil_iff.mpr fun e he => (h e he).2.1

theorem Quiet.unreported (h : Quiet es) : Unreported es := fun e he => (h e he).2.2

theorem Quiet.append (hes : Quiet es) (hfs : Quiet fs) : Quiet (es ++ fs) :=
  fun e he => (List.mem_append.mp he).elim (hes e) (hfs e)

theorem quiet_remarks {entries : List LogEntry} (h : ∀ entry ∈ entries, entry.isRemark = true) :
    Quiet (entries.map .logged) := by
  intro e he
  obtain ⟨entry, hentry, rfl⟩ := List.mem_map.mp he
  refine ⟨rfl, ?_⟩
  cases entry with
  | phaseStarted phase backend statements => cases h _ hentry
  | phaseFinished phase backend executed => cases h _ hentry
  | operationFailed operation error => cases h _ hentry
  | reservedTableSkipped | documentCompiled | unparsedTableDefinition | emptyRowSkipped
    | exportFinished => exact ⟨rfl, rfl⟩

end Trace

/-! ## Relations carried through activities -/

/-- Whether work that ends well has not failed anywhere and is in no run at its end, and work that
fails is related to its last failure; no work reports. -/
structure Record.Ends {S α : Type} (E : Event → Bool → Failure → Prop) (r : Record S α) :
    Prop where
  of_ok : ∀ a, r.outcome = .ok a →
    Trace.lastFailed? r.events = none ∧ Trace.endsInRun r.events = false
  of_error : ∀ f, r.outcome = .error f →
    ∀ e ∈ Trace.lastFailed? r.events, E e (Trace.endsInRun r.events) f
  unreported : Trace.Unreported r.events

namespace Record.Ends

variable {S α β : Type} {E : Event → Bool → Failure → Prop}

theorem of_last {r : Record S α} (h : r.Ends E) {e : Event}
    (he : Trace.lastFailed? r.events = some e) :
    ∃ f, r.outcome = .error f ∧ E e (Trace.endsInRun r.events) f := by
  cases hr : r.outcome with
  | ok a => cases (h.of_ok a hr).1.symm.trans he
  | error f => exact ⟨f, rfl, h.of_error f hr e he⟩

theorem of_quiet {r : Record S α} (h : Trace.Quiet r.events) : r.Ends E where
  of_ok := fun _ _ => ⟨h.lastFailed?, h.endsInRun⟩
  of_error := fun _ _ e he => by cases h.lastFailed? ▸ he
  unreported := h.unreported

/-- Work whose last event is a failure of the connection. -/
theorem of_failed (es : List Event) {e : Event} {f g : Failure} (he : e.failure? = some g)
    (hes : Trace.Unreported es) (h : E e (Trace.endsInRun es) f) (s : S) :
    Record.Ends E (⟨.error f, s, es ++ [e]⟩ : Record S α) := by
  -- only answers of the connection are failures of it
  obtain ⟨hruns, hreport⟩ : e.runs? = none ∧ e.isReport = false := by
    cases e with
    | controlled control answer => exact ⟨rfl, rfl⟩
    | submitted statement answer => exact ⟨rfl, rfl⟩
    | progressed _ _ | succeeded _ | failed _ | logged _ => cases he
  constructor
  case of_ok => exact fun _ h => (nomatch h)
  case of_error =>
    intro f' hf' e' he'
    have hlast : Trace.lastFailed? (es ++ [e]) = some e := by
      rw [Trace.lastFailed?_append]
      simp [Trace.lastFailed?, he]
    have hrun : Trace.endsInRun (es ++ [e]) = Trace.endsInRun es := by
      simp [Trace.endsInRun, hruns]
    obtain rfl : e' = e := Option.some.inj (he'.symm.trans hlast)
    cases hf'
    simp only [hrun]
    exact h
  case unreported => exact hes.append fun e' he' => List.mem_singleton.mp he' ▸ hreport

/-- Work whose only event is a failure of the connection. -/
theorem of_alone {e : Event} {f g : Failure} (he : e.failure? = some g) (h : E e false f) (s : S) :
    Record.Ends E (⟨.error f, s, [e]⟩ : Record S α) :=
  of_failed [] he (fun _ hnone => nomatch hnone) h s

theorem after {r : Record S α} (h : r.Ends E) {es : List Event}
    (hlast : Trace.lastFailed? es = none) (hrun : Trace.endsInRun es = false)
    (hreport : Trace.Unreported es) : (r.after es).Ends E := by
  have hlast' : Trace.lastFailed? (es ++ r.events) = Trace.lastFailed? r.events := by
    rw [Trace.lastFailed?_append, hlast, Option.or_none]
  have hrun' := Trace.endsInRun_append_of_false r.events hrun
  constructor
  case of_ok =>
    simp only [Record.after, hlast', hrun']
    exact h.of_ok
  case of_error =>
    simp only [Record.after, hlast', hrun']
    exact h.of_error
  case unreported => exact hreport.append h.unreported

/-- Quiet events behind work make no difference. -/
theorem before {r : Record S α} (h : r.Ends E) {es : List Event} (hes : Trace.Quiet es) (s : S) :
    Record.Ends E ⟨r.outcome, s, r.events ++ es⟩ := by
  obtain ⟨hlast, hrun⟩ := hes.append_left r.events
  constructor
  case of_ok =>
    simp only [hlast, hrun]
    exact h.of_ok
  case of_error =>
    simp only [hlast, hrun]
    exact h.of_error
  case unreported => exact h.unreported.append hes.unreported

theorem bind {p : Activity S α} {k : α → Activity S β} {s : S} (hp : (p s).Ends E)
    (hk : ∀ a s, (k a s).Ends E) : ((p >>= k) s).Ends E := by
  rcases hps : p s with ⟨f | a, s₁, es⟩ <;> rw [hps] at hp
  · rw [Activity.bind_of_error hps]
    exact ⟨fun _ h => (nomatch h), fun f' h e he => hp.of_error f' (by cases h; rfl) e he,
      hp.unreported⟩
  · rw [Activity.bind_of_ok hps]
    obtain ⟨hlast, hrun⟩ := hp.of_ok a rfl
    exact (hk a s₁).after hlast hrun hp.unreported

end Record.Ends

/-! ## Units of work -/

/-- How a unit of work ends when the connection has failed in it. -/
inductive Explained : Event → Failure → Prop
  | refused {statement detail : Text} {e : ExecutionError} (hstatement : e.statement = statement)
    (hdetail : e.detail = detail) :
    Explained (.submitted statement (.error (.rejected detail))) (.error (.execution e))
  | broken {statement : Text} {f : Failure} (hf : ∀ detail, f ≠ .rejected detail) :
    Explained (.submitted statement (.error f)) f
  | control {control : Control} {f : Failure} : Explained (.controlled control (.error f)) f

/-- Whether an activity ends as its last failure has it, and has nothing of runs in it. -/
structure Activity.Candid {σ ρ α : Type} (p : Activity (σ × ρ) α) (own : ρ) : Prop where
  ends : ∀ c, (p (c, own)).Ends fun e _ f => Explained e f
  runs : ∀ c, (p (c, own)).events.filterMap Event.runs? = []

variable {σ ρ α β : Type} {b : Backend σ} {own : ρ}

theorem Walk.Reading.candid {work : Activity (σ × ρ) α} (h : Reading b α work) (own : ρ) :
    work.Candid own := by
  have hquiet {γ : Type} {p : Activity (σ × ρ) γ} {own : ρ}
      (h : ∀ c, Trace.Quiet (p (c, own)).events) : p.Candid own :=
    ⟨fun c => .of_quiet (h c), fun c => (h c).runs⟩
  induction h generalizing own with
  | pure a => exact hquiet fun c e he => by cases he
  | fault f => exact hquiet fun c e he => by cases he
  | remark entries h => exact hquiet fun c => Trace.quiet_remarks h
  | ask statement =>
    refine ⟨fun c => ?_, fun c => by rw [ask_apply]; rfl⟩
    rw [ask_apply]
    match (b.submit statement c).1 with
    | .ok rows =>
      refine .of_quiet fun e he => ?_
      rw [List.mem_singleton.mp he]
      exact ⟨rfl, rfl, rfl⟩
    | .error (.rejected detail) => exact .of_alone rfl (.refused rfl rfl) _
    | .error (.error e) => exact .of_alone rfl (.broken fun _ => Failure.noConfusion) _
    | .error (.fault f) => exact .of_alone rfl (.broken fun _ => Failure.noConfusion) _
  | @bind α β p k hp hk ihp ihk =>
    refine ⟨fun c => .bind ((ihp own).ends c) fun a s => (ihk a s.2).ends s.1, fun c => ?_⟩
    have hfirst := (ihp own).runs c
    rcases hps : p (c, own) with ⟨f | a, s₁, es⟩ <;> rw [hps] at hfirst
    · rw [Activity.bind_of_error hps]
      exact hfirst
    · rw [Activity.bind_of_ok hps]
      have hsecond := (ihk a s₁.2).runs s₁.1
      simp only [Record.after, List.filterMap_append]
      rw [hfirst, hsecond, List.append_nil]

/-- The events of statements done, and of telling the caller of them, are quiet. -/
theorem Pipeline.Course.quiet_doneEvents (progress? : Option Progress) (total executed : Int)
    (done : List (Text × List Row)) : Trace.Quiet (doneEvents progress? total executed done) := by
  induction done generalizing executed with
  | nil => exact fun e he => nomatch he
  | cons first done ih =>
    refine Trace.Quiet.append (fun e he => ?_) (ih (executed + 1))
    rcases List.mem_cons.mp he with rfl | he
    · exact ⟨rfl, rfl, rfl⟩
    · cases progress? with
      | none => cases he
      | some progress =>
        rw [List.mem_singleton.mp he]
        exact ⟨rfl, rfl, rfl⟩

theorem Pipeline.candid_drain (b : Backend σ) (progress? : Option Progress) {p : Pipeline}
    (hp : p.state = .running) : (drain b progress? p.queue).Candid p := by
  constructor
  all_goals
    intro c
    obtain ⟨x, c', hx, hdrain, -⟩ := drain_apply b progress? hp rfl c
    rw [hdrain]
    have hdone := Course.quiet_doneEvents progress? p.total p.executedInCall x.done
  case ends =>
    -- the statements done are quiet, so the last failure is that of the ending
    refine Record.Ends.after (r := ⟨x.ending.outcome (p.follow x), (c', p.follow x),
      x.ending.events⟩) ?_ hdone.lastFailed? hdone.endsInRun hdone.unreported
    cases hending : x.ending with
    | complete => exact .of_quiet fun e he => nomatch he
    | interrupted failure => exact .of_quiet fun e he => nomatch he
    | refused statement detail => exact .of_alone rfl (.refused rfl rfl) _
    | broken statement failure => exact .of_alone rfl (.broken (hx.not_rejected hending)) _
  case runs =>
    rw [Course.events, List.filterMap_append, hdone.runs]
    cases x.ending <;> rfl

namespace Backend

theorem quiet_begun : Trace.Quiet [.controlled .start (.ok ())] := by
  intro e he
  rw [List.mem_singleton.mp he]
  exact ⟨rfl, rfl, rfl⟩

theorem quiet_closing {es : List Event}
    (h : ∀ e ∈ es, ∃ control, e = .controlled control (.ok ())) : Trace.Quiet es := by
  intro e he
  obtain ⟨control, rfl⟩ := h e he
  exact ⟨rfl, rfl, rfl⟩

theorem UnitLeaves.ends {work : Activity (σ × ρ) α} {r : Record (σ × ρ) α}
    (h : UnitLeaves work own r) (hwork : work.Candid own) : r.Ends fun e _ f => Explained e f := by
  cases h with
  | joined c => exact hwork.ends c
  | unbegun c f => exact .of_alone rfl .control _
  | ended c c' hes =>
    exact ((hwork.ends c).before (quiet_closing hes) _).after quiet_begun.lastFailed?
      quiet_begun.endsInRun quiet_begun.unreported
  | unended c c' control f =>
    exact .of_failed (.controlled .start (.ok ()) :: (work (c, own)).events) rfl
      (quiet_begun.unreported.append (hwork.ends c).unreported) .control _

theorem UnitLeaves.runs {work : Activity (σ × ρ) α} {r : Record (σ × ρ) α}
    (h : UnitLeaves work own r) (hwork : work.Candid own) :
    r.events.filterMap Event.runs? = [] := by
  have hruns (c : σ) {es : List Event} (hes : es.filterMap Event.runs? = []) :
      (.controlled .start (.ok ()) :: ((work (c, own)).events ++ es)).filterMap Event.runs? =
        [] := by
    show (_ ++ es).filterMap Event.runs? = []
    rw [List.filterMap_append, hwork.runs c, hes, List.append_nil]
  cases h with
  | joined c => exact hwork.runs c
  | unbegun c f => rfl
  | ended c c' hes => exact hruns c (quiet_closing hes).runs
  | unended c c' control f => exact hruns c rfl

theorem candid_unitOfWork (b : Backend σ) {work : Activity (σ × ρ) α} (hwork : work.Candid own) :
    (b.unitOfWork work).Candid own :=
  ⟨fun c => (b.unitOfWork_leaves work c own).ends hwork,
    fun c => (b.unitOfWork_leaves work c own).runs hwork⟩

end Backend

/-! ## Requests -/

namespace Operation

variable {progress? : Option Progress} {reads : Prop}

/-- How the work of a request ends when the connection has failed last, in a run or not. -/
inductive Surfaces (reads : Prop) : Event → Bool → Failure → Prop
  | statement {statement detail : Text} {inRun : Bool} {e : ExecutionError}
    (hstatement : e.statement = statement) (hdetail : e.detail = detail) :
    Surfaces reads (.submitted statement (.error (.rejected detail))) inRun (.error (.execution e))
  | control {control : Control} {detail : Text} {e : ExecutionError} (hstatement : e.statement = [])
    (hdetail : e.detail = detail) :
    Surfaces reads (.controlled control (.error (.rejected detail))) true (.error (.execution e))
  | raw {control : Control} {detail : Text} (h : reads) :
    Surfaces reads (.controlled control (.error (.rejected detail))) false (.rejected detail)
  | broken {e : Event} {inRun : Bool} {f : Failure} (he : e.failure? = some f)
    (hf : ∀ detail, f ≠ .rejected detail) : Surfaces reads e inRun f

theorem Surfaces.of_reading (h : reads) {e : Event} {f : Failure} (he : Explained e f) :
    Surfaces reads e false f := by
  cases he with
  | refused hstatement hdetail => exact .statement hstatement hdetail
  | broken hf => exact .broken rfl hf
  | @control control f =>
    by_cases hf : ∃ detail, f = .rejected detail
    · obtain ⟨detail, rfl⟩ := hf
      exact .raw h
    · exact .broken rfl (not_exists.mp hf)

/-- A run takes what is left of refusals for those of its transaction. -/
theorem Surfaces.of_run (p : Pipeline) {e : Event} {f : Failure} (he : Explained e f) :
    Surfaces reads e true (p.endingFailure f) := by
  cases he with
  | refused hstatement hdetail => exact .statement hstatement hdetail
  | broken hf =>
    rw [Pipeline.endingFailure_of_not_rejected p hf]
    exact .broken rfl hf
  | @control control f =>
    by_cases hf : ∃ detail, f = .rejected detail
    · obtain ⟨detail, rfl⟩ := hf
      exact .control rfl rfl
    · rw [Pipeline.endingFailure_of_not_rejected p (not_exists.mp hf)]
      exact .broken rfl (not_exists.mp hf)

theorem ends_runFresh (b : Backend σ) {p : Pipeline} (hp : p.state = .pending) (c : σ) (own : ρ) :
    (Pipeline.runFresh b progress? p (c, own)).Ends (Surfaces reads) := by
  have hunit : (b.unitOfWork (Pipeline.drain b progress? p.queue)).Candid p.begun :=
    b.candid_unitOfWork (Pipeline.candid_drain b progress? (p := p.begun) rfl)
  have hends := hunit.ends c
  have hruns := hunit.runs c
  rcases hr : b.unitOfWork (Pipeline.drain b progress? p.queue) (c, p.begun) with
    ⟨f | ⟨⟩, ⟨c₁, p₁⟩, es⟩ <;>
    rw [Pipeline.runFresh_apply hp hr own] <;>
    rw [hr] at hends hruns
  · -- the unit of work fails, and nothing is logged after it
    have hrun : Trace.endsInRun (.logged (.phaseStarted p.phase b.name p.count) :: es) = true := by
      simp only [Trace.endsInRun, List.filterMap_cons, Event.runs?, hruns]
      rfl
    constructor
    case of_ok => exact fun _ h => (nomatch h)
    case of_error =>
      intro f' hf' e he
      cases hf'
      simp only [Pipeline.unitLog, List.map_nil, List.append_nil, hrun] at he ⊢
      exact .of_run p₁ (hends.of_error f rfl e he)
    case unreported =>
      simp only [Pipeline.unitLog, List.map_nil, List.append_nil]
      exact List.forall_mem_cons.mpr ⟨rfl, hends.unreported⟩
  · constructor
    case of_ok =>
      have hlast : Trace.lastFailed? es = none := (hends.of_ok () rfl).1
      refine fun _ _ => ⟨?_, ?_⟩
      · simp only [Pipeline.unitLog, Trace.lastFailed?_append]
        exact hlast
      · simp only [Pipeline.unitLog, Trace.endsInRun, List.filterMap_append, List.filterMap_cons,
          Event.runs?, hruns]
        rfl
    case of_error => exact fun _ h => (nomatch h)
    case unreported =>
      exact List.forall_mem_cons.mpr ⟨rfl, hends.unreported.append fun e he =>
        List.mem_singleton.mp he ▸ rfl⟩

/-- **Main.** Conducted work ends as its last failure has it. -/
theorem Conducted.ends {work : Activity (σ × ρ) α} (h : Conducted b progress? reads α work)
    (s : σ × ρ) : (work s).Ends (Surfaces reads) := by
  induction h generalizing s with
  | pure a => exact .of_quiet fun e he => nomatch he
  | fail f hf => exact .of_quiet fun e he => nomatch he
  | log entries h => exact .of_quiet (Trace.quiet_remarks h)
  | @read α h work hwork =>
    have hunit := b.candid_unitOfWork (hwork.candid s.2)
    have hrun : Trace.endsInRun (b.unitOfWork work s).events = false := by
      rw [Trace.endsInRun, hunit.runs s.1]
      rfl
    obtain ⟨hok, herror, hreport⟩ := hunit.ends s.1
    exact ⟨hok, fun f hf e he => hrun ▸ .of_reading h (herror f hf e he), hreport⟩
  | run phase statements offset total? => exact ends_runFresh b rfl s.1 s.2
  | bind hp hk ihp ihk => exact (ihp s).bind ihk

/-- Whether an operation ends by telling of an error: it logs it, and then calls the error
callback with it, whose failure is its own, or fails with it if there is none. -/
structure ReportsError {S : Type} (name : String) (callbacks : Callbacks) (e : Error)
    (r : Record S (Option α)) : Prop where
  events : ∃ es, Trace.Unreported es ∧ r.events =
    es ++ .logged (.operationFailed name.toList e) ::
      if callbacks.error?.isSome then [.failed e] else []
  outcome : r.outcome =
    match callbacks.error? with
    | none => .error (.error e)
    | some callback => ((callback e).map .error).getD (.ok none)

/-- How the failures of the connection surface in a request. -/
structure RefusalsSurface {S : Type} (q : Request) (callbacks : Callbacks)
    (r : Record S (Option Success)) : Prop where
  /-- A statement that is refused surfaces as an error that quotes it. -/
  statement : ∀ statement detail,
    Trace.lastFailed? r.events = some (.submitted statement (.error (.rejected detail))) →
    ∃ e : ExecutionError, e.statement = statement ∧ e.detail = detail ∧
      ReportsError q.name callbacks (.execution e) r
  /-- A transaction of a run that is refused surfaces as an error without a statement. -/
  run : ∀ control detail,
    Trace.lastFailed? r.events = some (.controlled control (.error (.rejected detail))) →
    Trace.endsInRun r.events = true →
    ∃ e : ExecutionError, e.statement = [] ∧ e.detail = detail ∧
      ReportsError q.name callbacks (.execution e) r
  /-- A transaction apart from runs is that of an operation which reads, and its refusal is what
  the caller gets; of this nobody is told. -/
  reading : ∀ control detail,
    Trace.lastFailed? r.events = some (.controlled control (.error (.rejected detail))) →
    Trace.endsInRun r.events = false →
    q.Reads ∧ r.outcome = .error (.rejected detail) ∧ Trace.Unreported r.events
  /-- What breaks the connection down is what the caller gets. -/
  fault : ∀ e f, Trace.lastFailed? r.events = some e → e.failure? = some (.fault f) →
    r.outcome = .error (.fault f) ∧ Trace.Unreported r.events

theorem reportsError_verdict (name : String) (callbacks : Callbacks) {success : α → Success}
    (e : Error) {S : Type} {es : List Event} (hes : Trace.Unreported es) (s : S) :
    ReportsError name callbacks e
      (⟨(verdict name callbacks success (.error (.error e))).2, s,
        es ++ (verdict name callbacks success (.error (.error e))).1⟩) := by
  cases hcallback : callbacks.error? with
  | none =>
    constructor
    case events => exact ⟨es, hes, by simp [verdict, hcallback]⟩
    case outcome => simp [verdict, hcallback]
  | some callback =>
    constructor
    case events => exact ⟨es, hes, by simp [verdict, hcallback]⟩
    case outcome => simp [verdict, hcallback]

/-- A report is no failure of the connection and has no part in runs. -/
theorem apart_verdict (name : String) (callbacks : Callbacks) (success : α → Success)
    (outcome : Except Failure α) :
    ∀ e ∈ (verdict name callbacks success outcome).1, e.failure? = none ∧ e.runs? = none := by
  intro e he
  obtain ⟨success?, error?, progress?⟩ := callbacks
  match outcome with
  | .ok a =>
    cases success? with
    | none => cases he
    | some callback =>
      rw [List.mem_singleton.mp he]
      exact ⟨rfl, rfl⟩
  | .error (.error error) =>
    cases error? with
    | none =>
      rw [List.mem_singleton.mp he]
      exact ⟨rfl, rfl⟩
    | some callback =>
      rcases List.mem_cons.mp he with rfl | he
      · exact ⟨rfl, rfl⟩
      · rw [List.mem_singleton.mp he]
        exact ⟨rfl, rfl⟩
  | .error (.rejected detail) => cases he
  | .error (.fault f) => cases he

theorem readings_verdict (name : String) (callbacks : Callbacks) (success : α → Success)
    (outcome : Except Failure α) (es : List Event) :
    Trace.lastFailed? (es ++ (verdict name callbacks success outcome).1) = Trace.lastFailed? es ∧
      Trace.endsInRun (es ++ (verdict name callbacks success outcome).1) =
        Trace.endsInRun es :=
  Trace.readings_append es (apart_verdict name callbacks success outcome)

/-- **Main: how refusals surface.**  Whatever the connection and the callbacks do, a request ends
as the last failure of the connection has it. -/
theorem perform_surfaces_refusals (call : Call σ) (q : Request) (s : σ × ρ) :
    RefusalsSurface q call.callbacks (q.perform call s) := by
  have hwork : ((backend call >>= q.work call) s).Ends (Surfaces q.Reads) := by
    cases hb : call.registry.adapt call.handle with
    | ok b =>
      rw [backend_bind_apply hb]
      exact (conducted_work call b q).ends s
    | error e =>
      rw [backend_of_error hb]
      exact .of_quiet fun e he => nomatch he
  rw [Request.perform_apply]
  generalize (backend call >>= q.work call) s = r at hwork ⊢
  obtain ⟨hlast, hrun⟩ := readings_verdict q.name call.callbacks id r.outcome r.events
  constructor
  all_goals simp only [hlast, hrun]
  case statement =>
    intro statement detail h
    obtain ⟨f, hf, hsurfaces⟩ := hwork.of_last h
    cases hsurfaces with
    | @statement _ _ _ e hstatement hdetail =>
      rw [hf]
      exact ⟨e, hstatement, hdetail, reportsError_verdict _ _ _ hwork.unreported _⟩
    | broken he hne => cases he; exact absurd rfl (hne detail)
  case run =>
    intro control detail h hinRun
    obtain ⟨f, hf, hsurfaces⟩ := hwork.of_last h
    rw [hinRun] at hsurfaces
    cases hsurfaces with
    | @control _ _ e hstatement hdetail =>
      rw [hf]
      exact ⟨e, hstatement, hdetail, reportsError_verdict _ _ _ hwork.unreported _⟩
    | broken he hne => cases he; exact absurd rfl (hne detail)
  case reading =>
    intro control detail h hapart
    obtain ⟨f, hf, hsurfaces⟩ := hwork.of_last h
    rw [hapart] at hsurfaces
    cases hsurfaces with
    | raw hreads =>
      rw [hf]
      exact ⟨hreads, rfl, by simpa [verdict] using hwork.unreported⟩
    | broken he hne => cases he; exact absurd rfl (hne detail)
  case fault =>
    intro e f h he
    obtain ⟨f', hf, hsurfaces⟩ := hwork.of_last h
    generalize Trace.endsInRun r.events = inRun at hsurfaces
    obtain rfl : f' = .fault f := by
      cases hsurfaces with
      | statement _ _ => cases he
      | control _ _ => cases he
      | raw _ => cases he
      | broken he' hne => exact Option.some.inj (he'.symm.trans he)
    rw [hf]
    exact ⟨rfl, by simpa [verdict] using hwork.unreported⟩

/-! ### A transaction that does not begin -/

/-- A caller who takes errors, with a connection that does not begin transactions. -/
def takingErrors : Call Scripted.Script where
  registry := .standard
  handle := Scripted.handle .engine
  options := .standard
  callbacks := ⟨none, some fun _ => none, none⟩

/-- An engine that refuses to begin. -/
def unbeginning : Scripted.Script := ⟨.engine, ["BEGIN".toList], [], [], false⟩

/-- The same refusal surfaces raw in an export, and as an error in an import. -/
theorem refused_begin_surfaces_raw :
    let exporting := Request.exportScript.perform takingErrors (unbeginning, ())
    let importing := (Request.importScript "A".toList).perform takingErrors (unbeginning, ())
    exporting.events = [.controlled .start (.error (.rejected "rejected: BEGIN".toList))] ∧
      exporting.outcome = .error (.rejected "rejected: BEGIN".toList) ∧
      (importing.outcome matches .ok none) ∧ importing.events.any Event.isReport :=
  ⟨rfl, rfl, rfl, rfl⟩

end Operation
end SqlInterchange
