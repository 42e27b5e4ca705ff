import SqlInterchange.Activity

/-! # Traces

An activity leaves a record, and the events of a record are a trace.  This module says how the
records of activities compose, reads from a trace what was submitted, what was controlled and what
the caller was told of progress, and relates activities that leave the same trace but for the log.
-/
namespace SqlInterchange

/-! ## Composition of records -/

/-- The record of what follows some events. -/
def Record.after {S α : Type} (es : List Event) (r : Record S α) : Record S α :=
  ⟨r.outcome, r.state, es ++ r.events⟩

theorem Record.after_nil {S α : Type} (r : Record S α) : r.after [] = r := rfl

namespace Activity

variable {S α β : Type} {p : Activity S α} {k : α → Activity S β} {s s' : S} {es : List Event}

theorem pure_apply (a : α) (s : S) : (pure a : Activity S α) s = ⟨.ok a, s, []⟩ := rfl

theorem bind_of_ok {a : α} (h : p s = ⟨.ok a, s', es⟩) : (p >>= k) s = (k a s').after es := by
  show Activity.bind p k s = _
  simp [Activity.bind, h, Record.after]

theorem bind_of_error {f : Failure} (h : p s = ⟨.error f, s', es⟩) :
    (p >>= k) s = ⟨.error f, s', es⟩ := by
  show Activity.bind p k s = _
  simp [Activity.bind, h]

/-- One activity after another has a result only if both have one. -/
theorem exists_of_bind_ok {b : β} (h : ((p >>= k) s).outcome = .ok b) :
    ∃ a s' es, p s = ⟨.ok a, s', es⟩ ∧ (k a s').outcome = .ok b := by
  rcases hp : p s with ⟨f | a, s', es⟩
  · rw [bind_of_error hp] at h
    cases h
  · rw [bind_of_ok hp] at h
    exact ⟨a, s', es, rfl, h⟩

/-- What happens first in a sequence happens in it. -/
theorem prefix_bind (p : Activity S α) (k : α → Activity S β) (s : S) :
    (p s).events <+: ((p >>= k) s).events := by
  rcases hp : p s with ⟨f | a, s', es⟩
  · have hevents : ((p >>= k) s).events = es := congrArg Record.events (bind_of_error hp)
    exact hevents ▸ List.prefix_refl _
  · have hevents : ((p >>= k) s).events = es ++ (k a s').events :=
      congrArg Record.events (bind_of_ok hp)
    exact hevents ▸ List.prefix_append ..

theorem bind_pure (p : Activity S α) : p >>= pure = p := by
  funext s
  rcases h : p s with ⟨_ | a, s', es⟩
  · exact bind_of_error h
  · rw [bind_of_ok h, pure_apply]
    simp [Record.after]

theorem attempt_apply (p : Activity S α) (s : S) :
    p.attempt s = ⟨.ok (p s).outcome, (p s).state, (p s).events⟩ := rfl

end Activity

/-! ## Readings of a trace -/

namespace Event

/-- The statement that is submitted. -/
def statement? : Event → Option Text
  | submitted statement _ => some statement
  | _ => none

/-- What the caller is told of progress. -/
def progress? : Event → Option (Int × Int)
  | progressed current total => some (current, total)
  | _ => none

/-- What begins or ends a transaction. -/
def control? : Event → Option Control
  | controlled control _ => some control
  | _ => none

/-- Whether the beginning or the end of a transaction is refused. -/
def isRefusedControl : Event → Bool
  | controlled _ (.error _) => true
  | _ => false

/-- Whether an event is an entry of the log. -/
def isLogged : Event → Bool
  | logged _ => true
  | _ => false

end Event

namespace Trace

/-- The statements submitted, in order. -/
def submissions (es : List Event) : List Text := es.filterMap Event.statement?

/-- The calls of the progress callback, in order. -/
def progressCalls (es : List Event) : List (Int × Int) := es.filterMap Event.progress?

/-- The beginnings and ends of transactions, in order. -/
def controls (es : List Event) : List Control := es.filterMap Event.control?

/-- The events that are no entries of the log. -/
def unlogged (es : List Event) : List Event := es.filter (!·.isLogged)

/-- Whether each beginning and each end of a transaction has succeeded. -/
def Controlled (es : List Event) : Prop :=
  ∀ control answer, .controlled control answer ∈ es → answer = .ok ()

variable {es fs : List Event}

theorem controlled_iff : Controlled es ↔ es.all (!·.isRefusedControl) := by
  rw [List.all_eq_true]
  constructor
  · intro h e he
    match e with
    | .controlled control answer => rw [h control answer he]; rfl
    | .submitted _ _ | .progressed _ _ | .succeeded _ | .failed _ | .logged _ => rfl
  · intro h control answer he
    cases answer with
    | ok _ => rfl
    | error f => exact absurd (h _ he) (by simp [Event.isRefusedControl])

instance : Decidable (Controlled es) := decidable_of_iff _ controlled_iff.symm

theorem submissions_append (es fs : List Event) :
    submissions (es ++ fs) = submissions es ++ submissions fs :=
  List.filterMap_append

theorem progressCalls_append (es fs : List Event) :
    progressCalls (es ++ fs) = progressCalls es ++ progressCalls fs :=
  List.filterMap_append

theorem controls_append (es fs : List Event) :
    controls (es ++ fs) = controls es ++ controls fs :=
  List.filterMap_append

theorem unlogged_append (es fs : List Event) :
    unlogged (es ++ fs) = unlogged es ++ unlogged fs :=
  List.filter_append ..

theorem unlogged_logged (entries : List LogEntry) : unlogged (entries.map .logged) = [] := by
  simp [unlogged, Event.isLogged]

/-- Whether events are remarks: none of them is of a statement, of progress or of a transaction. -/
def Remarks (es : List Event) : Prop :=
  ∀ e ∈ es, e.statement? = none ∧ e.progress? = none ∧ e.control? = none

theorem Remarks.submissions_eq (h : Remarks es) : submissions es = [] :=
  List.filterMap_eq_nil_iff.mpr fun e he => (h e he).1

theorem Remarks.progressCalls_eq (h : Remarks es) : progressCalls es = [] :=
  List.filterMap_eq_nil_iff.mpr fun e he => (h e he).2.1

theorem Remarks.controls_eq (h : Remarks es) : controls es = [] :=
  List.filterMap_eq_nil_iff.mpr fun e he => (h e he).2.2

theorem remarks_logged (entries : List LogEntry) : Remarks (entries.map .logged) := by
  intro e he
  obtain ⟨entry, -, rfl⟩ := List.mem_map.mp he
  exact ⟨rfl, rfl, rfl⟩

/-- The log has no part in what is submitted. -/
theorem submissions_unlogged (es : List Event) : submissions (unlogged es) = submissions es := by
  rw [submissions, unlogged, List.filterMap_filter]
  refine congrArg (es.filterMap ·) (funext fun e => ?_)
  cases e <;> rfl

theorem Controlled.left (h : Controlled (es ++ fs)) : Controlled es :=
  fun control answer he => h control answer (List.mem_append_left _ he)

theorem Controlled.right (h : Controlled (es ++ fs)) : Controlled fs :=
  fun control answer he => h control answer (List.mem_append_right _ he)

/-- What an activity controls, it controls also as the first part of another one. -/
theorem Controlled.of_bind {S α β : Type} {p : Activity S α} {k : α → Activity S β} {s : S}
    (h : Controlled ((p >>= k) s).events) : Controlled (p s).events := by
  rcases hp : p s with ⟨_ | a, s', es⟩
  · rwa [Activity.bind_of_error hp] at h
  · rw [Activity.bind_of_ok hp] at h
    exact h.left

end Trace

/-! ## Activities that differ in the log -/

/-- Whether two activities end alike and leave the same trace but for the log. -/
def Activity.AgreeButLog {S α : Type} (p q : Activity S α) : Prop :=
  ∀ s, (p s).outcome = (q s).outcome ∧ (p s).state = (q s).state ∧
    Trace.unlogged (p s).events = Trace.unlogged (q s).events

namespace Activity.AgreeButLog

variable {S α β : Type} {p q : Activity S α} {k l : α → Activity S β}

theorem refl (p : Activity S α) : AgreeButLog p p := fun _ => ⟨rfl, rfl, rfl⟩

theorem symm (h : AgreeButLog p q) : AgreeButLog q p :=
  fun s => ⟨(h s).1.symm, (h s).2.1.symm, (h s).2.2.symm⟩

theorem attempt (h : AgreeButLog p q) : AgreeButLog p.attempt q.attempt :=
  fun s => ⟨congrArg Except.ok (h s).1, (h s).2⟩

theorem bind (hp : AgreeButLog p q) (hk : ∀ a, AgreeButLog (k a) (l a)) :
    AgreeButLog (p >>= k) (q >>= l) := by
  intro s
  rcases hps : p s with ⟨outcome, state, es⟩
  rcases hqs : q s with ⟨outcome', state', es'⟩
  obtain ⟨ho, hs, he⟩ := hp s
  simp only [hps, hqs] at ho hs he
  subst ho hs
  -- both end alike, so either both go on in the same state or neither goes on
  cases outcome with
  | error f =>
    rw [bind_of_error hps, bind_of_error hqs]
    exact ⟨rfl, rfl, he⟩
  | ok a =>
    obtain ⟨ho, hs, he'⟩ := hk a state
    rw [bind_of_ok hps, bind_of_ok hqs]
    refine ⟨ho, hs, ?_⟩
    simp only [Record.after, Trace.unlogged_append, he, he']

/-- Which entry is written to the log makes no difference. -/
theorem log (entry entry' : LogEntry) (k : Unit → Activity S β) :
    AgreeButLog (Activity.log entry >>= k) (Activity.log entry' >>= k) :=
  bind (fun _ => ⟨rfl, rfl, rfl⟩) fun _ => refl _

theorem submissions_eq (h : AgreeButLog p q) (s : S) :
    Trace.submissions (p s).events = Trace.submissions (q s).events := by
  rw [← Trace.submissions_unlogged, (h s).2.2, Trace.submissions_unlogged]

end Activity.AgreeButLog
end SqlInterchange
