import SqlInterchange.Proofs.Trace
import SqlInterchange.Backend

/-! # Units of work

A unit of work on a connection without an open transaction begins one, does the work, and ends the
transaction by a commit if the work ended well and by a rollback if not.  This holds for every way
of driving a connection, as long as the beginning and the end are not refused.  A backend that asks
whether its transaction is still open relies on two things: that a connection is in a transaction
once it has begun one, and that the work neither opens nor ends one.
-/
namespace SqlInterchange

/-- What ends the transaction of some work, by the outcome of the work. -/
def Control.ending {α : Type} : Except Failure α → Control
  | .ok _ => .commit
  | .error _ => .rollback

variable {σ ρ α : Type}

namespace Backend

variable (b : Backend σ)

/-- Whether a connection is in a transaction once it has begun one, if the backend relies on it. -/
def Opens (c : σ) : Prop :=
  b.endsOnlyIfOpen = true → ∀ c', b.control .start c = (.ok (), c') → b.inTransaction c' = true

/-- Whether no transaction is open that a unit of work would join. -/
def Free (c : σ) : Prop := b.joinsOpen = true → b.inTransaction c = false

/-- Whether a connection is free once it has committed a transaction. -/
def Closes (c : σ) : Prop := ∀ c', b.control .commit c = (.ok (), c') → b.Free c'

/-- Whether a statement neither opens nor ends a transaction. -/
def Keeps (statement : Text) : Prop :=
  ∀ c, b.inTransaction (b.submit statement c).2 = b.inTransaction c

/-- Whether an activity neither opens nor ends a transaction. -/
def KeepsOpen (work : Activity (σ × ρ) α) (own : ρ) : Prop :=
  ∀ c, b.inTransaction (work (c, own)).state.1 = b.inTransaction c

variable {b} {c : σ} {own : ρ} {work : Activity (σ × ρ) α}

theorem isOpen_apply (b : Backend σ) (c : σ) (own : ρ) :
    b.isOpen (c, own) = ⟨.ok (b.inTransaction c), (c, own), []⟩ := rfl

theorem perform_apply {control : Control} {answer : Except Failure Unit} {c' : σ}
    (h : b.control control c = (answer, c')) (own : ρ) :
    b.perform control (c, own) = ⟨answer, (c', own), [.controlled control answer]⟩ := by
  simp [perform, h]

/-- A transaction that is open is ended. -/
theorem endWith_apply (hopen : b.endsOnlyIfOpen = true → b.inTransaction c = true)
    (control : Control) (own : ρ) : b.endWith control (c, own) = b.perform control (c, own) := by
  by_cases hends : b.endsOnlyIfOpen
  · rw [endWith, Activity.bind_of_ok (isOpen_apply b c own)]
    simp [hopen hends, Record.after]
  · rw [endWith, Activity.bind_of_ok (isOpen_apply b c own)]
    simp [hends, Record.after]

theorem unitOfWork_eq_transact (hfree : b.Free c) (work : Activity (σ × ρ) α) (own : ρ) :
    b.unitOfWork work (c, own) = b.transact work (c, own) := by
  rw [unitOfWork, Activity.bind_of_ok (isOpen_apply b c own)]
  by_cases hjoins : b.joinsOpen
  · simp [hfree hjoins, Record.after]
  · simp [hjoins, Record.after]

/-- What a unit of work does once the work has ended. -/
def close (b : Backend σ) : Except Failure α → Activity (σ × ρ) α
  | .ok a => do
    b.endWith .commit
    return a
  | .error f => do
    b.endWith .rollback
    Activity.fail f

theorem transact_eq (b : Backend σ) (work : Activity (σ × ρ) α) :
    b.transact work = b.perform .start >>= fun _ => work.attempt >>= b.close := by
  rw [transact]
  refine congrArg (_ >>= ·) (funext fun _ => congrArg (_ >>= ·) (funext fun outcome => ?_))
  cases outcome <;> rfl

/-- An end that is not refused leaves the outcome of the work. -/
theorem close_apply {outcome : Except Failure α} {c' : σ}
    (hopen : b.endsOnlyIfOpen = true → b.inTransaction c = true)
    (h : b.control (.ending outcome) c = (.ok (), c')) (own : ρ) :
    b.close outcome (c, own) =
      ⟨outcome, (c', own), [.controlled (.ending outcome) (.ok ())]⟩ := by
  have hend : b.endWith (.ending outcome) (c, own) =
      ⟨.ok (), (c', own), [.controlled (.ending outcome) (.ok ())]⟩ := by
    rw [endWith_apply hopen, perform_apply h]
  cases outcome with
  | ok a => exact Activity.bind_of_ok hend
  | error f => exact Activity.bind_of_ok hend

/-- An end that is refused is what comes of the work. -/
theorem close_of_refused {outcome : Except Failure α} {f : Failure} {c' : σ}
    (hopen : b.endsOnlyIfOpen = true → b.inTransaction c = true)
    (h : b.control (.ending outcome) c = (.error f, c')) (own : ρ) :
    b.close outcome (c, own) =
      ⟨.error f, (c', own), [.controlled (.ending outcome) (.error f)]⟩ := by
  have hend : b.endWith (.ending outcome) (c, own) =
      ⟨.error f, (c', own), [.controlled (.ending outcome) (.error f)]⟩ := by
    rw [endWith_apply hopen, perform_apply h]
  cases outcome with
  | ok a => exact Activity.bind_of_error hend
  | error e => exact Activity.bind_of_error hend

/-- A transaction that is no longer open is left to whoever ended it. -/
theorem close_of_closed (hends : b.endsOnlyIfOpen = true) (hclosed : b.inTransaction c = false)
    (outcome : Except Failure α) (own : ρ) :
    b.close outcome (c, own) = ⟨outcome, (c, own), []⟩ := by
  have hend (control : Control) : b.endWith control (c, own) = ⟨.ok (), (c, own), []⟩ := by
    rw [endWith, Activity.bind_of_ok (isOpen_apply b c own)]
    simp [hends, hclosed, Record.after, Activity.pure_apply]
  cases outcome with
  | ok a => exact Activity.bind_of_ok (hend .commit)
  | error e => exact Activity.bind_of_ok (hend .rollback)

/-- If nothing is refused in closing, then the end of the transaction is not. -/
theorem control_of_close {outcome : Except Failure α}
    (hopen : b.endsOnlyIfOpen = true → b.inTransaction c = true)
    (h : Trace.Controlled (b.close outcome (c, own)).events) :
    ∃ c', b.control (.ending outcome) c = (.ok (), c') := by
  rcases hcontrol : b.control (.ending outcome) c with ⟨_ | ⟨⟩, c'⟩
  · -- a refused end is the last event, against `h`
    rw [close_of_refused hopen hcontrol] at h
    cases h _ _ (List.mem_singleton_self _)
  · exact ⟨c', rfl⟩

/-- **Main.** A unit of work begins a transaction, does the work and ends the transaction. -/
theorem unitOfWork_apply (hfree : b.Free c) (hopens : b.Opens c)
    (hkeeps : b.KeepsOpen work own) (h : Trace.Controlled (b.unitOfWork work (c, own)).events) :
    ∃ c₁ c₂, b.control .start c = (.ok (), c₁) ∧
      b.control (.ending (work (c₁, own)).outcome) (work (c₁, own)).state.1 = (.ok (), c₂) ∧
      b.unitOfWork work (c, own) =
        ⟨(work (c₁, own)).outcome, (c₂, (work (c₁, own)).state.2),
          .controlled .start (.ok ()) :: (work (c₁, own)).events ++
            [.controlled (.ending (work (c₁, own)).outcome) (.ok ())]⟩ := by
  rw [unitOfWork_eq_transact hfree, transact_eq] at h ⊢
  rcases hstart : b.control .start c with ⟨_ | ⟨⟩, c₁⟩
  · next f =>
    rw [Activity.bind_of_error (perform_apply hstart own)] at h
    cases h _ _ (List.mem_singleton_self _)
  · rw [Activity.bind_of_ok (perform_apply hstart own),
      Activity.bind_of_ok (Activity.attempt_apply work _)] at h ⊢
    -- the transaction is still open when the work has ended
    have hopen : b.endsOnlyIfOpen = true → b.inTransaction (work (c₁, own)).state.1 = true :=
      fun hends => (hkeeps c₁).trans (hopens hends c₁ hstart)
    obtain ⟨c₂, hend⟩ := control_of_close hopen h.right.right
    refine ⟨c₁, c₂, rfl, hend, ?_⟩
    rw [show (work (c₁, own)).state = ((work (c₁, own)).state.1, (work (c₁, own)).state.2) from rfl,
      close_apply hopen hend]
    rfl

/-! ### Whatever the connection answers -/

theorem unitOfWork_of_not_free (hfree : ¬b.Free c) (work : Activity (σ × ρ) α) (own : ρ) :
    b.unitOfWork work (c, own) = work (c, own) := by
  obtain ⟨hjoins, hopen⟩ := Classical.not_imp.mp hfree
  rw [unitOfWork, Activity.bind_of_ok (isOpen_apply b c own)]
  simp [hjoins, hopen, Record.after]

/-- The end of a transaction leaves the outcome of the work, or fails and is the outcome. -/
theorem close_cases (b : Backend σ) (outcome : Except Failure α) (c : σ) (own : ρ) :
    (∃ c' es, (∀ e ∈ es, ∃ control, e = Event.controlled control (.ok ())) ∧
        b.close outcome (c, own) = ⟨outcome, (c', own), es⟩) ∨
      ∃ c' control f,
        b.close outcome (c, own) = ⟨.error f, (c', own), [.controlled control (.error f)]⟩ := by
  by_cases hopen : b.endsOnlyIfOpen = true → b.inTransaction c = true
  · rcases hend : b.control (.ending outcome) c with ⟨f | ⟨⟩, c'⟩
    · exact .inr ⟨c', _, f, close_of_refused hopen hend own⟩
    · exact .inl ⟨c', _, fun e he => ⟨_, List.mem_singleton.mp he⟩, close_apply hopen hend own⟩
  · obtain ⟨hends, hclosed⟩ := Classical.not_imp.mp hopen
    have hclosed := Bool.eq_false_iff.mpr hclosed
    exact .inl ⟨c, [], (fun e he => nomatch he), close_of_closed hends hclosed outcome own⟩

/-- What a unit of work leaves, by what the connection makes of its transaction. -/
inductive UnitLeaves (work : Activity (σ × ρ) α) (own : ρ) : Record (σ × ρ) α → Prop
  | joined (c : σ) : UnitLeaves work own (work (c, own))
  | unbegun (c : σ) (f : Failure) :
    UnitLeaves work own ⟨.error f, (c, own), [.controlled .start (.error f)]⟩
  | ended (c c' : σ) {es : List Event} (h : ∀ e ∈ es, ∃ control, e = .controlled control (.ok ())) :
    UnitLeaves work own ⟨(work (c, own)).outcome, (c', (work (c, own)).state.2),
      .controlled .start (.ok ()) :: ((work (c, own)).events ++ es)⟩
  | unended (c c' : σ) (control : Control) (f : Failure) :
    UnitLeaves work own ⟨.error f, (c', (work (c, own)).state.2),
      .controlled .start (.ok ()) :: ((work (c, own)).events ++ [.controlled control (.error f)])⟩

theorem unitOfWork_leaves (b : Backend σ) (work : Activity (σ × ρ) α) (c : σ) (own : ρ) :
    UnitLeaves work own (b.unitOfWork work (c, own)) := by
  by_cases hfree : b.Free c
  · rw [unitOfWork_eq_transact hfree, transact_eq]
    rcases hstart : b.control .start c with ⟨f | ⟨⟩, c₁⟩
    · rw [Activity.bind_of_error (perform_apply hstart own)]
      exact .unbegun c₁ f
    · rw [Activity.bind_of_ok (perform_apply hstart own),
        Activity.bind_of_ok (Activity.attempt_apply work _)]
      rcases close_cases b (work (c₁, own)).outcome (work (c₁, own)).state.1
        (work (c₁, own)).state.2 with ⟨c₂, es, hes, hclose⟩ | ⟨c₂, control, f, hclose⟩
      · rw [hclose]
        exact .ended c₁ c₂ hes
      · rw [hclose]
        exact .unended c₁ c₂ control f
  · rw [unitOfWork_of_not_free hfree]
    exact .joined c

/-- Whether work inside other work submits and has what that does and has, or the other fails. -/
structure Wraps (inner r : Record (σ × ρ) α) : Prop where
  submissions : Trace.submissions r.events = Trace.submissions inner.events
  events : inner.events ⊆ r.events
  own : r.state.2 = inner.state.2
  outcome : ∀ a, r.outcome = .ok a → inner.outcome = .ok a

/-- A unit of work does not begin, or wraps the work: to begin and to end a transaction submits
nothing. -/
theorem unitOfWork_wraps (b : Backend σ) (work : Activity (σ × ρ) α) (c : σ) (own : ρ) :
    (∃ c' f, b.unitOfWork work (c, own) =
        ⟨.error f, (c', own), [.controlled .start (.error f)]⟩) ∨
      ∃ c', Wraps (work (c', own)) (b.unitOfWork work (c, own)) := by
  generalize hr : b.unitOfWork work (c, own) = r
  have hleaves : UnitLeaves work own r := hr ▸ unitOfWork_leaves b work c own
  have hinner {es fs : List Event} {e : Event} : es ⊆ e :: (es ++ fs) := by simp
  cases hleaves with
  | joined c => exact .inr ⟨c, rfl, List.Subset.refl _, rfl, fun _ h => h⟩
  | unbegun c f => exact .inl ⟨c, f, rfl⟩
  | @ended c c' es hes =>
    have hends : Trace.submissions es = [] := List.filterMap_eq_nil_iff.mpr fun e he => by
      obtain ⟨control, rfl⟩ := hes e he
      rfl
    refine .inr ⟨c, ?_, hinner, rfl, fun _ h => h⟩
    show Trace.submissions ((work (c, own)).events ++ es) = _
    rw [Trace.submissions_append, hends, List.append_nil]
  | unended c c' control f =>
    refine .inr ⟨c, ?_, hinner, rfl, nofun⟩
    show Trace.submissions ((work (c, own)).events ++ [_]) = _
    rw [Trace.submissions_append]
    exact List.append_nil _

end Backend

/-! ## A bare connection -/

/-- A connection that knows whether a transaction is open and nothing else, and refuses the
statements it is told to refuse. -/
def Connection.bare (refuses : Text → Bool) : Connection Bool where
  inTransaction := id
  control
    | .start, false => (.ok (), true)
    | .start, true => (.error (.rejected "a transaction is open".toList), true)
    | .commit, true | .rollback, true => (.ok (), false)
    | .commit, false | .rollback, false => (.error (.rejected "no transaction".toList), false)
  submit statement c := (if refuses statement then .error (.rejected statement) else .ok [], c)

namespace Backend

variable {refuses : Text → Bool}

theorem opens_bare (c : Bool) : (engine (.bare refuses)).Opens c := by
  intro _ c' h
  cases c with
  | false => exact congrArg Prod.snd h.symm
  | true => cases h

theorem closes_bare (c : Bool) : (engine (.bare refuses)).Closes c := by
  intro c' h _
  cases c with
  | false => cases h
  | true => exact congrArg Prod.snd h.symm

theorem keeps_bare (statement : Text) : (engine (.bare refuses)).Keeps statement := fun _ => rfl

end Backend
end SqlInterchange
