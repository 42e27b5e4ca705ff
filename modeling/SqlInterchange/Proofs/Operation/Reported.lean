import SqlInterchange.Operation
import SqlInterchange.Proofs.Trace

/-! # What operations report

An operation does its work and reports the outcome once, after all else: an error is logged and
given to the error callback, a result to the success callback, and what a callback fails with is
the outcome of the operation.  So an operation leaves the record of its work and, behind it, the
events of its report (`reported_apply`).
-/
namespace SqlInterchange
namespace Operation

variable {σ ρ α : Type}

/-- The events of the report of an outcome, and what is left of the outcome after it. -/
def verdict (name : String) (callbacks : Callbacks) (success : α → Success) :
    Except Failure α → List Event × Except Failure (Option α)
  | .ok a =>
    match callbacks.success? with
    | none => ([], .ok (some a))
    | some callback =>
      ([.succeeded (success a)], ((callback (success a)).map .error).getD (.ok (some a)))
  | .error (.error e) =>
    match callbacks.error? with
    | none => ([.logged (.operationFailed name.toList e)], .error (.error e))
    | some callback =>
      ([.logged (.operationFailed name.toList e), .failed e],
        ((callback e).map .error).getD (.ok none))
  | .error f => ([], .error f)

/-- A report is nothing but remarks. -/
theorem remarks_verdict (name : String) (callbacks : Callbacks) (success : α → Success)
    (outcome : Except Failure α) :
    Trace.Remarks (verdict name callbacks success outcome).1 := by
  intro e he
  match outcome with
  | .ok a =>
    cases hcallback : callbacks.success? with
    | none => simp [verdict, hcallback] at he
    | some callback =>
      obtain rfl : e = .succeeded (success a) := by simpa [verdict, hcallback] using he
      exact ⟨rfl, rfl, rfl⟩
  | .error (.error error) =>
    cases hcallback : callbacks.error? with
    | none =>
      obtain rfl : e = .logged (.operationFailed name.toList error) := by
        simpa [verdict, hcallback] using he
      exact ⟨rfl, rfl, rfl⟩
    | some callback =>
      have hcases : e = .logged (.operationFailed name.toList error) ∨ e = .failed error := by
        simpa [verdict, hcallback] using he
      rcases hcases with rfl | rfl <;> exact ⟨rfl, rfl, rfl⟩
  | .error (.rejected detail) => simp [verdict] at he
  | .error (.fault f) => simp [verdict] at he

theorem tell_apply (event : Event) (failure? : Option Failure) (s : σ × ρ) :
    tell event failure? s = ⟨(failure?.map .error).getD (.ok ()), s, [event]⟩ := by
  cases failure? <;> rfl

/-- **Main.** An operation leaves what its work leaves, and reports its outcome. -/
theorem reported_apply (name : String) (callbacks : Callbacks) (success : α → Success)
    (work : Activity (σ × ρ) α) (s : σ × ρ) :
    reported name callbacks success work s =
      ⟨(verdict name callbacks success (work s).outcome).2, (work s).state,
        (work s).events ++ (verdict name callbacks success (work s).outcome).1⟩ := by
  rw [reported, Activity.bind_of_ok (Activity.attempt_apply work s)]
  match houtcome : (work s).outcome with
  | .ok a =>
    cases hcallback : callbacks.success? with
    | none =>
      simp only [verdict, hcallback]
      rfl
    | some callback =>
      have htell := tell_apply (.succeeded (success a)) (callback (success a)) (work s).state
      simp only [verdict, hcallback]
      cases hf : callback (success a) with rw [hf] at htell
      | none => exact congrArg _ (Activity.bind_of_ok htell)
      | some f => exact congrArg _ (Activity.bind_of_error htell)
  | .error (.error e) =>
    have hlog : Activity.log (.operationFailed name.toList e) (work s).state =
        ⟨.ok (), (work s).state, [.logged (.operationFailed name.toList e)]⟩ := rfl
    cases hcallback : callbacks.error? with
    | none =>
      simp only [verdict, hcallback]
      rw [Activity.bind_of_ok hlog]
      rfl
    | some callback =>
      have htell := tell_apply (.failed e) (callback e) (work s).state
      simp only [verdict, hcallback]
      rw [Activity.bind_of_ok hlog]
      cases hf : callback e with rw [hf] at htell
      | none => exact congrArg _ (congrArg _ (Activity.bind_of_ok htell))
      | some f => exact congrArg _ (congrArg _ (Activity.bind_of_error htell))
  | .error (.rejected detail) => rfl
  | .error (.fault f) => rfl

/-- An operation has a result only if its work has it. -/
theorem outcome_of_reported {name : String} {callbacks : Callbacks} {success : α → Success}
    {work : Activity (σ × ρ) α} {s : σ × ρ} {a : α}
    (h : (reported name callbacks success work s).outcome = .ok (some a)) :
    (work s).outcome = .ok a := by
  rw [reported_apply] at h
  simp only at h
  match houtcome : (work s).outcome with
  | .ok a' =>
    rw [houtcome, verdict] at h
    cases hcallback : callbacks.success? with
    | none =>
      rw [hcallback] at h
      cases h
      rfl
    | some callback =>
      simp only [hcallback] at h
      cases hf : callback (success a') with rw [hf] at h
      | none =>
        cases h
        rfl
      | some f => cases h
  | .error (.error e) =>
    rw [houtcome, verdict] at h
    cases hcallback : callbacks.error? with
    | none =>
      rw [hcallback] at h
      cases h
    | some callback =>
      simp only [hcallback] at h
      cases hf : callback e with rw [hf] at h
      | none => cases h
      | some f => cases h
  | .error (.rejected detail) =>
    rw [houtcome] at h
    cases h
  | .error (.fault f) =>
    rw [houtcome] at h
    cases h

/-- The name of an operation, and the log of its work, make no difference but in the log. -/
theorem reported_agree {work work' : Activity (σ × ρ) α} (name name' : String)
    (callbacks : Callbacks) (success : α → Success) (h : work.AgreeButLog work') :
    (reported name callbacks success work).AgreeButLog
      (reported name' callbacks success work') := by
  refine h.attempt.bind fun result => ?_
  match result with
  | .ok a => exact .refl _
  | .error (.error e) => exact .log _ _ _
  | .error (.rejected detail) => exact .refl _
  | .error (.fault f) => exact .refl _

/-! ## Steps of an import -/

variable {call : Call σ}

theorem backend_apply {b : Backend σ} (hb : call.registry.adapt call.handle = .ok b)
    (s : σ × ρ) : backend call s = ⟨.ok b, s, []⟩ := by
  rw [backend, hb]
  rfl

theorem backend_bind_apply {β : Type} {call : Call σ} {b : Backend σ}
    (hb : call.registry.adapt call.handle = .ok b) (k : Backend σ → Activity (σ × ρ) β)
    (s : σ × ρ) : (backend call >>= k) s = k b s :=
  Activity.bind_of_ok (backend_apply hb s)

theorem backend_of_error {call : Call σ} {e : Error}
    (he : call.registry.adapt call.handle = .error e) (k : Backend σ → Activity (σ × ρ) α)
    (s : σ × ρ) : (backend call >>= k) s = ⟨.error (.error e), s, []⟩ := by
  refine Activity.bind_of_error ?_
  rw [backend, he]
  rfl

theorem compiled_apply {source : Source} {d : Document} (hd : Document.parse source = .ok d)
    (scope : Scope) (s : σ × ρ) :
    compiled scope source s = ⟨.ok (d.compile scope), s, (d.compileLog scope).map .logged⟩ := by
  have hparsed : (parsed source : Activity (σ × ρ) Document) s = ⟨.ok d, s, []⟩ := by
    rw [parsed, hd]
    rfl
  have hlog : (Activity.logAll (d.compileLog scope) : Activity (σ × ρ) Unit) s =
      ⟨.ok (), s, (d.compileLog scope).map .logged⟩ := rfl
  rw [compiled, Activity.bind_of_ok hparsed, Activity.bind_of_ok hlog, Activity.pure_apply]
  simp [Record.after]

end Operation
end SqlInterchange
