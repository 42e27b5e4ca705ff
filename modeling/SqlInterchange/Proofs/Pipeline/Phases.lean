import SqlInterchange.Proofs.Pipeline.Run

/-! # The two phases of an import

The main statements of a document run first; the deferred ones run after them, in a unit of work of
their own, and only if the main unit has been committed.  The courses of the two runs, the second
of which may be missing, join to one course of all statements (`Courses.Of`), and counting goes on
from the first to the second.
-/
namespace SqlInterchange
namespace Pipeline

/-- The run of the main statements. -/
def mainPhase (compiled : Compiled) : Pipeline :=
  .start "main".toList compiled.main 0 (some compiled.total)

/-- The run of the deferred statements, after all main statements. -/
def deferredPhase (compiled : Compiled) : Pipeline :=
  .start "deferred".toList compiled.deferred compiled.main.length (some compiled.total)

theorem executedInCall_mainPhase (compiled : Compiled) :
    (mainPhase compiled).executedInCall = 0 := executedInCall_start ..

theorem executedInCall_deferredPhase (compiled : Compiled) :
    (deferredPhase compiled).executedInCall = compiled.main.length := executedInCall_start ..

/-- The courses of the two phases; the deferred phase may never have begun. -/
structure Courses where
  /-- The course of the main phase. -/
  main : Course
  /-- The course of the deferred phase. -/
  deferred? : Option Course

namespace Courses

/-- How many statements are done. -/
def done (x : Courses) : Nat := x.main.done.length + (x.deferred?.map (·.done.length)).getD 0

/-- How the statements ended. -/
def ending (x : Courses) : Ending := (x.deferred?.map (·.ending)).getD x.main.ending

/-- The statements submitted. -/
def submitted (x : Courses) : List Text :=
  x.main.submitted ++ (x.deferred?.map (·.submitted)).getD []

/-- Which courses the statements of a document may take: the deferred phase begins if and only if
the main phase is complete and there is something to do. -/
inductive Of (progress? : Option Progress) (compiled : Compiled) : Courses → Prop
  | stopped {first : Course} (hfirst : first.Of progress? compiled.total 0 compiled.main)
    (h : first.ending.isComplete = false) : Of progress? compiled ⟨first, none⟩
  | single {first : Course} (hfirst : first.Of progress? compiled.total 0 compiled.main)
    (h : first.ending.isComplete) (hdeferred : compiled.deferred = []) :
    Of progress? compiled ⟨first, none⟩
  | both {first second : Course} (hfirst : first.Of progress? compiled.total 0 compiled.main)
    (h : first.ending.isComplete) (hdeferred : compiled.deferred ≠ [])
    (hsecond : second.Of progress? compiled.total compiled.main.length compiled.deferred) :
    Of progress? compiled ⟨first, some second⟩

variable {progress? : Option Progress} {compiled : Compiled} {x : Courses}

/-! ## The two courses as one -/

theorem Of.main_of (h : x.Of progress? compiled) :
    x.main.Of progress? compiled.total 0 compiled.main := by
  cases h with
  | stopped hfirst h => exact hfirst
  | single hfirst h hdeferred => exact hfirst
  | both hfirst h hdeferred hsecond => exact hfirst

theorem Of.deferred_of (h : x.Of progress? compiled) {second : Course}
    (hsecond : second ∈ x.deferred?) :
    second.Of progress? compiled.total compiled.main.length compiled.deferred := by
  cases h with
  | stopped hfirst h => cases hsecond
  | single hfirst h hdeferred => cases hsecond
  | both hfirst h hdeferred hof =>
    cases hsecond
    exact hof

/-- The deferred phase begins if and only if the main unit of work is committed and there is
something to do. -/
theorem Of.begins_iff (h : x.Of progress? compiled) :
    x.deferred?.isSome ↔ x.main.ending.control = .commit ∧ compiled.deferred ≠ [] := by
  rw [Ending.control_eq_commit]
  cases h with
  | stopped hfirst h => simp [h]
  | single hfirst h hdeferred => simp [hdeferred]
  | both hfirst h hdeferred hsecond => simp [h, hdeferred]

/-- Once the deferred phase has begun, the main phase is complete. -/
theorem Of.main_isComplete (h : x.Of progress? compiled) {second : Course}
    (hsecond : second ∈ x.deferred?) : x.main.ending.isComplete :=
  Ending.control_eq_commit.mp (h.begins_iff.mp (Option.isSome_of_mem hsecond)).1

theorem Of.length_main_done (h : x.Of progress? compiled) {second : Course}
    (hsecond : second ∈ x.deferred?) : x.main.done.length = compiled.main.length :=
  (h.main_of.isComplete_iff.mp (h.main_isComplete hsecond)).1

/-- What is submitted is the first of all statements. -/
theorem Of.exists_rest (h : x.Of progress? compiled) :
    ∃ rest, x.submitted ++ rest = compiled.statements := by
  obtain ⟨first, _ | second⟩ := x
  · refine ⟨first.rest ++ compiled.deferred, ?_⟩
    rw [Compiled.statements, ← h.main_of.submitted_append_rest, submitted]
    simp
  · refine ⟨second.rest, ?_⟩
    rw [submitted, h.main_of.submitted_eq (h.main_isComplete rfl), Compiled.statements,
      ← (h.deferred_of rfl).submitted_append_rest]
    exact List.append_assoc ..

theorem Of.length_submitted (h : x.Of progress? compiled) :
    x.submitted.length = x.done + x.ending.attempted.length := by
  obtain ⟨first, _ | second⟩ := x
  · simp [submitted, Course.submitted, done, ending]
  · have hmain := h.length_main_done rfl
    rw [submitted, h.main_of.submitted_eq (h.main_isComplete rfl), List.length_append, ← hmain]
    simp [Course.submitted, done, ending, Nat.add_assoc]

theorem Of.submitted_eq_take (h : x.Of progress? compiled) :
    x.submitted = compiled.statements.take (x.done + x.ending.attempted.length) := by
  obtain ⟨rest, hrest⟩ := h.exists_rest
  rw [← h.length_submitted, ← hrest, List.take_left]

/-- The statement that failed, in whichever phase, is the one after all those done. -/
theorem Of.getElem?_attempted (h : x.Of progress? compiled) {statement : Text}
    (hs : statement ∈ x.ending.attempted) : compiled.statements[x.done]? = some statement := by
  obtain ⟨first, _ | second⟩ := x
  · have hnext := h.main_of.getElem?_attempted hs
    exact (List.getElem?_append_left (List.getElem?_eq_some_iff.mp hnext).1).trans hnext
  · have hmain := h.length_main_done rfl
    have hnext := (h.deferred_of rfl).getElem?_attempted hs
    simp only [Compiled.statements, done, Option.map_some, Option.getD_some, hmain]
    rw [List.getElem?_append_right (by omega), Nat.add_sub_cancel_left]
    exact hnext

/-- Everything is done if and only if both phases are and no call of the callback has failed. -/
theorem Of.isComplete_iff (h : x.Of progress? compiled) :
    x.ending.isComplete ↔ x.done = compiled.total ∧
      ∀ i < compiled.total, told progress? (i + 1) compiled.total = .ok () := by
  have hfirst : x.main.ending.isComplete ↔ x.main.done.length = compiled.main.length ∧
      ∀ i < compiled.main.length, told progress? (i + 1) compiled.total = .ok () := by
    simpa using h.main_of.isComplete_iff
  have hbegins := h.begins_iff
  obtain ⟨first, _ | second⟩ := x
  · -- the main phase is the last one: it failed, or there is no other
    by_cases hdeferred : compiled.deferred = []
    · have htotal : compiled.total = compiled.main.length := by
        simp [Compiled.total, hdeferred]
      simpa [ending, done, htotal] using hfirst
    · -- it failed, and what is done does not reach the deferred statements
      have hstopped : first.ending.isComplete = false := by
        simpa [Ending.control_eq_commit, hdeferred] using hbegins
      refine iff_of_false (by simpa [ending] using hstopped) fun ⟨hdone, _⟩ => ?_
      have hle : first.done.length ≤ compiled.main.length := by
        have hlength := congrArg List.length h.main_of.submitted_append_rest
        simp only [Course.submitted, List.length_append, List.length_map] at hlength
        omega
      have hpos := List.length_pos_iff.mpr hdeferred
      simp only [done, Option.map_none, Option.getD_none, Compiled.total] at hdone
      omega
  · -- the main phase is complete, so all depends on the deferred one
    have hmain := hfirst.mp (h.main_isComplete rfl)
    have hsecond := (h.deferred_of rfl).isComplete_iff
    simp only [ending, done, Option.map_some, Option.getD_some, hmain.1, Compiled.total,
      Nat.add_left_cancel_iff] at hsecond ⊢
    rw [hsecond]
    refine and_congr_right fun _ => ⟨fun htold i hi => ?_, fun htold i hi => ?_⟩
    · by_cases hlt : i < compiled.main.length
      · exact hmain.2 i hlt
      · have := htold (i - compiled.main.length) (by omega)
        rwa [show (compiled.main.length : Int) + ((i - compiled.main.length : Nat) : Int) + 1 =
          i + 1 by omega] at this
    · have := htold (compiled.main.length + i) (by omega)
      rwa [Int.natCast_add] at this

/-! ## The trace and the result -/

/-- The trace of the two runs. -/
def trace {σ : Type} (b : Backend σ) (progress? : Option Progress) (compiled : Compiled)
    (x : Courses) : List Event :=
  x.main.trace b progress? (mainPhase compiled) ++
    (x.deferred?.map (·.trace b progress? (deferredPhase compiled))).getD []

/-- The result of the two runs. -/
def result (compiled : Compiled) (x : Courses) : Except Failure Nat :=
  match x.deferred? with
  | none => x.main.result (mainPhase compiled)
  | some second => (second.result (deferredPhase compiled)).map (x.main.done.length + ·)

variable {σ : Type} {b : Backend σ}

theorem submissions_trace : Trace.submissions (x.trace b progress? compiled) = x.submitted := by
  rw [trace, Trace.submissions_append, Course.submissions_trace, submitted]
  cases x.deferred? with
  | none => rfl
  | some second => exact congrArg (_ ++ ·) Course.submissions_trace

theorem Of.progressCalls_trace (h : x.Of progress? compiled) :
    Trace.progressCalls (x.trace b progress? compiled) =
      Course.callsFrom progress? compiled.total 0 x.done := by
  rw [trace, Trace.progressCalls_append, Course.progressCalls_trace, executedInCall_mainPhase]
  obtain ⟨first, _ | second⟩ := x
  · exact List.append_nil _
  · -- the calls of the second phase go on where those of the first one stop
    have hmain := h.length_main_done rfl
    have hcalls : Trace.progressCalls (second.trace b progress? (deferredPhase compiled)) = _ :=
      Course.progressCalls_trace
    rw [executedInCall_deferredPhase] at hcalls
    simp only [done, Option.map_some, Option.getD_some, hcalls]
    rw [Course.callsFrom_append, hmain, Int.zero_add]
    rfl

/-- If everything is done, the result is the number of all statements. -/
theorem Of.result_of_isComplete (h : x.Of progress? compiled) (hcomplete : x.ending.isComplete) :
    x.result compiled = .ok compiled.total := by
  rw [← (h.isComplete_iff.mp hcomplete).1]
  obtain ⟨first, _ | second⟩ := x
  · rw [result, Course.result_of_isComplete hcomplete]
    exact congrArg Except.ok (Nat.zero_add _)
  · have hsecond := Course.result_of_isComplete hcomplete (deferredPhase compiled)
    simp only [result, done, Option.map_some, Option.getD_some, hsecond, Except.map]
    exact congrArg (fun n => Except.ok (_ + n)) (Nat.zero_add _)

/-- If a statement is refused, the result says which one, and how many are done. -/
theorem Of.result_of_refused (h : x.Of progress? compiled) {statement detail : Text}
    (he : x.ending = .refused statement detail) :
    ∃ e : ExecutionError, x.result compiled = .error (.error (.execution e)) ∧
      e.statement = statement ∧ e.detail = detail ∧ e.executed = x.done := by
  obtain ⟨first, _ | second⟩ := x
  · have hresult := Course.result_of_refused he (mainPhase compiled)
    refine ⟨_, hresult, rfl, rfl, ?_⟩
    show executedInCall _ = _
    rw [executedInCall_follow, executedInCall_mainPhase, Int.zero_add]
    rfl
  · have hmain := h.length_main_done rfl
    have hresult := Course.result_of_refused he (deferredPhase compiled)
    refine ⟨_, congrArg (Except.map _) hresult, rfl, rfl, ?_⟩
    show executedInCall _ = _
    rw [executedInCall_follow, executedInCall_deferredPhase]
    simp only [done, Option.map_some, Option.getD_some, hmain, Int.natCast_add]

end Courses

/-! ## The run -/

variable {σ ρ : Type} {b : Backend σ} {progress? : Option Progress} {compiled : Compiled} {c : σ}

/-- A fresh run takes a course of its statements and drops its pipeline. -/
theorem runFresh_takes {p : Pipeline} {own : ρ} (hp : p.state = .pending) (hfree : b.Free c)
    (hopens : b.Opens c) (hkeeps : ∀ statement ∈ p.queue, b.Keeps statement)
    (h : Trace.Controlled (runFresh b progress? p (c, own)).events) :
    ∃ x c₁ c₂, Course.Of progress? p.total p.executedInCall p.queue x ∧
      b.control x.ending.control c₁ = (.ok (), c₂) ∧
      runFresh b progress? p (c, own) = ⟨x.result p, (c₂, own), x.trace b progress? p⟩ := by
  obtain ⟨x, c₁, c₂, hx, hend, hrun⟩ := run_takes hp hfree hopens hkeeps h
  refine ⟨x, c₁, c₂, hx, hend, ?_⟩
  show (Record.mk _ _ _ : Record (σ × ρ) Nat) = _
  rw [hrun]

theorem runBoth_eq (b : Backend σ) (progress? : Option Progress) (compiled : Compiled) :
    (runBoth b progress? compiled : Activity (σ × ρ) Nat) =
      runFresh b progress? (mainPhase compiled) >>= fun main =>
        if compiled.deferred.isEmpty then pure main
        else
          runFresh b progress?
              (.start "deferred".toList compiled.deferred main (some compiled.total)) >>=
            fun deferred => pure (main + deferred) := rfl

/-- **Main.** The statements of a document take two courses, the second one only after the first
has been committed. -/
theorem runBoth_takes {own : ρ} (hfree : b.Free c) (hopens : ∀ c, b.Opens c)
    (hcloses : ∀ c, b.Closes c) (hkeeps : ∀ statement ∈ compiled.statements, b.Keeps statement)
    (h : Trace.Controlled (runBoth b progress? compiled (c, own)).events) :
    ∃ x c', Courses.Of progress? compiled x ∧
      runBoth b progress? compiled (c, own) =
        ⟨x.result compiled, (c', own), x.trace b progress? compiled⟩ := by
  rw [runBoth_eq] at h ⊢
  have hmainKeeps : ∀ statement ∈ (mainPhase compiled).queue, b.Keeps statement :=
    fun s hs => hkeeps s (List.mem_append_left _ hs)
  obtain ⟨first, c₁, c₂, hfirst, hend, hrun⟩ :=
    runFresh_takes rfl hfree (hopens c) hmainKeeps h.of_bind
  rw [executedInCall_mainPhase] at hfirst
  cases hcomplete : first.ending.isComplete with
  | false =>
    -- the main phase fails, and the import with it
    obtain ⟨f, hf⟩ := Course.result_of_not_isComplete hcomplete (mainPhase compiled)
    refine ⟨⟨first, none⟩, c₂, .stopped hfirst hcomplete, ?_⟩
    rw [Activity.bind_of_error (hrun.trans (by rw [hf])), Courses.trace, Courses.result, hf]
    simp
  | true =>
    have hresult := Course.result_of_isComplete hcomplete (mainPhase compiled)
    have hdone : (mainPhase compiled).executed + first.done.length = compiled.main.length :=
      (Nat.zero_add _).trans (hfirst.isComplete_iff.mp hcomplete).1
    rw [hresult, hdone] at hrun
    rw [Activity.bind_of_ok hrun] at h ⊢
    by_cases hdeferred : compiled.deferred = []
    · refine ⟨⟨first, none⟩, c₂, .single hfirst hcomplete hdeferred, ?_⟩
      simp [hdeferred, Courses.trace, Courses.result, hresult, hdone, Activity.pure_apply,
        Record.after]
    · -- the main unit has been committed, so the deferred one begins a transaction of its own
      have hcontrol := Ending.control_eq_commit.mpr hcomplete
      have hfree₂ : b.Free c₂ := hcloses c₁ c₂ (hcontrol ▸ hend)
      have hdeferredKeeps : ∀ statement ∈ (deferredPhase compiled).queue, b.Keeps statement :=
        fun s hs => hkeeps s (List.mem_append_right _ hs)
      rw [if_neg (by simpa using hdeferred), ← deferredPhase] at h ⊢
      obtain ⟨second, -, c₃, hsecond, -, hrun₂⟩ :=
        runFresh_takes (p := deferredPhase compiled) rfl hfree₂ (hopens c₂) hdeferredKeeps
          h.right.of_bind
      rw [executedInCall_deferredPhase] at hsecond
      refine ⟨⟨first, some second⟩, c₃, .both hfirst hcomplete hdeferred hsecond, ?_⟩
      cases hresult₂ : second.result (deferredPhase compiled) with
      | error f =>
        have hboth : Courses.result compiled ⟨first, some second⟩ = .error f := by
          simp only [Courses.result, hresult₂, Except.map]
        rw [Activity.bind_of_error (hrun₂.trans (by rw [hresult₂])), hboth]
        rfl
      | ok n =>
        have hmain := (hfirst.isComplete_iff.mp hcomplete).1
        have hboth : Courses.result compiled ⟨first, some second⟩ =
            .ok (compiled.main.length + n) := by
          simp only [Courses.result, hresult₂, Except.map]
          exact congrArg (fun m => Except.ok (m + n)) hmain
        rw [Activity.bind_of_ok (hrun₂.trans (by rw [hresult₂])), hboth, Activity.pure_apply]
        simp [Record.after, Courses.trace]

end Pipeline
end SqlInterchange
