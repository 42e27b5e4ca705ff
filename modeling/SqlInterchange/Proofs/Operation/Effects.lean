import SqlInterchange.Proofs.Operation.Reported
import SqlInterchange.Proofs.Pipeline.Run
import SqlInterchange.Proofs.Triple

/-! # What an import leaves behind

An import of a document submits one statement after the other.  If each of them is executed, where
the one before it has left the database, then the import succeeds, and the database is left as the
last statement leaves it (`triple_importDocument`).

`Executes` says what statements make of the database, and leaves open what is known of it: where
the statements begin something is known of the connection, and where they end something else.
-/
namespace SqlInterchange

open Activity (Triple)

variable {σ ρ ω β : Type} {b : Backend σ} {I J K : σ → Prop} {statements : List Text}
  {progress? : Option Progress}

namespace Backend

/-- Whether statements are all executed where `I` holds and leave a connection of which `J`
holds. -/
inductive Executes (b : Backend σ) : (σ → Prop) → List Text → (σ → Prop) → Prop
  | nil (I : σ → Prop) : Executes b I [] I
  | cons {I K J : σ → Prop} {statement : Text} {statements : List Text}
    (hfirst : ∀ c, I c → ∃ rows c', b.submit statement c = (.ok rows, c') ∧ K c')
    (hrest : Executes b K statements J) : Executes b I (statement :: statements) J

theorem Executes.append {more : List Text} (h : b.Executes I statements K)
    (hmore : b.Executes K more J) : b.Executes I (statements ++ more) J := by
  induction h with
  | nil I => exact hmore
  | cons hfirst _ ih => exact .cons hfirst (ih hmore)

/-- Whether the statement for `x` is executed and makes `effect w x` of what is `w`. -/
def Effects (b : Backend σ) (Holds : ω → σ → Prop) (effect : ω → β → ω) (statement : β → Text)
    (x : β) : Prop :=
  ∀ w c, Holds w c →
    ∃ rows c', b.submit (statement x) c = (.ok rows, c') ∧ Holds (effect w x) c'

theorem Executes.of_effects {Holds : ω → σ → Prop} {effect : ω → β → ω} {statement : β → Text}
    {xs : List β} (h : ∀ x ∈ xs, b.Effects Holds effect statement x) (w : ω) :
    b.Executes (Holds w) (xs.map statement) (Holds (xs.foldl effect w)) := by
  induction xs generalizing w with
  | nil => exact .nil (Holds w)
  | cons x xs ih =>
    obtain ⟨hx, hxs⟩ := List.forall_mem_cons.mp h
    exact .cons (hx w) (ih hxs (effect w x))

end Backend

namespace Pipeline

/-- Whether the progress callback, if there is one, lets a run go on. -/
def LetsRun (progress? : Option Progress) : Prop :=
  ∀ executed total, told progress? executed total = .ok ()

/-- Whether a run is going on and `I` holds of the connection. -/
def Reached (I : σ → Prop) (s : σ × Pipeline) : Prop := I s.1 ∧ s.2.state = .running

theorem triple_update (I : σ → Prop) {f : Pipeline → Pipeline} (hf : ∀ p, (f p).state = p.state) :
    Triple (Reached I) (update f : Activity (σ × Pipeline) Unit) fun _ => Reached I :=
  fun s hs => ⟨(), (s.1, f s.2), [], rfl, hs.1, (hf s.2).trans hs.2⟩

theorem triple_report (h : LetsRun progress?) :
    Triple (Reached I) (report progress?) fun _ => Reached I := by
  rintro ⟨c, p⟩ hs
  have hreport := report_apply (c := c) hs.2 progress?
  rw [h] at hreport
  exact ⟨(), (c, p), _, hreport, hs⟩

theorem triple_execute {statement : Text}
    (h : ∀ c, I c → ∃ rows c', b.submit statement c = (.ok rows, c') ∧ K c') :
    Triple (Reached I) (b.execute statement) fun answer s =>
      (∃ rows, answer = .ok rows) ∧ Reached K s := by
  rintro ⟨c, p⟩ ⟨hc, hp⟩
  obtain ⟨rows, c', hsubmit, hc'⟩ := h c hc
  exact ⟨.ok rows, (c', p), _, Backend.execute_of_ok hsubmit p, ⟨rows, rfl⟩, hc', hp⟩

theorem triple_drain (h : b.Executes I statements J) (hprogress : LetsRun progress?) :
    Triple (Reached I) (drain b progress? statements) fun _ => Reached J := by
  induction h with
  | nil I => exact .pure fun _ hs => hs
  | @cons I K J statement statements hfirst _ ih =>
    have htaken := triple_update I (f := fun p => { p with queue := statements }) fun _ => rfl
    have hcounted := triple_update K (f := fun p => { p with executed := p.executed + 1 })
      fun _ => rfl
    rw [drain]
    refine htaken.bind fun _ => (triple_execute hfirst).bind fun answer => .lift ?_
    rintro ⟨rows, rfl⟩
    exact hcounted.bind fun _ => (triple_report hprogress).bind fun _ => ih

/-- A run whose statements are executed succeeds. -/
theorem triple_runFresh {p : Pipeline} (hp : p.state = .pending) (hbegins : b.Begins I)
    (hcommits : b.Commits J) (h : b.Executes I p.queue J) (hprogress : LetsRun progress?) :
    Triple (fun s : σ × ρ => I s.1) (runFresh b progress? p) fun _ s => J s.1 := by
  have hunit : Triple (Reached I) (b.unitOfWork (drain b progress? p.queue)) fun _ =>
      Reached J := by
    refine Backend.triple_unitOfWork ?_ (triple_drain h hprogress) ?_
    · rintro p' c ⟨hc, hp'⟩ hfree
      obtain ⟨c', hcontrol, hc'⟩ := hbegins c hc hfree
      exact ⟨c', hcontrol, hc', hp'⟩
    · rintro _ p' c ⟨hc, hp'⟩ hopen
      obtain ⟨c', hcontrol, hc'⟩ := hcommits c hc hopen
      exact ⟨c', hcontrol, hc', hp'⟩
  rintro ⟨c, own⟩ hc
  obtain ⟨_, s', es, hr, hc', -⟩ := hunit (c, p.begun) ⟨hc, rfl⟩
  exact ⟨s'.2.executed, (s'.1, own), _, runFresh_apply hp hr own, hc'⟩

/-- The two runs of a document succeed if the statements of both are executed. -/
theorem triple_runBoth {compiled : Compiled} (hbegins : b.Begins I)
    (hbetween : b.Commits K ∧ b.Begins K) (hcommits : b.Commits J)
    (hmain : b.Executes I compiled.main K) (hdeferred : b.Executes K compiled.deferred J)
    (hprogress : LetsRun progress?) :
    Triple (fun s : σ × ρ => I s.1) (runBoth b progress? compiled) fun _ s => J s.1 := by
  have hfirst : Triple (fun s : σ × ρ => I s.1)
      (runFresh b progress? (.start "main".toList compiled.main 0 (some compiled.total)))
      fun _ s => K s.1 := triple_runFresh rfl hbegins hbetween.1 hmain hprogress
  refine hfirst.bind fun main => ?_
  by_cases hnone : compiled.deferred.isEmpty
  · rw [if_pos hnone]
    rw [List.isEmpty_iff.mp hnone] at hdeferred
    cases hdeferred
    exact .pure fun _ hs => hs
  · rw [if_neg hnone]
    have hsecond : Triple (fun s : σ × ρ => K s.1)
        (runFresh b progress? (.start "deferred".toList compiled.deferred main
          (some compiled.total))) fun _ s => J s.1 :=
      triple_runFresh rfl hbetween.2 hcommits hdeferred hprogress
    exact hsecond.bind fun _ => .pure fun _ hs => hs

end Pipeline

namespace Operation

/-- Whether the callbacks of a call let it take its course. -/
structure LetsGo (callbacks : Callbacks) : Prop where
  results : TakesResults callbacks
  progress : Pipeline.LetsRun callbacks.progress?

/-- **Main.** An import whose statements are executed succeeds and leaves what they leave. -/
theorem triple_importDocument {call : Call σ} {source : Source} {d : Document}
    (hb : call.registry.adapt call.handle = .ok b) (hcallbacks : LetsGo call.callbacks)
    (hd : Document.parse source = .ok d) (hbegins : b.Begins I)
    (hbetween : b.Commits K ∧ b.Begins K) (hcommits : b.Commits J)
    (hmain : b.Executes I (d.compile (.ofOptions call.options)).main K)
    (hdeferred : b.Executes K (d.compile (.ofOptions call.options)).deferred J) :
    Triple (fun s : σ × ρ => I s.1) (importDocument call source) fun n? s =>
      n?.isSome ∧ J s.1 := by
  have hcompiled : Triple (fun s : σ × ρ => I s.1)
      (compiled (.ofOptions call.options) source) fun c s =>
        c = d.compile (.ofOptions call.options) ∧ I s.1 :=
    fun s hs => ⟨_, s, _, compiled_apply hd _ s, rfl, hs⟩
  have hwork : Triple (fun s : σ × ρ => I s.1)
      (compiled (.ofOptions call.options) source >>= Pipeline.runBoth b call.callbacks.progress?)
      fun _ s => J s.1 := by
    refine hcompiled.bind fun c => .lift ?_
    rintro rfl
    exact Pipeline.triple_runBoth hbegins hbetween hcommits hmain hdeferred hcallbacks.progress
  refine (triple_reported hcallbacks.results (triple_backend hb hwork)).weaken ?_
  rintro n? s ⟨n, rfl, hs⟩
  exact ⟨rfl, hs⟩

end Operation
end SqlInterchange
