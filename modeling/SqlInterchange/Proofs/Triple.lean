import SqlInterchange.Proofs.Operation.Reported
import SqlInterchange.Proofs.Pipeline.UnitOfWork

/-! # Triples

A triple says that an activity succeeds: begun in a state of which `P` holds it has a result, and
`Q` holds of the result and of the state that it ends in.  Triples compose along the parts of an
activity, so what an export or an import does is found from what the connection does at each
question and each statement.

The rules for units of work and for reports say when these leave the triple of their work as it
is: when the connection lets transactions begin and end, and when no success callback fails.
-/
namespace SqlInterchange
namespace Activity

variable {S α β : Type}

/-- Whether an activity that begins where `P` holds has a result, such that `Q` holds of it and of
the state at the end. -/
def Triple (P : S → Prop) (p : Activity S α) (Q : α → S → Prop) : Prop :=
  ∀ s, P s → ∃ a s' es, p s = ⟨.ok a, s', es⟩ ∧ Q a s'

namespace Triple

variable {P : S → Prop} {p : Activity S α} {k : α → Activity S β} {Q : α → S → Prop}
  {R : β → S → Prop}

theorem pure {a : α} (h : ∀ s, P s → Q a s) : Triple P (Pure.pure a) Q :=
  fun s hs => ⟨a, s, [], rfl, h s hs⟩

theorem bind (hp : Triple P p Q) (hk : ∀ a, Triple (Q a) (k a) R) : Triple P (p >>= k) R := by
  intro s hs
  obtain ⟨a, s', es, hps, ha⟩ := hp s hs
  obtain ⟨b, s'', es', hks, hb⟩ := hk a s' ha
  refine ⟨b, s'', es ++ es', ?_, hb⟩
  rw [bind_of_ok hps, hks]
  rfl

theorem weaken {Q' : α → S → Prop} (h : Triple P p Q) (hQ : ∀ a s, Q a s → Q' a s) :
    Triple P p Q' := by
  intro s hs
  obtain ⟨a, s', es, hps, ha⟩ := h s hs
  exact ⟨a, s', es, hps, hQ a s' ha⟩

/-- What does not depend on the state may be used to find a triple. -/
theorem lift {φ : Prop} (h : φ → Triple P p Q) : Triple (fun s => φ ∧ P s) p Q :=
  fun s hs => h hs.1 s hs.2

theorem attempt (h : Triple P p Q) :
    Triple P p.attempt fun outcome s => ∃ a, outcome = .ok a ∧ Q a s := by
  intro s hs
  obtain ⟨a, s', es, hps, ha⟩ := h s hs
  refine ⟨.ok a, s', es, ?_, a, rfl, ha⟩
  rw [attempt_apply, hps]

theorem logAll (entries : List LogEntry) : Triple P (Activity.logAll entries) fun _ => P :=
  fun s hs => ⟨(), s, _, rfl, hs⟩

theorem log (entry : LogEntry) : Triple P (Activity.log entry) fun _ => P :=
  fun s hs => ⟨(), s, _, rfl, hs⟩

end Triple
end Activity

open Activity (Triple)

variable {σ ρ α : Type}

namespace Backend

variable {b : Backend σ} {P : σ × ρ → Prop} {Q : α → σ × ρ → Prop} {work : Activity (σ × ρ) α}

/-- Whether a transaction begins, and keeps `P`, unless one is open that a unit of work joins. -/
def Begins (b : Backend σ) (P : σ → Prop) : Prop :=
  ∀ c, P c → b.Free c → ∃ c', b.control .start c = (.ok (), c') ∧ P c'

/-- Whether a transaction is committed, and keeps `P`, unless the backend sees that none is open. -/
def Commits (b : Backend σ) (P : σ → Prop) : Prop :=
  ∀ c, P c → (b.endsOnlyIfOpen = true → b.inTransaction c = true) →
    ∃ c', b.control .commit c = (.ok (), c') ∧ P c'

theorem triple_start (h : ∀ own, b.Begins fun c => P (c, own)) :
    Triple (fun s => b.Free s.1 ∧ P s) (b.perform .start) fun _ => P := by
  rintro ⟨c, own⟩ ⟨hfree, hP⟩
  obtain ⟨c', hcontrol, hP'⟩ := h own c hP hfree
  exact ⟨(), (c', own), _, perform_apply hcontrol own, hP'⟩

theorem triple_close {a : α} (h : ∀ own, b.Commits fun c => Q a (c, own)) :
    Triple (Q a) (b.close (.ok a)) Q := by
  rintro ⟨c, own⟩ hQ
  by_cases hopen : b.endsOnlyIfOpen = true → b.inTransaction c = true
  · obtain ⟨c', hcontrol, hQ'⟩ := h own c hQ hopen
    have hend : b.control (.ending (.ok a : Except Failure α)) c = (.ok (), c') := hcontrol
    exact ⟨a, (c', own), _, close_apply hopen hend own, hQ'⟩
  · obtain ⟨hends, hclosed⟩ := Classical.not_imp.mp hopen
    have hclosed := Bool.eq_false_iff.mpr hclosed
    exact ⟨a, (c, own), [], close_of_closed hends hclosed (.ok a) own, hQ⟩

/-- A unit of work succeeds if its work does. -/
theorem triple_unitOfWork (hstart : ∀ own, b.Begins fun c => P (c, own))
    (hwork : Triple P work Q) (hcommit : ∀ a own, b.Commits fun c => Q a (c, own)) :
    Triple P (b.unitOfWork work) Q := by
  have htransact : Triple (fun s => b.Free s.1 ∧ P s) (b.transact work) Q := by
    rw [transact_eq]
    refine (triple_start hstart).bind fun _ => hwork.attempt.bind fun outcome => ?_
    rintro s ⟨a, rfl, hs⟩
    exact triple_close (hcommit a) s hs
  rintro ⟨c, own⟩ hP
  by_cases hfree : b.Free c
  · rw [unitOfWork_eq_transact hfree]
    exact htransact (c, own) ⟨hfree, hP⟩
  · rw [unitOfWork_of_not_free hfree]
    exact hwork (c, own) hP

end Backend

namespace Operation

variable {P : σ × ρ → Prop} {Q : α → σ × ρ → Prop} {work : Activity (σ × ρ) α}

/-- Whether the success callback, if there is one, takes every result. -/
def TakesResults (callbacks : Callbacks) : Prop :=
  ∀ callback ∈ callbacks.success?, ∀ result, callback result = none

theorem triple_reported {name : String} {callbacks : Callbacks} {success : α → Success}
    (hcallbacks : TakesResults callbacks) (hwork : Triple P work Q) :
    Triple P (reported name callbacks success work) fun a? s => ∃ a, a? = some a ∧ Q a s := by
  intro s hs
  obtain ⟨a, s', es, happly, ha⟩ := hwork s hs
  have hverdict : (verdict name callbacks success (.ok a)).2 = .ok (some a) := by
    cases hcallback : callbacks.success? with
    | none => simp only [verdict, hcallback]
    | some callback =>
      simp only [verdict, hcallback, hcallbacks callback hcallback]
      rfl
  have hreported := reported_apply name callbacks success work s
  rw [happly, hverdict] at hreported
  exact ⟨some a, s', _, hreported, a, rfl, ha⟩

theorem triple_backend {call : Call σ} {b : Backend σ}
    (hb : call.registry.adapt call.handle = .ok b) {k : Backend σ → Activity (σ × ρ) α}
    (h : Triple P (k b) Q) : Triple P (backend call >>= k) Q := by
  intro s hs
  rw [backend_bind_apply hb]
  exact h s hs

end Operation
end SqlInterchange
