import SqlInterchange.Export.Walk
import SqlInterchange.Proofs.Pipeline.Course

/-! # Readings of a database

What an export or a wipe does in its unit of work is a reading: it asks the database, and remarks
on the answers or finds fault with them.  A property of readings is proved by induction, with one
case for each of these.
-/
namespace SqlInterchange

/-- Whether an entry of the log remarks on what is read or compiled, and neither says that a run
begins or has ended nor that an operation has failed. -/
def LogEntry.isRemark : LogEntry → Bool
  | phaseStarted .. | phaseFinished .. | operationFailed .. => false
  | _ => true

/-- Whether remarks are nothing else. -/
structure Remarks.Apart (remarks : Remarks) : Prop where
  onDefinition : ∀ d, ∀ entry ∈ remarks.onDefinition d, entry.isRemark = true
  onRows : ∀ table rows, ∀ entry ∈ remarks.onRows table rows, entry.isRemark = true

theorem Remarks.apart_forScript : forScript.Apart :=
  ⟨fun _ _ h => absurd h List.not_mem_nil, fun _ _ _ h => absurd h List.not_mem_nil⟩

theorem Remarks.apart_forDocument : forDocument.Apart where
  onDefinition := by
    intro d entry h
    simp only [forDocument, unparsed] at h
    split at h
    · rw [List.mem_singleton.mp h]
      rfl
    · cases h
  onRows := by
    intro table rows entry h
    obtain ⟨row, -, rfl⟩ := List.mem_map.mp h
    rfl

namespace Walk

variable {σ ρ α : Type} {b : Backend σ}

/-- What comes of the answer to a question. -/
def answered (statement : Text) : Except Failure (List Row) → Except Failure (List Row)
  | .ok rows => .ok rows
  | .error (.rejected detail) => .error (.error (.execution (readError statement detail)))
  | .error f => .error f

theorem ask_apply (b : Backend σ) (statement : Text) (c : σ) (own : ρ) :
    ask b statement (c, own) =
      ⟨answered statement (b.submit statement c).1, ((b.submit statement c).2, own),
        [.submitted statement (b.submit statement c).1]⟩ := by
  rcases hsubmit : b.submit statement c with ⟨failure | rows, c'⟩
  · by_cases hf : ∃ detail, failure = .rejected detail
    · obtain ⟨detail, rfl⟩ := hf
      exact Activity.bind_of_ok (Backend.execute_of_rejected hsubmit own)
    · have hf : ∀ detail, failure ≠ .rejected detail := not_exists.mp hf
      refine (Activity.bind_of_error (Backend.execute_of_broken hf hsubmit own)).trans ?_
      cases failure with
      | rejected detail => exact absurd rfl (hf detail)
      | error e => rfl
      | fault f => rfl
  · exact Activity.bind_of_ok (Backend.execute_of_ok hsubmit own)

/-- Activities that ask the database and remark on the answers. -/
inductive Reading (b : Backend σ) : (α : Type) → Activity (σ × ρ) α → Prop
  | pure {α : Type} (a : α) : Reading b α (Activity.pure a)
  | fault {α : Type} (f : Fault) : Reading b α (Activity.fail (.fault f))
  | remark (entries : List LogEntry) (h : ∀ entry ∈ entries, entry.isRemark = true) :
    Reading b Unit (Activity.logAll entries)
  | ask (statement : Text) : Reading b (List Row) (ask b statement)
  | bind {α β : Type} {p : Activity (σ × ρ) α} {k : α → Activity (σ × ρ) β}
    (hp : Reading b α p) (hk : ∀ a, Reading b β (k a)) : Reading b β (p >>= k)

theorem Reading.orFault (result : Except Fault α) :
    Reading (ρ := ρ) b α (Walk.orFault result) := by
  cases result with
  | ok a => exact .pure a
  | error f => exact .fault f

theorem reading_catalog (o : Options) :
    Reading (ρ := ρ) b (List Catalog.Entry) (catalog b o) :=
  .bind (.ask _) fun _ => .orFault _

variable {remarks : Remarks}

theorem reading_definitions (h : remarks.Apart) (entries : List Catalog.Entry) :
    Reading (ρ := ρ) b (List Catalog.Definition) (definitions remarks entries) := by
  induction entries with
  | nil => exact .pure _
  | cons entry rest ih =>
    exact .bind (.orFault _) fun _ => .bind (.remark _ (h.onDefinition _)) fun _ =>
      .bind ih fun _ => .pure _

theorem reading_contents (h : remarks.Apart) (tables : List Text) :
    Reading (ρ := ρ) b (List (Text × List Row)) (contents b remarks tables) := by
  induction tables with
  | nil => exact .pure _
  | cons table rest ih =>
    exact .bind (.ask _) fun _ => .bind (.remark _ (h.onRows _ _)) fun _ =>
      .bind ih fun _ => .pure _

/-- What an export does in its unit of work. -/
def gather (b : Backend σ) (o : Options) (remarks : Remarks) : Activity (σ × ρ) Snapshot := do
  let entries ← catalog b o
  let ds ← if o.isDataOnly then pure [] else definitions remarks entries
  let cs ← if o.isStructureOnly then pure [] else contents b remarks (Catalog.tables entries)
  return ⟨entries, ds, cs⟩

/-- It reads the catalog, then the definitions if they are asked for, then the rows if they are. -/
theorem gather_eq (b : Backend σ) (o : Options) (remarks : Remarks) :
    (gather b o remarks : Activity (σ × ρ) Snapshot) = catalog b o >>= fun es =>
      (if o.isDataOnly then pure [] else definitions remarks es) >>= fun ds =>
        (if o.isStructureOnly then pure [] else contents b remarks (Catalog.tables es)) >>=
          fun cs => pure ⟨es, ds, cs⟩ := by
  unfold gather
  refine congrArg _ (funext fun es => ?_)
  split <;> split <;> rfl

theorem snapshot_eq (b : Backend σ) (o : Options) (remarks : Remarks) :
    (snapshot b o remarks : Activity (σ × ρ) Snapshot) = b.unitOfWork (gather b o remarks) := rfl

theorem Reading.ite {c : Prop} [Decidable c] {p q : Activity (σ × ρ) α} (hp : Reading b α p)
    (hq : Reading b α q) : Reading b α (if c then p else q) := by
  split
  · exact hp
  · exact hq

theorem reading_gather (o : Options) (h : remarks.Apart) :
    Reading (ρ := ρ) b Snapshot (gather b o remarks) := by
  rw [gather_eq]
  refine .bind (reading_catalog o) fun es => .bind ?_ fun ds => .bind ?_ fun cs => .pure _
  · exact .ite (.pure _) (reading_definitions h es)
  · exact .ite (.pure _) (reading_contents h _)

end Walk
end SqlInterchange
