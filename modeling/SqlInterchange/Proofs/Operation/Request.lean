import SqlInterchange.Proofs.Export.Reading
import SqlInterchange.Proofs.Operation.Reported

/-! # Requests

What holds of every operation is stated once, of a request for one.  A request finds its backend,
does its work and reports the outcome (`perform_apply`).  The work is conducted: it is put
together from units of work that read, runs of statements, entries of the log, and errors and
faults that end it (`conducted_work`).  A property of conducted work is proved by induction, with
one case for each of these.
-/
namespace SqlInterchange

namespace Operation

/-- Work that is put together from units of work; it has units that read only if `reads`. -/
inductive Conducted {σ ρ : Type} (b : Backend σ) (progress? : Option Progress) (reads : Prop) :
    (α : Type) → Activity (σ × ρ) α → Prop
  | pure {α : Type} (a : α) : Conducted b progress? reads α (Activity.pure a)
  | fail {α : Type} (f : Failure) (hf : ∀ detail, f ≠ .rejected detail) :
    Conducted b progress? reads α (Activity.fail f)
  | log (entries : List LogEntry) (h : ∀ entry ∈ entries, entry.isRemark = true) :
    Conducted b progress? reads Unit (Activity.logAll entries)
  | read {α : Type} (h : reads) {work : Activity (σ × ρ) α} (hwork : Walk.Reading b α work) :
    Conducted b progress? reads α (b.unitOfWork work)
  | run (phase : Text) (statements : List Text) (offset : Int) (total? : Option Int) :
    Conducted b progress? reads Nat
      (Pipeline.runFresh b progress? (.start phase statements offset total?))
  | bind {α β : Type} {p : Activity (σ × ρ) α} {k : α → Activity (σ × ρ) β}
    (hp : Conducted b progress? reads α p) (hk : ∀ a, Conducted b progress? reads β (k a)) :
    Conducted b progress? reads β (p >>= k)

/-! ## Requests -/

/-- One of the operations that a caller has. -/
inductive Request where
  /-- To import a script. -/
  | importScript (script : Text)
  /-- To import a document. -/
  | importDocument (source : Source)
  /-- To export a database as a script. -/
  | exportScript
  /-- To export a database as a document. -/
  | exportDocument
  /-- To drop the tables of a database. -/
  | wipe

namespace Request

/-- The name of an operation in the log. -/
def name : Request → String
  | importScript _ => "import_sql"
  | importDocument _ => "import_json"
  | exportScript => "export_sql"
  | exportDocument => "export_json"
  | wipe => "wipe"

/-- Whether an operation has a unit of work that reads the database. -/
def Reads : Request → Prop
  | importScript _ | importDocument _ => False
  | exportScript | exportDocument | wipe => True

variable {σ ρ : Type}

/-- What an operation does on a backend, to tell of its result. -/
def work (call : Call σ) (b : Backend σ) : Request → Activity (σ × ρ) Success
  | importScript script => do
    return .executed (← Pipeline.runFresh b call.callbacks.progress?
      (.start "main".toList (Script.unwrap (Script.split script)) 0 none))
  | importDocument source => do
    return .executed (← compiled (.ofOptions call.options) source >>= fun c =>
      Pipeline.runBoth b call.callbacks.progress? c)
  | exportScript => do return .script (← Walk.script b call.options)
  | exportDocument => do return .document (← Walk.document b call.options)
  | wipe => do
    return .executed (← Walk.drops b call.options >>= fun drops =>
      if drops.isEmpty then pure 0
      else Pipeline.runFresh b call.callbacks.progress? (.start "wipe".toList drops 0 none))

/-- The operation itself, its result as the caller is told of it. -/
def perform (call : Call σ) : Request → Activity (σ × ρ) (Option Success)
  | importScript script => do return (← Operation.importScript call script).map .executed
  | importDocument source => do return (← Operation.importDocument call source).map .executed
  | exportScript => do return (← Operation.exportScript call).map .script
  | exportDocument => do return (← Operation.exportDocument call).map .document
  | wipe => do return (← Operation.wipe call).map .executed

/-! ### The record of a request -/

end Request

variable {σ ρ α : Type}

theorem verdict_map (name : String) (callbacks : Callbacks) (success : α → Success)
    (outcome : Except Failure α) :
    verdict name callbacks id (outcome.map success) =
      ((verdict name callbacks success outcome).1,
        (verdict name callbacks success outcome).2.map (Option.map success)) := by
  obtain ⟨success?, error?, progress?⟩ := callbacks
  match outcome with
  | .ok a =>
    cases success? with
    | none => rfl
    | some callback =>
      simp only [Except.map, verdict, id]
      cases callback (success a) <;> rfl
  | .error (.error e) =>
    cases error? with
    | none => rfl
    | some callback =>
      simp only [Except.map, verdict]
      cases callback e <;> rfl
  | .error (.rejected detail) => rfl
  | .error (.fault f) => rfl

end Operation

namespace Activity

variable {S α β γ : Type}

theorem map_apply (p : Activity S α) (f : α → β) (s : S) :
    (p >>= fun a => pure (f a)) s = ⟨(p s).outcome.map f, (p s).state, (p s).events⟩ := by
  rcases h : p s with ⟨_ | a, s', es⟩
  · exact bind_of_error h
  · rw [bind_of_ok h, pure_apply]
    simp [Record.after, Except.map]

theorem bind_assoc (p : Activity S α) (k : α → Activity S β) (l : β → Activity S γ) :
    p >>= k >>= l = p >>= fun a => k a >>= l := by
  funext s
  rcases hp : p s with ⟨_ | a, s', es⟩
  · rw [bind_of_error hp, bind_of_error (bind_of_error hp)]
  · rcases hk : k a s' with ⟨_ | b, s'', fs⟩
    · rw [bind_of_ok hp, bind_of_error hk, bind_of_error ((bind_of_ok hp).trans (by rw [hk]; rfl))]
      rfl
    · rw [bind_of_ok hp, bind_of_ok hk, bind_of_ok ((bind_of_ok hp).trans (by rw [hk]; rfl))]
      simp [Record.after]

end Activity

namespace Operation

variable {σ ρ α : Type}

theorem reported_map (name : String) (callbacks : Callbacks) (success : α → Success)
    (work : Activity (σ × ρ) α) :
    (reported name callbacks success work >>= fun result => pure (result.map success)) =
      reported name callbacks id (work >>= fun a => pure (success a)) := by
  funext s
  rw [Activity.map_apply, reported_apply, reported_apply, Activity.map_apply, verdict_map]

namespace Request

theorem perform_eq (call : Call σ) (q : Request) :
    (q.perform call : Activity (σ × ρ) (Option Success)) =
      reported q.name call.callbacks id (backend call >>= q.work call) := by
  have hwork {α : Type} (name : String) (success : α → Success)
      (work : Backend σ → Activity (σ × ρ) α) :
      (reported name call.callbacks success (backend call >>= work) >>= fun result =>
          pure (result.map success)) =
        reported name call.callbacks id
          (backend call >>= fun b => work b >>= fun a => pure (success a)) := by
    rw [reported_map, Activity.bind_assoc]
  cases q <;> exact hwork ..

/-- **Main.** A request finds its backend, does its work and reports the outcome. -/
theorem perform_apply (call : Call σ) (q : Request) (s : σ × ρ) :
    let r := (backend call >>= q.work call) s
    q.perform call s =
      ⟨(verdict q.name call.callbacks id r.outcome).2, r.state,
        r.events ++ (verdict q.name call.callbacks id r.outcome).1⟩ := by
  intro r
  rw [perform_eq, reported_apply]

/-! ### The work of a request is conducted -/

end Request
end Operation

/-- What compiling a document logs are remarks. -/
theorem Document.isRemark_compileLog (d : Document) (scope : Scope) :
    ∀ entry ∈ d.compileLog scope, entry.isRemark = true := by
  intro entry h
  have hskipped {α : Type} {part : String} {entries : OrderedMap α}
      (h : entry ∈ skipped part entries) : entry.isRemark = true := by
    obtain ⟨table, -, rfl⟩ := List.mem_map.mp h
    rfl
  rcases List.mem_append.mp h with h | h
  · rcases List.mem_append.mp h with h | h
    · cases hs : d.schemaIn scope with
      | none => simp [hs] at h
      | some s => exact hskipped (by simpa [hs] using h)
    · cases hc : d.changesIn scope with
      | none => simp [hc] at h
      | some c =>
        rw [hc] at h
        rcases List.mem_append.mp h with h | h
        · rcases List.mem_append.mp h with h | h <;> exact hskipped h
        · exact hskipped h
  · rw [List.mem_singleton.mp h]
    rfl

namespace Operation

variable {σ ρ α : Type}

namespace Conducted

variable {b : Backend σ} {progress? : Option Progress} {reads : Prop}

theorem ofExcept {result : Except Failure α}
    (h : ∀ detail, result ≠ .error (.rejected detail)) :
    Conducted (ρ := ρ) b progress? reads α (Activity.ofExcept result) := by
  cases result with
  | ok a => exact .pure a
  | error f => exact .fail f fun detail hf => h detail (congrArg Except.error hf)

theorem compileLog (d : Document) (scope : Scope) :
    Conducted (ρ := ρ) b progress? reads Unit (Activity.logAll (d.compileLog scope)) :=
  .log _ (d.isRemark_compileLog scope)

theorem compiled (scope : Scope) (source : Source) :
    Conducted (ρ := ρ) b progress? reads Compiled (compiled scope source) := by
  refine .bind (.ofExcept fun detail h => ?_) fun d => .bind (compileLog d scope) fun _ => .pure _
  cases hparse : Document.parse source with
  | ok d =>
    rw [hparse] at h
    cases h
  | error refusal =>
    rw [hparse] at h
    cases refusal <;> cases h

theorem runBoth (compiled : Compiled) :
    Conducted (ρ := ρ) b progress? reads Nat (Pipeline.runBoth b progress? compiled) := by
  refine .bind (.run ..) fun main => ?_
  split
  · exact .pure _
  · exact .bind (.run ..) fun deferred => .pure _

theorem snapshot (h : reads) (o : Options) {remarks : Remarks} (hremarks : remarks.Apart) :
    Conducted (ρ := ρ) b progress? reads Snapshot (Walk.snapshot b o remarks) := by
  rw [Walk.snapshot_eq]
  exact .read h (Walk.reading_gather o hremarks)

theorem finish (x : Snapshot) (count : Nat) :
    Conducted (ρ := ρ) b progress? reads Unit (Walk.finish x count) :=
  .log [_] fun entry h => by
    rw [List.mem_singleton.mp h]
    rfl

theorem drops (h : reads) (o : Options) :
    Conducted (ρ := ρ) b progress? reads (List Text) (Walk.drops b o) :=
  .read h (.bind (Walk.reading_catalog o) fun _ => .pure _)

end Conducted

/-- **Main.** The work of a request is conducted; an import has no unit of work that reads. -/
theorem conducted_work (call : Call σ) (b : Backend σ) (q : Request) :
    Conducted (ρ := ρ) b call.callbacks.progress? q.Reads Success (q.work call b) := by
  cases q with
  | importScript script => exact .bind (.run ..) fun _ => .pure _
  | importDocument source =>
    exact .bind (.bind (.compiled _ _) .runBoth) fun _ => .pure _
  | exportScript =>
    exact .bind (.bind (.snapshot trivial _ Remarks.apart_forScript)
      fun x => .bind (.finish ..) fun _ => .pure _) fun _ => .pure _
  | exportDocument =>
    exact .bind (.bind (.snapshot trivial _ Remarks.apart_forDocument)
      fun x => .bind (.finish ..) fun _ => .pure _) fun _ => .pure _
  | wipe =>
    refine .bind (.bind (.drops trivial _) fun drops => ?_) fun _ => .pure _
    split
    · exact .pure _
    · exact .run ..

end Operation
end SqlInterchange
