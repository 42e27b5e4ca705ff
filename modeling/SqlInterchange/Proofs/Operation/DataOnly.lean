import SqlInterchange.Backend.Scripted
import SqlInterchange.Proofs.Operation.Reported
import SqlInterchange.Proofs.Statement.Written

/-! # Data as a script

The data of a document consists of written statements.  So the script of these statements is read
back as them, and since none of them wraps a dump, the import of the script and the import of the
document run one and the same pipeline.
-/
namespace SqlInterchange

/-! ## The statements of data -/

namespace Document

variable {o : Options} {d : Document} {s : Text}

theorem schemaIn_of_dataOnly (ho : o.isDataOnly) (d : Document) :
    d.schemaIn (.ofOptions o) = none := by
  simp [schemaIn, Scope.ofOptions, ho]

theorem deferred_of_dataOnly (ho : o.isDataOnly) (d : Document) :
    (d.compile (.ofOptions o)).deferred = [] := by
  rw [compile_of_no_schema (schemaIn_of_dataOnly ho d)]

theorem changeStatement_of_dataOnly (ho : o.isDataOnly) (hd : d.Accepted)
    (h : s ∈ (d.compile (.ofOptions o)).main) : ChangeStatement s := by
  rw [compile_of_no_schema (schemaIn_of_dataOnly ho d)] at h
  obtain ⟨c, hc, hs⟩ := exists_changes_of_changesIn h
  exact changeStatement_of_compileChanges (hd.wellFormed c hc) hs

/-- The script of data is read as its statements. -/
theorem unwrap_split_of_dataOnly (ho : o.isDataOnly) (hd : d.Accepted) :
    Script.unwrap (Script.split (d.compile (.ofOptions o)).script) =
      (d.compile (.ofOptions o)).main := by
  have hmain := fun s => changeStatement_of_dataOnly (s := s) ho hd
  have hscript : (d.compile (.ofOptions o)).script =
      Script.ofStatements (d.compile (.ofOptions o)).main := by
    rw [Compiled.script, Compiled.statements, deferred_of_dataOnly ho d, List.append_nil]
  rw [hscript, Script.split_ofStatements fun s hs => (hmain s hs).intact]
  exact Script.unwrap_eq_self fun s hs => (hmain s hs).isPlain

end Document

/-! ## The two imports -/

/-- Without deferred statements an import has one phase, and it counts to its own end. -/
theorem Pipeline.runBoth_of_no_deferred {σ ρ : Type} {compiled : Compiled}
    (h : compiled.deferred = []) (b : Backend σ) (progress? : Option Progress) :
    (runBoth b progress? compiled : Activity (σ × ρ) Nat) =
      runFresh b progress? (.start "main".toList compiled.main 0 none) := by
  obtain ⟨main, deferred⟩ := compiled
  obtain rfl : deferred = [] := h
  have hstart : Pipeline.start "main".toList main 0 (some (Compiled.total ⟨main, []⟩ : Nat)) =
      .start "main".toList main 0 none := by
    simp [Pipeline.start, Compiled.total]
  rw [runBoth, hstart]
  exact Activity.bind_pure _

namespace Operation

variable {σ ρ : Type} (call : Call σ)

theorem importScript_agree {source : Source} {d : Document} (hd : d.Accepted)
    (hsource : Document.parse source = .ok d) (ho : call.options.isDataOnly) :
    (importScript call (d.compile (.ofOptions call.options)).script :
      Activity (σ × ρ) (Option Nat)).AgreeButLog (importDocument call source) := by
  -- on any backend the document is compiled to just what the script is read as
  refine reported_agree _ _ _ _ (.bind (.refl _) fun b => .symm fun s => ?_)
  rw [Activity.bind_of_ok (compiled_apply hsource _ s), Document.unwrap_split_of_dataOnly ho hd,
    Pipeline.runBoth_of_no_deferred (Document.deferred_of_dataOnly ho d)]
  refine ⟨rfl, rfl, ?_⟩
  simp [Record.after, Trace.unlogged_append, Trace.unlogged_logged]

end Operation

/-- **Main: nothing breaks out of a written statement.**  A written statement is a script of one
statement, and a script of written statements is read as them.  The statements of an accepted
document, under whatever scope, and of an exported script are written unless they are its author's
own or definitions from the catalog.  So the data of a document, as a script, are imported exactly
as the document itself is, the log aside. -/
theorem written_statements_come_back :
    (∀ s, Written s → Script.split s = [s]) ∧
    (∀ ss : List Text, (∀ s ∈ ss, Written s) → Script.split (Script.ofStatements ss) = ss) ∧
    (∀ (d : Document) (scope : Scope), d.Accepted →
      ∀ s ∈ (d.compile scope).statements, Written s ∨ d.Own s) ∧
    (∀ (x : Snapshot), ∀ s ∈ x.toScript.statements,
      Written s ∨ ∃ definition ∈ x.definitions, s = Text.squeeze definition.sql) ∧
    (∀ (σ ρ : Type) (call : Operation.Call σ) (source : Source) (d : Document), d.Accepted →
      Document.parse source = .ok d → call.options.isDataOnly = true →
      let fromScript : Activity (σ × ρ) (Option Nat) :=
        Operation.importScript call (d.compile (.ofOptions call.options)).script
      let fromDocument : Activity (σ × ρ) (Option Nat) := Operation.importDocument call source
      fromScript.AgreeButLog fromDocument ∧
        ∀ s,
          Trace.submissions (fromScript s).events = Trace.submissions (fromDocument s).events) := by
  refine ⟨fun s hs => hs.intact.split_eq, fun ss hss => ?_, fun d scope hd s hs => ?_,
    fun x s hs => Snapshot.written_or_own_of_toScript hs, ?_⟩
  · exact Script.split_ofStatements fun s hs => (hss s hs).intact
  · exact Document.written_or_own_of_compile hd hs
  · intro σ ρ call source d hd hsource ho
    have hagree := Operation.importScript_agree (ρ := ρ) call hd hsource ho
    exact ⟨hagree, hagree.submissions_eq⟩

/-! ### Knotty names and values -/

/-- A document with one row, in whose names and value everything is that ends something. -/
def knotty : Document :=
  { schema? := none
    changes? := some
      { inserts := .ofList
          [("a\x60;--b".toList, [.ofList [("/*c\x22".toList, .text "'; DROP\n".toList)]])]
        updates := .empty
        deletes := .empty } }

theorem knotty_accepted : knotty.Accepted := .ofValue knotty.toValue rfl

/-- A caller who leaves the shape of tables out. -/
def dataOnlyCall : Operation.Call Scripted.Script :=
  { registry := .standard
    handle := Scripted.handle .engine
    options := { Options.standard with dataOnly := .bool true, not_both := by decide }
    callbacks := ⟨none, none, none⟩ }

theorem knotty_comes_back :
    Script.split (TableDefinition.renderDrop "a\x60;--b".toList) =
        [TableDefinition.renderDrop "a\x60;--b".toList] ∧
      Script.split (knotty.compile .standard).script = (knotty.compile .standard).main ∧
      (∀ s ∈ (knotty.compile .standard).main, Written s ∨ knotty.Own s) ∧
      ∀ s : Scripted.Script × Unit,
        Trace.submissions (Operation.importScript dataOnlyCall
            (knotty.compile (.ofOptions dataOnlyCall.options)).script s).events =
          Trace.submissions
            (Operation.importDocument dataOnlyCall (.value knotty.toValue) s).events := by
  obtain ⟨halone, htogether, hcompiled, -, himport⟩ := written_statements_come_back
  refine ⟨halone _ (.drop _), htogether _ fun s hs => ?_, fun s hs => ?_, ?_⟩
  · exact .change knotty_accepted rfl 250 hs
  · exact hcompiled knotty .standard knotty_accepted s (List.mem_append_left _ hs)
  · exact (himport _ _ dataOnlyCall (.value knotty.toValue) knotty knotty_accepted rfl rfl).2

end SqlInterchange
