import SqlInterchange.Proofs.Export.Valid
import SqlInterchange.Proofs.Statement.Batches

/-! # What an exported document compiles to

A document that only inserts, row by row and into tables of the user, has one statement for each
row, in the order of its tables and of their rows (`compileChanges_one`).  The document of a
snapshot is of this kind if the tables of the snapshot are told apart.
-/
namespace SqlInterchange

open RowStatement

namespace Document

/-- Nothing is left out of a section whose tables are all the user's. -/
theorem unreserved_eq_self {α : Type} {m : OrderedMap α}
    (h : ∀ table ∈ m.keys, Identifier.isReserved table = false) : unreserved m = m := by
  refine OrderedMap.ext (List.filter_eq_self.mpr fun e he => ?_)
  simp [h e.1 (List.mem_map_of_mem he)]

/-- The statements for rows that are inserted one by one. -/
theorem compileChanges_one {m : OrderedMap (List Row)}
    (h : ∀ table ∈ m.keys, Identifier.isReserved table = false) :
    compileChanges 1 ⟨m, .empty, .empty⟩ =
      m.entries.flatMap fun e => e.2.map fun row => renderInsert e.1 ⟨row, []⟩ := by
  have hsection : sectionStatements (RowStatement.inserts 1) m =
      m.entries.flatMap fun e => e.2.map fun row => renderInsert e.1 ⟨row, []⟩ := by
    rw [sectionStatements, unreserved_eq_self h]
    refine congrArg (List.flatMap · m.entries) (funext fun e => ?_)
    show (batches 1 e.2).map (renderInsert e.1) = _
    rw [batches_one, List.map_map]
    rfl
  rw [compileChanges, hsection]
  exact (List.append_nil _).trans (List.append_nil _)

/-- A document without the shape of tables has only the statements for its changes. -/
theorem statements_compile_changes {scope : Scope} (h : scope.includeChanges = true)
    (c : Changes) : ((⟨none, some c⟩ : Document).compile scope).statements =
      compileChanges scope.batchInsertSize c := by
  have hnone : (⟨none, some c⟩ : Document).schemaIn scope = none := ite_self none
  have hsome : (⟨none, some c⟩ : Document).changesIn scope = some c := if_pos h
  rw [Compiled.statements, compile, hnone, hsome]
  exact List.append_nil _

end Document

namespace Snapshot

variable {contents : List (Text × List Row)}

/-- The statements for the rows of a snapshot. -/
theorem compileChanges_inserts (hnodup : (contents.map Prod.fst).Nodup)
    (hunreserved : ∀ table ∈ contents.map Prod.fst, Identifier.isReserved table = false) :
    Document.compileChanges 1 ⟨inserts contents, .empty, .empty⟩ = contents.flatMap fun e =>
      (documentRows e.2).map fun row => renderInsert e.1 ⟨row, []⟩ := by
  have hkeys : ∀ table ∈ (inserts contents).keys, Identifier.isReserved table = false := by
    rwa [keys_inserts hnodup]
  rw [Document.compileChanges_one hkeys, entries_inserts hnodup, List.flatMap_map]

end Snapshot
end SqlInterchange
