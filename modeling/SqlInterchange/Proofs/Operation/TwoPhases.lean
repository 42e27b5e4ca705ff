import SqlInterchange.Proofs.Operation.Reported
import SqlInterchange.Proofs.Pipeline.Phases
import SqlInterchange.Proofs.Statement.Index

/-! # The import of a document

The import of a document compiles it, runs its statements in two phases and reports the outcome.
What the two courses of the phases say of the trace is said here of the whole import.
-/
namespace SqlInterchange
namespace Operation

open Pipeline (Course Courses)

variable {σ ρ : Type}

/-- The import of a document logs what is compiled, runs the statements and reports. -/
theorem importDocument_apply {call : Call σ} {b : Backend σ} {d : Document} {source : Source}
    (hb : call.registry.adapt call.handle = .ok b)
    (hsource : Document.parse source = .ok d) (s : σ × ρ) :
    let r := Pipeline.runBoth b call.callbacks.progress? (d.compile (.ofOptions call.options)) s
    importDocument call source s =
      ⟨(verdict "import_json" call.callbacks .executed r.outcome).2, r.state,
        (d.compileLog (.ofOptions call.options)).map .logged ++ r.events ++
          (verdict "import_json" call.callbacks .executed r.outcome).1⟩ := by
  intro r
  rw [importDocument, reported_apply, Activity.bind_of_ok (backend_apply hb s),
    Activity.bind_of_ok (compiled_apply hsource _ s)]
  rfl

/-- What the import of a document leaves behind when its statements have taken two courses. -/
structure ImportLeaves (b : Backend σ) (callbacks : Callbacks) (log : List LogEntry)
    (compiled : Compiled) (x : Courses) (r : Record (σ × ρ) (Option Nat)) : Prop where
  /-- The log of the compilation comes first, the report of the result last. -/
  events : r.events = log.map .logged ++ x.trace b callbacks.progress? compiled ++
    (verdict "import_json" callbacks .executed (x.result compiled)).1
  /-- All that is seen of the main unit of work, its end included, is seen before anything of the
  deferred one; and if there is no deferred one, then nothing of it is seen. -/
  phases : ∃ es fs, r.events = es ++ fs ∧
    Trace.submissions es = x.main.submitted ∧ x.main.submitted <+: compiled.main ∧
    Trace.controls es = [.start, x.main.ending.control] ∧
    Trace.submissions fs = (x.deferred?.map (·.submitted)).getD [] ∧
    (x.deferred?.map (·.submitted)).getD [] <+: compiled.deferred ∧
    Trace.controls fs = (x.deferred?.map fun second => [.start, second.ending.control]).getD []
  /-- The deferred unit begins if and only if the main one is committed and there is something to
  do. -/
  begins_iff : x.deferred?.isSome ↔
    x.main.ending.control = .commit ∧ compiled.deferred ≠ []
  /-- The statements submitted are the first ones of both groups. -/
  submissions : Trace.submissions r.events =
    (compiled.main ++ compiled.deferred).take (x.done + x.ending.attempted.length)
  /-- Statements that make an index come after all others. -/
  indexes_last : (Trace.submissions r.events).Pairwise fun s t =>
    SchemaStatement.makesIndex s = true → SchemaStatement.makesIndex t = true
  /-- The caller is told of each statement done, whichever phase it is in. -/
  progressCalls : Trace.progressCalls r.events =
    Course.callsFrom callbacks.progress? compiled.total 0 x.done
  /-- Both phases are complete if and only if all statements are done and no call of the callback
  has failed. -/
  complete_iff : x.ending.isComplete ↔ x.done = compiled.total ∧
    ∀ i < compiled.total, Pipeline.told callbacks.progress? (i + 1) compiled.total = .ok ()
  /-- What is reported is the result of the two phases. -/
  outcome : r.outcome = (verdict "import_json" callbacks .executed (x.result compiled)).2
  /-- If all is done, the result is the number of all statements. -/
  result_complete : x.ending.isComplete → x.result compiled = .ok compiled.total
  /-- If a statement is refused, the result is an error that says which one it is and how many
  statements are done. -/
  result_refused : ∀ statement detail, x.ending = .refused statement detail →
    ∃ e : ExecutionError, x.result compiled = .error (.error (.execution e)) ∧
      e.statement = statement ∧ e.detail = detail ∧ e.executed = x.done ∧
      (compiled.main ++ compiled.deferred)[x.done]? = some e.statement

/-- **Main: two phases.**  The import of an accepted document runs its main statements in one unit
of work and then, only if that one has been committed, those that make an index in another; it
counts through both, and reports the number of all statements or the error that stopped it. -/
theorem importDocument_runs_two_phases (call : Call σ) (b : Backend σ) (source : Source)
    (d : Document) (c : σ) (own : ρ) (hb : call.registry.adapt call.handle = .ok b)
    (hd : d.Accepted) (hsource : Document.parse source = .ok d) (hfree : b.Free c)
    (hopens : ∀ c, b.Opens c) (hcloses : ∀ c, b.Closes c)
    (hkeeps : ∀ statement ∈ (d.compile (.ofOptions call.options)).statements, b.Keeps statement)
    (hcontrolled : Trace.Controlled (importDocument call source (c, own)).events) :
    ∃ x : Courses,
      x.Of call.callbacks.progress? (d.compile (.ofOptions call.options)) ∧
      ImportLeaves b call.callbacks (d.compileLog (.ofOptions call.options))
        (d.compile (.ofOptions call.options)) x (importDocument call source (c, own)) := by
  have himport := importDocument_apply (ρ := ρ) hb hsource (c, own)
  rw [himport] at hcontrolled ⊢
  obtain ⟨x, c', hx, hrun⟩ :=
    Pipeline.runBoth_takes hfree hopens hcloses hkeeps hcontrolled.left.right
  refine ⟨x, hx, ?_⟩
  rw [hrun]
  -- from here on only the order of the two groups matters, not how they were compiled
  generalize d.compileLog (.ofOptions call.options) = log at *
  have hindexes := Document.pairwise_makesIndex hd (.ofOptions call.options)
  generalize d.compile (.ofOptions call.options) = compiled at *
  have hlog := Trace.remarks_logged log
  have hverdict := remarks_verdict "import_json" call.callbacks .executed (x.result compiled)
  have hsubmissions : Trace.submissions (log.map .logged ++
      x.trace b call.callbacks.progress? compiled ++
      (verdict "import_json" call.callbacks .executed (x.result compiled)).1) =
        compiled.statements.take (x.done + x.ending.attempted.length) := by
    rw [Trace.submissions_append, Trace.submissions_append, hlog.submissions_eq,
      hverdict.submissions_eq, Courses.submissions_trace, hx.submitted_eq_take]
    simp
  constructor
  case events => rfl
  case phases =>
    -- the first part ends with the end of the main unit of work
    refine ⟨log.map .logged ++
        x.main.trace b call.callbacks.progress? (Pipeline.mainPhase compiled),
      (x.deferred?.map
          (·.trace b call.callbacks.progress? (Pipeline.deferredPhase compiled))).getD [] ++
        (verdict "import_json" call.callbacks .executed (x.result compiled)).1,
      by simp [Courses.trace], ?_, ⟨_, hx.main_of.submitted_append_rest⟩, ?_, ?_, ?_, ?_⟩
    · rw [Trace.submissions_append, hlog.submissions_eq, Course.submissions_trace, List.nil_append]
    · rw [Trace.controls_append, hlog.controls_eq, Course.controls_trace, List.nil_append]
    · rw [Trace.submissions_append, hverdict.submissions_eq, List.append_nil]
      cases x.deferred? with
      | none => rfl
      | some second => exact Course.submissions_trace
    · cases hsecond : x.deferred? with
      | none => exact List.nil_prefix
      | some second => exact ⟨_, (hx.deferred_of hsecond).submitted_append_rest⟩
    · rw [Trace.controls_append, hverdict.controls_eq, List.append_nil]
      cases x.deferred? with
      | none => rfl
      | some second => exact Course.controls_trace
  case begins_iff => exact hx.begins_iff
  case submissions => exact hsubmissions
  case indexes_last =>
    rw [hsubmissions]
    exact hindexes.sublist (List.take_sublist ..)
  case progressCalls =>
    rw [Trace.progressCalls_append, Trace.progressCalls_append, hlog.progressCalls_eq,
      hverdict.progressCalls_eq, hx.progressCalls_trace]
    simp
  case complete_iff => exact hx.isComplete_iff
  case outcome => rfl
  case result_complete => exact hx.result_of_isComplete
  case result_refused =>
    intro statement detail he
    obtain ⟨e, hresult, hstatement, hdetail, hexecuted⟩ := hx.result_of_refused he
    refine ⟨e, hresult, hstatement, hdetail, hexecuted, ?_⟩
    rw [hstatement]
    exact hx.getElem?_attempted (by simp [he, Pipeline.Ending.attempted])

/-! ### A refused index -/

/-- A document with a table, a view and a row, and an index that stands before the view. -/
def indexed : Document :=
  { schema? := some
      { tables := .ofList [("t".toList, "(a)".toList)]
        otherSql := ["CREATE INDEX i ON t(a)".toList, "CREATE VIEW v AS SELECT 1".toList] }
    changes? := some
      { inserts := .ofList [("t".toList, [.ofList [("a".toList, .text "x".toList)]])]
        updates := .empty
        deletes := .empty } }

theorem indexed_accepted : indexed.Accepted := .ofValue indexed.toValue rfl

/-- An engine that refuses to make the index. -/
def unindexed : Backend Bool := .engine (.bare (· == "CREATE INDEX i ON t(a)".toList))

/-- A caller who is told of progress. -/
def listeningCall : Call Bool :=
  { registry := .standard
    handle := .backend unindexed
    options := .standard
    callbacks := ⟨none, none, Pipeline.listening⟩ }

theorem controlled_indexed : Trace.Controlled
    (importDocument listeningCall (.value indexed.toValue) (false, ())).events := by
  decide +kernel

theorem importDocument_indexed : ∃ x : Courses,
    x.Of Pipeline.listening (indexed.compile .standard) ∧
      ImportLeaves unindexed listeningCall.callbacks (indexed.compileLog .standard)
        (indexed.compile .standard) x
        (importDocument listeningCall (.value indexed.toValue) (false, ())) :=
  importDocument_runs_two_phases listeningCall unindexed (.value indexed.toValue) indexed false ()
    rfl indexed_accepted rfl (fun _ => rfl) Backend.opens_bare Backend.closes_bare
    (fun statement _ => Backend.keeps_bare statement) controlled_indexed

end Operation
end SqlInterchange
