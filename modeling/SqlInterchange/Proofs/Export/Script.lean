import SqlInterchange.Proofs.Operation.Reported
import SqlInterchange.Proofs.Pipeline.Run
import SqlInterchange.Proofs.Script.Whole
import SqlInterchange.Proofs.Statement.Written

/-! # Exported scripts

An exported script has the definitions of the catalog as they are stored, squeezed onto one line,
and statements of its own.  Its own statements survive a script whatever they are about; a
definition does if and only if it is whole.  A definition with a line comment is not, because on
one line nothing ends the comment, and neither is a trigger, whose body has semicolons.

An import of a script whose statements are all whole submits just these, in order, and all of them
if it succeeds (`exported_script_comes_back`).
-/
namespace SqlInterchange

/-! ## Snapshots as scripts -/

theorem Snapshot.whole_toScript (x : Snapshot) : (∀ s ∈ x.toScript.statements, Script.Whole s) ↔
    ∀ d ∈ x.definitions, Script.Whole (Text.squeeze d.sql) := by
  constructor
  · intro h d hd
    refine h _ (List.mem_append_left _ (List.mem_flatMap.mpr ⟨d, hd, ?_⟩))
    exact List.mem_append_right _ (List.mem_singleton_self _)
  · intro h s hs
    rcases written_or_own_of_toScript hs with hwritten | ⟨d, hd, rfl⟩
    · exact hwritten.intact.whole
    · exact h d hd

/-! ## What a run submits -/

namespace Pipeline

variable {σ ρ : Type} {b : Backend σ} {progress? : Option Progress} {p : Pipeline}

/-- Whether what is submitted are the first statements of a pipeline, and all of them, counted, if
all goes well. -/
structure Submits (p : Pipeline) (r : Record (σ × Pipeline) Unit) : Prop where
  isPrefix : Trace.submissions r.events <+: p.queue
  of_ok : r.outcome = .ok () → Trace.submissions r.events = p.queue ∧
    r.state.2.executed = p.executed + p.queue.length

theorem submits_drain (b : Backend σ) (progress? : Option Progress) (hp : p.state = .running)
    (c : σ) : Submits p (drain b progress? p.queue (c, p)) := by
  obtain ⟨x, c', hx, hdrain, -⟩ := drain_apply b progress? hp rfl c
  rw [hdrain]
  have hsubmitted : Trace.submissions (x.events progress? p.total p.executedInCall) =
      x.submitted := Course.submissions_events
  constructor
  · exact ⟨x.rest, by rw [hsubmitted, hx.submitted_append_rest]⟩
  · intro hok
    have hcomplete : x.ending.isComplete := by
      cases hending : x.ending with
      | complete => rfl
      | interrupted failure => simp [hending, Ending.outcome] at hok
      | refused statement detail => simp [hending, Ending.outcome] at hok
      | broken statement failure => simp [hending, Ending.outcome] at hok
    rw [hsubmitted]
    exact ⟨hx.submitted_eq hcomplete,
      congrArg (p.executed + ·) (hx.isComplete_iff.mp hcomplete).1⟩

theorem submits_unitOfWork {work : Activity (σ × Pipeline) Unit}
    (hwork : ∀ c, Submits p (work (c, p))) (c : σ) : Submits p (b.unitOfWork work (c, p)) := by
  rcases b.unitOfWork_wraps work c p with ⟨c', f, hunbegun⟩ | ⟨c', hwraps⟩
  · rw [hunbegun]
    exact ⟨List.nil_prefix, nofun⟩
  · obtain ⟨hfirst, hok⟩ := hwork c'
    refine ⟨hwraps.submissions ▸ hfirst, fun h => ?_⟩
    rw [hwraps.submissions, hwraps.own]
    exact hok (hwraps.outcome () h)

/-- Whatever the connection does, a run submits the first of its statements, and all of them if it
succeeds. -/
theorem submissions_runFresh (hp : p.state = .pending) (c : σ) (own : ρ) :
    let r := runFresh b progress? p (c, own)
    Trace.submissions r.events <+: p.queue ∧ ∀ n, r.outcome = .ok n →
      Trace.submissions r.events = p.queue ∧ n = p.executed + p.queue.length := by
  have hunit : Submits p.begun (b.unitOfWork (drain b progress? p.queue) (c, p.begun)) :=
    submits_unitOfWork (submits_drain b progress? (p := p.begun) rfl) c
  have hrun : runFresh b progress? p (c, own) = _ := runFresh_apply hp rfl own
  generalize b.unitOfWork (drain b progress? p.queue) (c, p.begun) = r at hunit hrun
  have hsubmissions : Trace.submissions (runFresh b progress? p (c, own)).events =
      Trace.submissions r.events := by
    rw [hrun, Trace.submissions_append, (Trace.remarks_logged (unitLog b r)).submissions_eq,
      List.append_nil]
    rfl
  refine ⟨hsubmissions ▸ hunit.isPrefix, fun n hn => ?_⟩
  rw [hrun] at hn
  rcases houtcome : r.outcome with f | ⟨⟩
  · cases (unitResult_of_error houtcome).symm.trans hn
  · obtain ⟨hall, hcount⟩ := hunit.of_ok houtcome
    refine ⟨hsubmissions.trans hall, ?_⟩
    rw [show unitResult r = .ok r.state.2.executed by rw [unitResult, houtcome]] at hn
    exact (Except.ok.inj hn).symm.trans hcount

end Pipeline

/-! ## Exports and imports -/

namespace Operation

variable {σ σ' ρ ρ' α : Type}

/-- What an export has as a script is a snapshot that it has read. -/
theorem snapshot_of_exportScript {call : Call σ} {s : σ × ρ} {e : ScriptExport}
    (h : (exportScript call s).outcome = .ok (some e)) :
    ∃ b x, call.registry.adapt call.handle = .ok b ∧
      (Walk.snapshot b call.options .forScript s).outcome = .ok x ∧ e = x.toScript := by
  have hwork := outcome_of_reported h
  cases hb : call.registry.adapt call.handle with
  | error error =>
    rw [backend_of_error hb] at hwork
    cases hwork
  | ok b =>
    rw [backend_bind_apply hb] at hwork
    obtain ⟨x, s', es, hx, hrest⟩ := Activity.exists_of_bind_ok hwork
    obtain ⟨_, s'', es', -, hresult⟩ := Activity.exists_of_bind_ok hrest
    refine ⟨b, x, rfl, congrArg Record.outcome hx, ?_⟩
    exact (Except.ok.inj hresult).symm

/-- An import of these statements. -/
def importing (call : Call σ) (statements : List Text) : Activity (σ × ρ) (Option Nat) :=
  reported "import_sql" call.callbacks .executed do
    let b ← backend call
    Pipeline.runFresh b call.callbacks.progress? (.start "main".toList statements 0 none)

theorem importScript_eq_importing (call : Call σ) (script : Text) :
    (importScript call script : Activity (σ × ρ) (Option Nat)) =
      importing call (Script.unwrap (Script.split script)) := rfl

/-- An import submits the first of its statements, and all of them if it succeeds. -/
theorem submissions_importing (call : Call σ) (statements : List Text) (s : σ × ρ) :
    let r := importing call statements s
    Trace.submissions r.events <+: statements ∧ ∀ n, r.outcome = .ok (some n) →
      Trace.submissions r.events = statements ∧ n = statements.length := by
  intro r
  have hevents {work : Activity (σ × ρ) Nat} {name : String} {success : Nat → Success} :
      Trace.submissions (reported name call.callbacks success work s).events =
        Trace.submissions (work s).events := by
    rw [reported_apply, Trace.submissions_append,
      (remarks_verdict name call.callbacks success (work s).outcome).submissions_eq,
      List.append_nil]
  simp only [r, importing, hevents]
  cases hb : call.registry.adapt call.handle with
  | error e =>
    rw [backend_of_error hb]
    refine ⟨List.nil_prefix, fun n hn => ?_⟩
    have hwork := outcome_of_reported hn
    rw [backend_of_error hb] at hwork
    cases hwork
  | ok b =>
    obtain ⟨hinitial, hall⟩ := Pipeline.submissions_runFresh (b := b)
      (p := .start "main".toList statements 0 none) rfl s.1 s.2
    rw [backend_bind_apply hb]
    refine ⟨hinitial, fun n hn => ?_⟩
    have hwork := outcome_of_reported hn
    rw [backend_bind_apply hb] at hwork
    obtain ⟨hsubmitted, hcount⟩ := hall n hwork
    exact ⟨hsubmitted, hcount.trans (Nat.zero_add _)⟩

/-- An import of a script without wrappers submits its statements. -/
theorem submissions_importScript (call : Call σ) {script : Text} {statements : List Text}
    (hsplit : Script.split script = statements) (hplain : ∀ s ∈ statements, Script.IsPlain s)
    (s : σ × ρ) :
    let r := importScript call script s
    Trace.submissions r.events <+: statements ∧ ∀ n, r.outcome = .ok (some n) →
      Trace.submissions r.events = statements ∧ n = statements.length := by
  rw [importScript_eq_importing, hsplit, Script.unwrap_eq_self hplain]
  exact submissions_importing call statements s

/-- **Main: which exported scripts come back.**  The script of a database is split into its
statements if and only if the definitions that it has from the catalog are whole.  If they are, and
none wraps a transaction, then an import submits the exported statements in order, and all of them
if it succeeds. -/
theorem exported_script_comes_back (call : Call σ) (s : σ × ρ) (e : ScriptExport)
    (h : (exportScript call s).outcome = .ok (some e)) :
    ∃ b x, call.registry.adapt call.handle = .ok b ∧
      (Walk.snapshot b call.options .forScript s).outcome = .ok x ∧
      (Script.split e.script = e.statements ↔
        ∀ d ∈ x.definitions, Script.Whole (Text.squeeze d.sql)) ∧
      ((∀ d ∈ x.definitions, Script.Whole (Text.squeeze d.sql)) →
        (∀ statement ∈ e.statements, Script.IsPlain statement) →
        ∀ (call' : Call σ') (s' : σ' × ρ'),
          let r := importScript call' e.script s'
          Trace.submissions r.events <+: e.statements ∧ ∀ n, r.outcome = .ok (some n) →
            Trace.submissions r.events = e.statements ∧ n = e.count) := by
  obtain ⟨b, x, hb, hx, rfl⟩ := snapshot_of_exportScript h
  have hback : Script.split x.toScript.script = x.toScript.statements ↔
      ∀ d ∈ x.definitions, Script.Whole (Text.squeeze d.sql) :=
    Script.split_ofStatements_iff.trans x.whole_toScript
  exact ⟨b, x, hb, hx, hback, fun hwhole hplain call' s' =>
    submissions_importScript call' (hback.mpr hwhole) hplain s'⟩

/-! ### A comment in a definition -/

/-- A connection whose catalog has tables with these definitions. -/
def cataloged (tables : List (String × String)) : Scripted.Script where
  kind := .recording
  failOn := []
  crashOn := []
  answers :=
    [{ part := "sqlite_master".toList
       columns? := some (["type", "name", "tbl_name", "sql"].map String.toList)
       rows := tables.map fun (name, definition) =>
         [.text "table".toList, .text name.toList, .text name.toList, .text definition.toList] }]
  inTransaction := false

/-- A caller with such a connection. -/
def reading : Call Scripted.Script where
  registry := .standard
  handle := Scripted.handle .recording
  options := .standard
  callbacks := ⟨none, none, none⟩

/-- A table with a default that looks like the end of a statement. -/
def quotedTable : Scripted.Script := cataloged [("t", "CREATE TABLE t\n(a DEFAULT ';--')")]

/-- The script of that table. -/
def quotedScript : ScriptExport :=
  ⟨["DROP TABLE IF EXISTS t".toList, "CREATE TABLE t (a DEFAULT ';--')".toList]⟩

theorem exportScript_quotedTable :
    (exportScript reading (quotedTable, ())).outcome = .ok (some quotedScript) := rfl

theorem quotedScript_comes_back :
    (exportScript reading (quotedTable, ())).outcome = .ok (some quotedScript) ∧
      Script.split quotedScript.script = quotedScript.statements ∧
      Trace.submissions (importScript reading quotedScript.script (quotedTable, ())).events =
        quotedScript.statements := by
  have hsplit : Script.split quotedScript.script = quotedScript.statements := by decide +kernel
  have hplain : ∀ s ∈ quotedScript.statements, Script.IsPlain s := by
    simp only [Script.IsPlain]
    decide +kernel
  obtain ⟨b, x, hb, hx, hback, himport⟩ :=
    @exported_script_comes_back _ Scripted.Script _ Unit reading (quotedTable, ()) quotedScript
      exportScript_quotedTable
  have hdone : (importScript reading quotedScript.script (quotedTable, ())).outcome.toOption =
      some (some 2) := by
    decide +kernel
  obtain ⟨-, hall⟩ := himport (hback.mp hsplit) hplain reading (quotedTable, ())
  refine ⟨exportScript_quotedTable, hsplit, ?_⟩
  cases houtcome : (importScript reading quotedScript.script (quotedTable, ())).outcome with
  | error f =>
    rw [houtcome] at hdone
    cases hdone
  | ok n? =>
    rw [houtcome] at hdone
    exact (hall 2 (houtcome.trans (congrArg Except.ok (Option.some.inj hdone)))).1

/-- Two tables, the first of which has a comment. -/
def commentedTable : Scripted.Script :=
  cataloged [("t", "CREATE TABLE t (a -- the key\n)"), ("u", "CREATE TABLE u (b)")]

/-- The script of these tables. -/
def commentedScript : ScriptExport :=
  ⟨["DROP TABLE IF EXISTS t", "CREATE TABLE t (a -- the key )", "DROP TABLE IF EXISTS u",
    "CREATE TABLE u (b)"].map String.toList⟩

/-- On one line the comment takes in the rest of its statement, and the next statement is read as
the end of it. -/
theorem commentedScript_does_not_come_back :
    (exportScript reading (commentedTable, ())).outcome = .ok (some commentedScript) ∧
      commentedScript.count = 4 ∧
      Script.split commentedScript.script = ["DROP TABLE IF EXISTS t",
        "CREATE TABLE t (a  DROP TABLE IF EXISTS u", "CREATE TABLE u (b)"].map String.toList :=
  ⟨rfl, rfl, by decide +kernel⟩

end Operation
end SqlInterchange
