import SqlInterchange.Proofs.Export.Alike

/-! # What a document leaves out

An export says two things on its way: the questions that it puts to the database, and the remarks
that it writes to the log.  Whatever answers, these are determined by the snapshot that it takes in
the end (`says_snapshot`): the question for the catalog, the remarks on the definitions, and for
each table the question for its rows and the remarks on them.  A script and a document of the same
snapshot therefore come of the same questions.

They differ in what they have of the snapshot.  A definition that cannot be read is one statement
of the document and two of the script, a row without a value is none and one.  The first is
remarked on, and so is the second, so that the log tells by how much the two counts differ
(`exports_differ_by_what_is_dropped`).
-/
namespace SqlInterchange

/-! ## What is said -/

/-- What an event says: a statement to the database, or an entry to the log. -/
def Event.said? : Event → Option (Text ⊕ LogEntry)
  | submitted statement _ => some (.inl statement)
  | logged entry => some (.inr entry)
  | _ => none

namespace Trace

/-- What is said, in order. -/
def transcript (es : List Event) : List (Text ⊕ LogEntry) := es.filterMap Event.said?

/-- The entries that are written to the log, in order. -/
def logs (es : List Event) : List LogEntry := (transcript es).filterMap Sum.getRight?

theorem transcript_append (es fs : List Event) :
    transcript (es ++ fs) = transcript es ++ transcript fs :=
  List.filterMap_append

theorem transcript_logged (entries : List LogEntry) :
    transcript (entries.map .logged) = entries.map .inr := by
  rw [transcript, List.filterMap_map]
  exact congrFun List.filterMap_eq_map' entries

theorem submissions_eq (es : List Event) :
    submissions es = (transcript es).filterMap Sum.getLeft? := by
  rw [submissions, transcript, List.filterMap_filterMap]
  refine congrArg (List.filterMap · es) (funext fun e => ?_)
  cases e <;> rfl

end Trace

/-- Whether work that has a result has said what the result tells, counting what was said before. -/
def Record.Says {S α : Type} (before : List (Text ⊕ LogEntry)) (told : α → List (Text ⊕ LogEntry))
    (r : Record S α) : Prop :=
  ∀ a, r.outcome = .ok a → before ++ Trace.transcript r.events = told a

namespace Record.Says

variable {S α β : Type} {before : List (Text ⊕ LogEntry)} {L : α → List (Text ⊕ LogEntry)}
  {N : β → List (Text ⊕ LogEntry)}

theorem pure {b : β} (h : before = N b) (s : S) : ((Pure.pure b : Activity S β) s).Says before N := by
  intro b' hb
  obtain rfl : b = b' := Except.ok.inj hb
  exact (List.append_nil before).trans h

theorem behind {L N : α → List (Text ⊕ LogEntry)} {r : Record S α} (h : r.Says [] L)
    (hN : ∀ a, before ++ L a = N a) : r.Says before N :=
  fun a ha => (congrArg (before ++ ·) (h a ha)).trans (hN a)

/-- What is said first is said before the rest. -/
theorem bind {p : Activity S α} {k : α → Activity S β} {s : S} (hp : (p s).Says [] L)
    (hk : ∀ a s', (k a s').Says (before ++ L a) N) : ((p >>= k) s).Says before N := by
  intro b hb
  obtain ⟨a, s', es, hps, hks⟩ := Activity.exists_of_bind_ok hb
  have hfirst : Trace.transcript es = L a := by simpa [hps] using hp a (congrArg Record.outcome hps)
  rw [Activity.bind_of_ok hps, Record.after, Trace.transcript_append, hfirst, ← List.append_assoc]
  exact hk a s' b hks

end Record.Says

namespace Walk

variable {σ ρ α : Type} {b : Backend σ} {o : Options} {remarks : Remarks}

theorem says_orFault (result : Except Fault α) (s : σ × ρ) :
    (orFault result s).Says [] fun _ => [] := by
  cases result with
  | ok a => exact fun _ _ => rfl
  | error f => exact nofun

theorem says_logAll (entries : List LogEntry) (s : σ × ρ) :
    (Activity.logAll entries s).Says [] fun _ => entries.map .inr :=
  fun _ _ => Trace.transcript_logged entries

theorem says_ask (b : Backend σ) (statement : Text) (s : σ × ρ) :
    (ask b statement s).Says [] fun _ => [.inl statement] := by
  obtain ⟨c, own⟩ := s
  rw [ask_apply]
  exact fun _ _ => rfl

/-- The remarks on definitions. -/
def definitionRemarks (remarks : Remarks) (ds : List Catalog.Definition) :
    List (Text ⊕ LogEntry) := (ds.flatMap remarks.onDefinition).map .inr

theorem says_definitions (remarks : Remarks) (es : List Catalog.Entry) (s : σ × ρ) :
    (definitions remarks es s).Says [] (definitionRemarks remarks) := by
  induction es generalizing s with
  | nil => exact .pure (by rfl) s
  | cons e es ih =>
    refine .bind (says_orFault _ s) fun d s => .bind (says_logAll _ s) fun _ s => ?_
    refine .bind (ih s) fun ds s => .pure ?_ s
    simp [definitionRemarks]

/-- The questions for the rows of tables, with the remarks on each answer behind it. -/
def contentRemarks (remarks : Remarks) (contents : List (Text × List Row)) :
    List (Text ⊕ LogEntry) :=
  contents.flatMap fun (table, rows) =>
    .inl (Catalog.tableQuery table) :: (remarks.onRows table rows).map .inr

theorem says_contents (remarks : Remarks) (tables : List Text) (s : σ × ρ) :
    (contents b remarks tables s).Says [] (contentRemarks remarks) := by
  induction tables generalizing s with
  | nil => exact .pure (by rfl) s
  | cons table tables ih =>
    refine .bind (says_ask b _ s) fun rows s => .bind (says_logAll _ s) fun _ s => ?_
    refine .bind (ih s) fun cs s => .pure ?_ s
    simp [contentRemarks]

/-- What is said until a snapshot is taken. -/
def transcript (remarks : Remarks) (x : Snapshot) : List (Text ⊕ LogEntry) :=
  .inl Catalog.query :: definitionRemarks remarks x.definitions ++
    contentRemarks remarks x.contents

theorem says_gather (b : Backend σ) (o : Options) (remarks : Remarks) (s : σ × ρ) :
    (gather b o remarks s).Says [] (transcript remarks) := by
  have hcatalog (s : σ × ρ) : (catalog b o s).Says [] fun _ => [.inl Catalog.query] :=
    .bind (says_ask b _ s) fun rows s => (says_orFault _ s).behind fun _ => rfl
  have hdefinitions (es : List Catalog.Entry) (s : σ × ρ) :
      ((if o.isDataOnly then pure [] else definitions remarks es) s).Says []
        (definitionRemarks remarks) := by
    split
    · exact .pure (by rfl) s
    · exact says_definitions remarks es s
  have hcontents (tables : List Text) (s : σ × ρ) :
      ((if o.isStructureOnly then pure [] else contents b remarks tables) s).Says []
        (contentRemarks remarks) := by
    split
    · exact .pure (by rfl) s
    · exact says_contents remarks tables s
  rw [gather_eq]
  exact .bind (hcatalog s) fun es s => .bind (hdefinitions es s) fun ds s =>
    .bind (hcontents _ s) fun cs s => .pure (by rfl) s

/-- To begin and to end a transaction says nothing. -/
theorem transcript_controlled {es : List Event}
    (h : ∀ e ∈ es, ∃ control answer, e = .controlled control answer) : Trace.transcript es = [] := by
  refine List.filterMap_eq_nil_iff.mpr fun e he => ?_
  obtain ⟨control, answer, rfl⟩ := h e he
  rfl

/-- **The questions and the remarks on the way to a snapshot are those of the snapshot**, whatever
answers. -/
theorem says_snapshot (b : Backend σ) (o : Options) (remarks : Remarks) (s : σ × ρ) :
    (snapshot b o remarks s).Says [] (transcript remarks) := by
  obtain ⟨c, own⟩ := s
  rw [snapshot_eq]
  intro x hx
  generalize hr : b.unitOfWork (gather b o remarks) (c, own) = r at hx
  have hleaves : Backend.UnitLeaves (gather b o remarks) own r :=
    hr ▸ Backend.unitOfWork_leaves b _ c own
  cases hleaves with
  | joined c => exact says_gather b o remarks (c, own) x hx
  | unbegun c f => cases hx
  | @ended c c' es hes =>
    have hends : Trace.transcript es = [] := transcript_controlled fun e he => by
      obtain ⟨control, rfl⟩ := hes e he
      exact ⟨control, _, rfl⟩
    show Trace.transcript ((gather b o remarks (c, own)).events ++ es) = _
    rw [Trace.transcript_append, hends, List.append_nil]
    exact says_gather b o remarks (c, own) x hx
  | unended c c' control f => cases hx

/-- The questions are the same whatever is remarked. -/
theorem questions_transcript (remarks : Remarks) (x : Snapshot) :
    (transcript remarks x).filterMap Sum.getLeft? =
      Catalog.query :: x.contents.map fun e => Catalog.tableQuery e.1 := by
  have hremarks (entries : List LogEntry) :
      (entries.map .inr : List (Text ⊕ LogEntry)).filterMap Sum.getLeft? = [] := by simp
  have hcontents : (contentRemarks remarks x.contents).filterMap Sum.getLeft? =
      x.contents.map fun e => Catalog.tableQuery e.1 := by
    rw [contentRemarks, List.filterMap_flatMap, List.map_eq_flatMap]
    exact congrArg (List.flatMap · x.contents) (funext fun e => congrArg (_ :: ·) (hremarks _))
  show Catalog.query :: (definitionRemarks remarks x.definitions ++ _).filterMap Sum.getLeft? = _
  rw [List.filterMap_append, definitionRemarks, hremarks, List.nil_append, hcontents]

/-- And the remarks are those on the parts of the snapshot. -/
theorem logs_transcript (remarks : Remarks) (x : Snapshot) :
    (transcript remarks x).filterMap Sum.getRight? =
      x.definitions.flatMap remarks.onDefinition ++
        x.contents.flatMap fun e => remarks.onRows e.1 e.2 := by
  have hremarks (entries : List LogEntry) :
      (entries.map .inr : List (Text ⊕ LogEntry)).filterMap Sum.getRight? = entries := by
    rw [List.filterMap_map]
    exact List.filterMap_some
  have hcontents : (contentRemarks remarks x.contents).filterMap Sum.getRight? =
      x.contents.flatMap fun e => remarks.onRows e.1 e.2 := by
    rw [contentRemarks, List.filterMap_flatMap]
    exact congrArg (List.flatMap · x.contents) (funext fun e => hremarks _)
  show (definitionRemarks remarks x.definitions ++ _).filterMap Sum.getRight? = _
  rw [List.filterMap_append, definitionRemarks, hremarks, hcontents]

end Walk

/-! ## What is counted -/

/-- Whether an entry of the log is of a definition that cannot be read. -/
def LogEntry.isUnparsed : LogEntry → Bool
  | unparsedTableDefinition _ => true
  | _ => false

/-- Whether an entry of the log is of a row without a value. -/
def LogEntry.isEmptyRow : LogEntry → Bool
  | emptyRowSkipped _ => true
  | _ => false

namespace Snapshot

open Catalog (Definition)

/-- A definition is as many statements of a script as of a document, and one more if it is remarked
on. -/
theorem length_definitionStatements (ds : List Definition) :
    (ds.flatMap definitionStatements).length = 2 * (tableClauses ds).length +
      (otherStatements ds).length + (ds.flatMap Remarks.unparsed).countP LogEntry.isUnparsed := by
  induction ds with
  | nil => rfl
  | cons d ds ih =>
    have hscript : (definitionStatements d).length = if d.isTable then 2 else 1 := by
      rw [definitionStatements]
      split <;> rfl
    rw [List.flatMap_cons, List.flatMap_cons, List.length_append, List.countP_append, ih, hscript]
    cases hclause : d.clause? with
    | none =>
      have hremark : (Remarks.unparsed d).countP LogEntry.isUnparsed =
          if d.isTable then 1 else 0 := by
        cases htable : d.isTable <;> simp [Remarks.unparsed, hclause, htable, LogEntry.isUnparsed]
      have hother : (otherStatements (d :: ds)).length = (otherStatements ds).length + 1 := by
        simp [otherStatements, hclause]
      have hclauses : tableClauses (d :: ds) = tableClauses ds := by simp [tableClauses, hclause]
      rw [hremark, hother, hclauses]
      split <;> omega
    | some clause =>
      have htable : d.isTable = true := by
        by_contra hnot
        rw [Definition.clause?, if_neg hnot] at hclause
        cases hclause
      have hremark : Remarks.unparsed d = [] := by simp [Remarks.unparsed, hclause]
      have hother : otherStatements (d :: ds) = otherStatements ds := by
        simp [otherStatements, hclause]
      have hclauses : (tableClauses (d :: ds)).length = (tableClauses ds).length + 1 := by
        simp [tableClauses, hclause]
      rw [hremark, hother, hclauses, if_pos htable, List.countP_nil]
      omega

/-- A row is in the document, or it is remarked on. -/
theorem length_rows (table : Text) (rows : List Row) : rows.length =
    (documentRows rows).length + (Remarks.emptyRows table rows).countP LogEntry.isEmptyRow := by
  induction rows with
  | nil => rfl
  | cons row rows ih =>
    simp only [documentRows, Remarks.emptyRows, List.map_cons, List.filter_cons,
      List.length_cons] at ih ⊢
    cases (recoverRow row).isEmpty with
    | false =>
      simp only [Bool.not_false, if_true, Bool.false_eq_true, if_false, List.length_cons]
      omega
    | true =>
      simp only [Bool.not_true, if_true, Bool.false_eq_true, if_false, List.map_cons,
        List.countP_cons, LogEntry.isEmptyRow]
      omega

theorem length_rowStatements (contents : List (Text × List Row)) :
    (contents.flatMap fun (table, rows) => rowStatements table rows).length =
      (contents.flatMap fun e => documentRows e.2).length +
        (contents.flatMap fun e => Remarks.emptyRows e.1 e.2).countP LogEntry.isEmptyRow := by
  induction contents with
  | nil => rfl
  | cons e contents ih =>
    have hfirst := length_rows e.1 e.2
    simp only [List.flatMap_cons, List.length_append, List.countP_append, rowStatements,
      List.length_map] at ih ⊢
    omega

/-- **A script has more statements than the document of the same snapshot by one for each remark.** -/
theorem count_toScript (x : Snapshot) (includeSchema includeChanges : Bool) :
    let logs := x.definitions.flatMap Remarks.unparsed ++
      x.contents.flatMap fun e => Remarks.emptyRows e.1 e.2
    x.toScript.count = (x.toDocument includeSchema includeChanges).count +
      (logs.countP LogEntry.isUnparsed + logs.countP LogEntry.isEmptyRow) := by
  intro logs
  have hunparsed : (x.definitions.flatMap Remarks.unparsed).countP LogEntry.isEmptyRow = 0 := by
    refine List.countP_eq_zero.mpr fun entry hentry => ?_
    obtain ⟨d, -, hd⟩ := List.mem_flatMap.mp hentry
    rw [Remarks.unparsed] at hd
    split at hd
    · rw [List.mem_singleton.mp hd]
      exact Bool.false_ne_true
    · cases hd
  have hrows : (x.contents.flatMap fun e => Remarks.emptyRows e.1 e.2).countP
      LogEntry.isUnparsed = 0 := by
    refine List.countP_eq_zero.mpr fun entry hentry => ?_
    obtain ⟨e, -, he⟩ := List.mem_flatMap.mp hentry
    obtain ⟨row, -, rfl⟩ := List.mem_map.mp he
    exact Bool.false_ne_true
  have hdefinitions := length_definitionStatements x.definitions
  have hcontents := length_rowStatements x.contents
  simp only [logs, List.countP_append, hunparsed, hrows, ScriptExport.count, toScript,
    List.length_append, hdefinitions, hcontents, toDocument]
  omega

end Snapshot

/-! ## Exports -/

namespace Walk

variable {σ ρ : Type} {b : Backend σ} {o : Options} {x : Snapshot} {s s' : σ × ρ} {es : List Event}

/-- The entry that an export of so many statements is done. -/
def finished (x : Snapshot) (count : Nat) : LogEntry :=
  .exportFinished (Catalog.tables x.entries).length count

theorem script_apply (h : snapshot b o .forScript s = ⟨.ok x, s', es⟩) : script b o s =
    ⟨.ok x.toScript, s', es ++ [.logged (finished x x.toScript.count)]⟩ :=
  Activity.bind_of_ok h

theorem document_apply (h : snapshot b o .forDocument s = ⟨.ok x, s', es⟩) :
    let result := x.toDocument (!o.isDataOnly) (!o.isStructureOnly)
    document b o s = ⟨.ok result, s', es ++ [.logged (finished x result.count)]⟩ :=
  Activity.bind_of_ok h

end Walk

namespace Operation

variable {α : Type}

/-- The report of a result is nothing to the database and nothing to the log. -/
theorem transcript_verdict (name : String) (callbacks : Callbacks) (success : α → Success) (a : α) :
    Trace.transcript (verdict name callbacks success (.ok a)).1 = [] := by
  cases hcallback : callbacks.success? <;> simp only [verdict, hcallback] <;> rfl

variable {σ σ' ρ ρ' : Type}

/-- Work that takes a snapshot and logs its end is reported with its result, and has said what the
snapshot tells and that it is done. -/
theorem reported_of_snapshot {call : Call σ} {b : Backend σ}
    (hb : call.registry.adapt call.handle = .ok b) {remarks : Remarks} {x : Snapshot}
    {s s' : σ × ρ} {es : List Event}
    (hsnapshot : Walk.snapshot b call.options remarks s = ⟨.ok x, s', es⟩)
    {work : Backend σ → Activity (σ × ρ) α} {a : α} {entry : LogEntry}
    (hwork : work b s = ⟨.ok a, s', es ++ [.logged entry]⟩) (name : String)
    (success : α → Success) :
    let r := reported name call.callbacks success (backend call >>= work) s
    r.outcome = (verdict name call.callbacks success (.ok a)).2 ∧
      Trace.transcript r.events = Walk.transcript remarks x ++ [.inr entry] := by
  intro r
  have hsays : Trace.transcript es = Walk.transcript remarks x := by
    simpa [hsnapshot] using Walk.says_snapshot b call.options remarks s x
  have hr : r = ⟨(verdict name call.callbacks success (.ok a)).2, s',
      es ++ [.logged entry] ++ (verdict name call.callbacks success (.ok a)).1⟩ := by
    show reported _ _ _ _ s = _
    rw [reported_apply, backend_bind_apply hb, hwork]
  rw [hr]
  refine ⟨rfl, ?_⟩
  rw [Trace.transcript_append, Trace.transcript_append, transcript_verdict, hsays]
  exact List.append_nil _

/-- **Main.**  Two exports of what is the same database are answered, the one by a script and the
other by a document, whatever the callbacks make of it.  The script has as many statements as the
document counts, and one for each definition that the log says cannot be read and for each row that
it says is skipped.  Both have asked the database the same, in the same order. -/
theorem exports_differ_by_what_is_dropped {call : Call σ} {call' : Call σ'} {b : Backend σ}
    {b' : Backend σ'} {Holds : σ → Prop} {Holds' : σ' → Prop} {catalog : List Row}
    {stored : Text → List Row} (hoptions : call'.options = call.options)
    (hb : call.registry.adapt call.handle = .ok b)
    (hb' : call'.registry.adapt call'.handle = .ok b')
    (hserves : Walk.Serves b Holds catalog stored) (hserves' : Walk.Serves b' Holds' catalog stored)
    (htextual : ∀ row ∈ catalog, Catalog.IsTextual row)
    (s : σ × ρ) (hs : Holds s.1) (s' : σ' × ρ') (hs' : Holds' s'.1) :
    let script := exportScript call s
    let document := exportDocument call' s'
    ∃ e e',
      script.outcome = (verdict "export_sql" call.callbacks .script (.ok e)).2 ∧
      document.outcome = (verdict "export_json" call'.callbacks .document (.ok e')).2 ∧
      e.count = e'.count + ((Trace.logs document.events).countP LogEntry.isUnparsed +
        (Trace.logs document.events).countP LogEntry.isEmptyRow) ∧
      Trace.submissions script.events = Trace.submissions document.events := by
  intro script document
  obtain ⟨es, ds, hcatalog⟩ := Catalog.exists_yields call.options htextual
  -- both take the same snapshot
  obtain ⟨x, s₁, events, hsnapshot, hx, -⟩ :=
    Walk.triple_snapshot hserves .forScript hcatalog s hs
  obtain ⟨x', s₁', events', hsnapshot', hx', -⟩ :=
    Walk.triple_snapshot hserves' .forDocument hcatalog s' hs'
  obtain rfl : x = x' := hx.trans hx'.symm
  rw [← hoptions] at hsnapshot'
  let e := x.toScript
  let e' := x.toDocument (!call'.options.isDataOnly) (!call'.options.isStructureOnly)
  obtain ⟨houtcome, hscript⟩ : script.outcome = _ ∧ Trace.transcript script.events = _ :=
    reported_of_snapshot hb hsnapshot (Walk.script_apply hsnapshot) "export_sql" .script
  obtain ⟨houtcome', hdocument⟩ : document.outcome = _ ∧ Trace.transcript document.events = _ :=
    reported_of_snapshot hb' hsnapshot' (Walk.document_apply hsnapshot') "export_json" .document
  refine ⟨e, e', houtcome, houtcome', ?_, ?_⟩
  · have hlogs : Trace.logs document.events = x.definitions.flatMap Remarks.unparsed ++
        (x.contents.flatMap fun f => Remarks.emptyRows f.1 f.2) ++ [Walk.finished x e'.count] := by
      rw [Trace.logs, hdocument, List.filterMap_append, Walk.logs_transcript]
      rfl
    have hlast (p : LogEntry → Bool) (hp : p (Walk.finished x e'.count) = false)
        (entries : List LogEntry) :
        (entries ++ [Walk.finished x e'.count]).countP p = entries.countP p := by
      simp [List.countP_append, hp]
    rw [hlogs, hlast _ rfl, hlast _ rfl]
    exact x.count_toScript (!call'.options.isDataOnly) (!call'.options.isStructureOnly)
  · rw [Trace.submissions_eq, Trace.submissions_eq, hscript, hdocument, List.filterMap_append,
      List.filterMap_append, Walk.questions_transcript, Walk.questions_transcript]
    rfl

/-! ### A definition and a row that are dropped -/

/-- Two tables, one of which is virtual, while the other has a row with a word for absence. -/
def lossyAnswers : List Scripted.Answer :=
  [⟨"sqlite_master".toList, some (["type", "name", "tbl_name", "sql"].map String.toList),
    [["table", "t", "t", "CREATE TABLE t (a)"].map (Value.text ·.toList),
      ["table", "v", "v", "CREATE VIRTUAL TABLE v USING fts5(a)"].map (Value.text ·.toList)]⟩,
    ⟨"FROM t".toList, some ["a".toList], [[.text "x".toList], [.text "undefined".toList]]⟩]

/-- A connection that answers so. -/
def lossy : Scripted.Script := rehearsed lossyAnswers

/-- Exports of both tables. -/
def lossyCall : Call Scripted.Script where
  registry := .standard
  handle := Scripted.handle .recording
  options := .standard
  callbacks := ⟨none, none, none⟩

theorem lossy_exports_differ : ∃ e e',
    (exportScript lossyCall (lossy, ())).outcome = .ok (some e) ∧
      (exportDocument lossyCall (lossy, ())).outcome = .ok (some e') ∧
      e.count = e'.count + 2 := by
  have hb : lossyCall.registry.adapt lossyCall.handle = .ok Scripted.recording := rfl
  have hserves := serves_rehearsed lossyAnswers
  have htextual : ∀ row ∈ lossy.result Catalog.query, Catalog.IsTextual row :=
    List.forall_mem_cons.mpr ⟨⟨⟨_, rfl⟩, ⟨_, rfl⟩, ⟨_, rfl⟩, .inr ⟨_, rfl⟩⟩,
      List.forall_mem_singleton.mpr ⟨⟨_, rfl⟩, ⟨_, rfl⟩, ⟨_, rfl⟩, .inr ⟨_, rfl⟩⟩⟩
  obtain ⟨e, e', hscript, hdocument, hcount, -⟩ := exports_differ_by_what_is_dropped rfl hb hb
    hserves hserves htextual (lossy, ()) rfl (lossy, ()) rfl
  have hdropped : (Trace.logs (exportDocument lossyCall (lossy, ())).events).countP
      LogEntry.isUnparsed + (Trace.logs (exportDocument lossyCall (lossy, ())).events).countP
        LogEntry.isEmptyRow = 2 := by
    decide +kernel
  exact ⟨e, e', hscript, hdocument, hcount.trans (congrArg (e'.count + ·) hdropped)⟩

end Operation
end SqlInterchange
