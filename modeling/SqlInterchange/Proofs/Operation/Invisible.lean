import SqlInterchange.Proofs.Export.Veiled
import SqlInterchange.Proofs.Operation.Transactions

/-! # Hidden rows of the catalog are not seen

An export and a wipe pass over the hidden rows of the catalog, those without a statement and those
of tables that are reserved or left out.  After the question for the catalog they submit one
statement for each selected table, in the order of the catalog, and a wipe with no such table ends
there.  Nor is anything else of the hidden rows to be seen: with a catalog that leaves them out the
same is submitted, logged and told, and the result is the same (`perform_passes_over_hidden`).

A catalog can answer anything, and a walk ends with a fault if it answers rows that have not all
columns.  So all this is said of catalogs that answer named rows.
-/
namespace SqlInterchange

/-! ## One unit of work -/

namespace Backend

variable {σ ρ α : Type} {b : Backend σ} {own : ρ}

/-- The end of a unit of work begins nothing. -/
theorem start_not_mem_close (b : Backend σ) (outcome : Except Failure α) (c : σ) (own : ρ) :
    .start ∉ Trace.controls (b.close outcome (c, own)).events := by
  have hending : .start ∉ [Control.ending outcome] := by
    rw [List.mem_singleton]
    cases outcome <;> exact Control.noConfusion
  by_cases hopen : b.endsOnlyIfOpen = true → b.inTransaction c = true
  · rcases hend : b.control (.ending outcome) c with ⟨f | ⟨⟩, c'⟩
    · rw [close_of_refused hopen hend]
      exact hending
    · rw [close_apply hopen hend]
      exact hending
  · obtain ⟨hends, hclosed⟩ := Classical.not_imp.mp hopen
    rw [close_of_closed hends (Bool.eq_false_iff.mpr hclosed)]
    exact List.not_mem_nil

/-- A unit of work begins one transaction at most. -/
theorem count_start_unitOfWork {work : Activity (σ × ρ) α}
    (hwork : ∀ c, Trace.controls (work (c, own)).events = []) (c : σ) :
    (Trace.controls (b.unitOfWork work (c, own)).events).count .start ≤ 1 := by
  by_cases hfree : b.Free c
  · rw [unitOfWork_eq_transact hfree, transact_eq]
    rcases hstart : b.control .start c with ⟨f | ⟨⟩, c₁⟩
    · rw [Activity.bind_of_error (perform_apply hstart own)]
      exact Nat.le_refl 1
    · rw [Activity.bind_of_ok (perform_apply hstart own),
        Activity.bind_of_ok (Activity.attempt_apply work _)]
      have hclose := List.count_eq_zero.mpr (start_not_mem_close b (work (c₁, own)).outcome
        (work (c₁, own)).state.1 (work (c₁, own)).state.2)
      show (Control.start :: Trace.controls ((work (c₁, own)).events ++
        (b.close (work (c₁, own)).outcome (work (c₁, own)).state).events)).count .start ≤ 1
      refine Nat.le_of_eq ?_
      rw [Trace.controls_append, hwork c₁, List.nil_append, List.count_cons_self, hclose]
  · rw [unitOfWork_of_not_free hfree, hwork c]
    exact Nat.zero_le 1

end Backend

namespace Operation

variable {σ ρ : Type}

/-! ## What a request submits -/

/-- What a request submits after the catalog, if these tables are selected of it. -/
def Request.statementsFor (o : Options) (tables : List Text) : Request → List Text
  | importScript _ | importDocument _ => []
  | exportScript | exportDocument => Walk.questions o tables
  | wipe => tables.map TableDefinition.renderDrop

/-- The work of a request that reads follows the catalog with its statements. -/
theorem follows_work (call : Call σ) (b : Backend σ) {q : Request} (hq : q.Reads) (s : σ × ρ) :
    Walk.Follows call.options
      (fun es => q.statementsFor call.options (Catalog.tables es)) (fun _ _ => True)
      (q.work call b s) := by
  have hexport (remarks : Remarks) := Walk.follows_snapshot b call.options remarks s
  cases q with
  | importScript script => cases hq
  | importDocument source => cases hq
  | exportScript =>
    exact ((hexport .forScript).finish fun _ _ s₁ _ =>
      (Walk.submits_logAll [_] s₁).map _).finish fun _ _ _ _ => .of_eq rfl
  | exportDocument =>
    exact ((hexport .forDocument).finish fun _ _ s₁ _ =>
      (Walk.submits_logAll [_] s₁).map _).finish fun _ _ _ _ => .of_eq rfl
  | wipe =>
    refine ((Walk.follows_drops b call.options s).bind (fun es ds s₁ hds => ?_)
      fun _ _ _ _ _ _ => trivial).finish fun _ _ _ _ => .of_eq rfl
    subst hds
    split
    · next hempty => exact .of_eq (List.isEmpty_iff.mp hempty).symm
    · exact Pipeline.submits_runFresh ..

/-- Without hidden rows in the catalog the work of a request that reads is the same. -/
theorem resembles_work {call call' : Call σ} (b : Backend σ)
    (hoptions : call'.options = call.options) (hcallbacks : call'.callbacks = call.callbacks)
    {q : Request} (hq : q.Reads) (s : σ × ρ) :
    (q.work call b s).Resembles
      (q.work call' (b.veiled (Catalog.isHidden call.options)) s) := by
  have hexport (remarks : Remarks) := Walk.resembles_snapshot b call.options remarks s
  cases q with
  | importScript script => cases hq
  | importDocument source => cases hq
  | exportScript =>
    simp only [Request.work, hoptions]
    exact ((hexport .forScript).bind fun _ _ _ => .refl _).bind fun _ _ _ => .refl _
  | exportDocument =>
    simp only [Request.work, hoptions]
    exact ((hexport .forDocument).bind fun _ _ _ => .refl _).bind fun _ _ _ => .refl _
  | wipe =>
    simp only [Request.work, hoptions, hcallbacks]
    refine ((Walk.resembles_drops b call.options s).bind fun ds s₁ hds => ?_).bind
      fun _ _ _ => .refl _
    have hdrops : ∀ statement ∈ ds, statement ≠ Catalog.query := by
      cases Walk.follows_drops b call.options s with
      | stopped h hhalts hfails => exact absurd hds (hfails ds)
      | followed hanswer hes hsubmits hresult =>
        rw [hresult ds hds]
        exact List.forall_mem_map.mpr fun table _ => Walk.renderDrop_ne_query table
    rw [Pipeline.runFresh_veiled b _ _ _ _ _ hdrops]
    exact .refl _

/-- A wipe ends where it has nothing to drop. -/
theorem events_wipe_work {call : Call σ} {b : Backend σ} {s : σ × ρ}
    (h : ∀ ds, (Walk.drops b call.options s).outcome = .ok ds → ds = []) :
    (Request.wipe.work call b s).events = (Walk.drops b call.options s).events := by
  rcases hdrops : Walk.drops b call.options s with ⟨f | ds, s₁, es⟩
  · rw [Request.work, Activity.bind_of_error (Activity.bind_of_error hdrops)]
  · obtain rfl := h ds (congrArg Record.outcome hdrops)
    have hnothing : (Walk.drops b call.options >>= fun drops => if drops.isEmpty then pure 0
        else Pipeline.runFresh b call.callbacks.progress? (.start "wipe".toList drops 0 none)) s =
        ⟨.ok 0, s₁, es ++ []⟩ := Activity.bind_of_ok hdrops
    rw [Request.work, Activity.bind_of_ok hnothing]
    simp [Record.after, Activity.pure_apply]

/-- What a wipe does to read the catalog is one unit of work, and no run. -/
theorem alone_drops (b : Backend σ) (o : Options) (s : σ × ρ) :
    (Trace.controls (Walk.drops b o s).events).count .start ≤ 1 ∧
      (Walk.drops b o s).events.filterMap Event.runs? = [] := by
  have hreading : Walk.Reading (ρ := ρ) b _
      (do return (Catalog.tables (← Walk.catalog b o)).map TableDefinition.renderDrop) :=
    .bind (Walk.reading_catalog o) fun _ => .pure _
  constructor
  · exact Backend.count_start_unitOfWork (fun c => (hreading.steady s.2 c).1) s.1
  · exact (b.candid_unitOfWork (hreading.candid s.2)).runs s.1

/-! ## Hidden rows -/

/-- A wipe for which nothing is selected is one unit of work, and no run. -/
theorem alone_wipe (call : Call σ) (s : σ × ρ)
    (hnamed : Trace.IsNamed ((backend call >>= Request.wipe.work call) s).events)
    (hselected : ∀ rows, .submitted Catalog.query (.ok rows) ∈
        ((backend call >>= Request.wipe.work call) s).events →
      Catalog.selected call.options rows = []) :
    (Trace.controls ((backend call >>= Request.wipe.work call) s).events).count .start ≤ 1 ∧
      ((backend call >>= Request.wipe.work call) s).events.filterMap Event.runs? = [] := by
  cases hb : call.registry.adapt call.handle with
  | ok b =>
    rw [backend_bind_apply hb] at hnamed hselected ⊢
    have hdrops : ∀ ds, (Walk.drops b call.options s).outcome = .ok ds → ds = [] := by
      intro ds hds
      cases Walk.follows_drops b call.options s with
      | stopped h hhalts hfails => exact absurd hds (hfails ds)
      | @followed rows es hanswer hes hsubmits hresult =>
        have hanswered : .submitted Catalog.query (.ok rows) ∈
            (Request.wipe.work call b s).events :=
          ((Activity.prefix_bind ..).trans (Activity.prefix_bind ..)).subset hanswer
        rw [hresult ds hds, Catalog.tables_eq_selected (hnamed rows hanswered) hes,
          hselected rows hanswered]
        rfl
    rw [events_wipe_work hdrops]
    exact alone_drops b call.options s
  | error e =>
    rw [backend_of_error hb]
    exact ⟨Nat.zero_le 1, rfl⟩

theorem same_request {call call' : Call σ} (hoptions : call'.options = call.options)
    (hcallbacks : call'.callbacks = call.callbacks)
    (hadapt : call'.registry.adapt call'.handle = (call.registry.adapt call.handle).map
      (·.veiled (Catalog.isHidden call.options)))
    {q : Request} (hq : q.Reads) (s : σ × ρ) :
    ((backend call >>= q.work call) s).Resembles ((backend call' >>= q.work call') s) := by
  cases hb : call.registry.adapt call.handle with
  | ok b =>
    rw [hb] at hadapt
    rw [backend_bind_apply hb, backend_bind_apply hadapt]
    exact resembles_work b hoptions hcallbacks hq s
  | error e =>
    rw [hb] at hadapt
    rw [backend_of_error hb, backend_of_error hadapt]
    exact .refl _

/-- There is no fault in named rows, so only the connection keeps work from going on. -/
theorem exists_failure_of_halts {o : Options} {events : List Event} (hnamed : Trace.IsNamed events)
    (h : Walk.Halts o events) : ∃ e ∈ events, e.failure?.isSome := by
  cases h with
  | @failed e f he hf => exact ⟨e, he, Option.isSome_of_eq_some hf⟩
  | @faulty rows f hanswer hes =>
    obtain ⟨es, hok, -⟩ := Catalog.entries_without_hidden (hnamed rows hanswer)
    cases hes.symm.trans hok

/-- How a request passes over the hidden rows of the catalog. -/
structure PassesOver (call : Call σ) (q : Request) (s : σ × ρ) : Prop where
  /-- If the catalog is answered, then the request submits its statements for the tables that are
  selected of it, in order; all of them if it has a result.  If not, because there is no backend or
  the connection fails, then it submits nothing else and has no result. -/
  submits :
    let r := q.perform call s
    (Trace.submissions r.events <+: [Catalog.query] ∧
        (∀ result, r.outcome ≠ .ok (some result)) ∧
        ((∃ e, call.registry.adapt call.handle = .error e) ∨ ∃ e ∈ r.events, e.failure?.isSome)) ∨
      ∃ rows, .submitted Catalog.query (.ok rows) ∈ r.events ∧
        let statements := Catalog.query ::
          q.statementsFor call.options (Catalog.selected call.options rows)
        Trace.submissions r.events <+: statements ∧
          ∀ result, r.outcome = .ok (some result) → Trace.submissions r.events = statements
  /-- If nothing is selected to be wiped, then no transaction is begun but that in which the catalog
  is read, and no run of statements. -/
  rests : q = .wipe →
    (∀ rows, .submitted Catalog.query (.ok rows) ∈ (q.perform call s).events →
      Catalog.selected call.options rows = []) →
    (Trace.controls (q.perform call s).events).count .start ≤ 1 ∧
      (q.perform call s).events.filterMap Event.runs? = []
  /-- With a catalog without these rows the request does the same. -/
  overlooks : ∀ call' : Call σ, call'.options = call.options → call'.callbacks = call.callbacks →
    call'.registry.adapt call'.handle = (call.registry.adapt call.handle).map
      (·.veiled (Catalog.isHidden call.options)) →
    (q.perform call s).SameButCatalog (q.perform call' s) ∧
      Trace.submissions (q.perform call' s).events = Trace.submissions (q.perform call s).events

/-- **Main.** An export and a wipe pass over the hidden rows of the catalog. -/
theorem perform_passes_over_hidden (call : Call σ) {q : Request} (hq : q.Reads) (s : σ × ρ)
    (hnamed : Trace.IsNamed (q.perform call s).events) : PassesOver call q s := by
  have hreport := remarks_verdict q.name call.callbacks id
    ((backend call >>= q.work call) s).outcome
  -- what is answered, is answered to the work
  have hevents : ((backend call >>= q.work call) s).events ⊆ (q.perform call s).events := by
    rw [Request.perform_apply]
    exact List.subset_append_left ..
  have hnamed : Trace.IsNamed ((backend call >>= q.work call) s).events := fun rows h =>
    hnamed rows (hevents h)
  constructor
  case submits =>
    have hresult {result : Success} (h : (q.perform call s).outcome = .ok (some result)) :
        ((backend call >>= q.work call) s).outcome = .ok result := by
      rw [Request.perform_eq] at h
      exact outcome_of_reported h
    have hsame : Trace.submissions (q.perform call s).events =
        Trace.submissions ((backend call >>= q.work call) s).events := by
      rw [Request.perform_apply, Trace.submissions_append, hreport.submissions_eq, List.append_nil]
    intro r
    rw [hsame]
    cases hb : call.registry.adapt call.handle with
    | error e =>
      rw [backend_of_error hb] at hresult ⊢
      exact .inl ⟨List.nil_prefix, (fun result h => nomatch hresult h), .inl ⟨e, rfl⟩⟩
    | ok b =>
      rw [backend_bind_apply hb] at hresult hevents hnamed ⊢
      cases follows_work call b hq s with
      | stopped h hhalts hfails =>
        obtain ⟨e, he, hfailure⟩ := exists_failure_of_halts hnamed hhalts
        exact .inl ⟨h, fun result h => hfails result (hresult h), .inr ⟨e, hevents he, hfailure⟩⟩
      | @followed rows es hanswer hes hsubmits =>
        rw [Catalog.tables_eq_selected (hnamed rows hanswer) hes] at hsubmits
        exact .inr ⟨rows, hevents hanswer, hsubmits.first,
          fun result h => hsubmits.all result (hresult h)⟩
  case rests =>
    rintro rfl hselected
    obtain ⟨hstarts, hruns⟩ := alone_wipe call s hnamed fun rows h => hselected rows (hevents h)
    rw [Request.perform_apply]
    constructor
    · rwa [Trace.controls_append, hreport.controls_eq, List.append_nil]
    · rw [List.filterMap_append, hruns, List.filterMap_eq_nil_iff.mpr fun e he =>
        (apart_verdict _ _ _ _ e he).2]
      rfl
  case overlooks =>
    intro call' hoptions hcallbacks hadapt
    obtain ⟨houtcome, hstate, hevents⟩ := same_request hoptions hcallbacks hadapt hq s hnamed
    have hsame : (q.perform call s).SameButCatalog (q.perform call' s) := by
      rw [Request.perform_apply, Request.perform_apply, houtcome, hcallbacks]
      refine ⟨rfl, hstate, ?_⟩
      simp only [Trace.blotted_append, hevents]
    refine ⟨hsame, ?_⟩
    rw [← Trace.submissions_blotted, hsame.events, Trace.submissions_blotted]

/-! ### A wipe of one table -/

/-- A row of the catalog. -/
def catalogRow (type name table : String) (definition : Value) : Row :=
  .ofList [("type".toList, .text type.toList), ("name".toList, .text name.toList),
    ("tbl_name".toList, .text table.toList), ("sql".toList, definition)]

theorem isNamed_catalogRow {type name table : String} (h : type = "table" → name = table)
    (definition : Value) : Catalog.IsNamed (catalogRow type name table definition) where
  type := ⟨_, rfl⟩
  name := ⟨_, rfl⟩
  table := ⟨_, rfl⟩
  definition := ⟨_, rfl⟩
  own htype := by
    rw [h (String.toList_inj.mp (Option.some.inj htype))]
    rfl

/-- A catalog of a table, with what belongs to it, to reserved tables and to a table left out. -/
def mixedCatalog : List Row :=
  [catalogRow "table" "SQLite_stat1" "SQLite_stat1" (.text "CREATE TABLE SQLite_stat1 (a)".toList),
    catalogRow "table" "t" "t" (.text "CREATE TABLE t (a UNIQUE)".toList),
    catalogRow "index" "i" "t" .null,
    catalogRow "trigger" "r" "t__old" (.text "CREATE TRIGGER r".toList),
    catalogRow "table" "u" "u" (.text "CREATE TABLE u (a)".toList)]

/-- A database with this catalog, which knows no transactions and takes all statements. -/
def mixed : Backend Unit where
  inTransaction _ := false
  control _ c := (.ok (), c)
  submit statement c := (.ok (if statement = Catalog.query then mixedCatalog else []), c)
  name := "RecordingBackend".toList
  joinsOpen := false
  endsOnlyIfOpen := false

/-- A caller who wants the table `t` alone. -/
def mixedCall : Call Unit where
  registry := .standard
  handle := .backend mixed
  options := ⟨.null, .null, some [.text "t".toList], 1, Options.one_le_single,
    by simp [Value.isTruthy]⟩
  callbacks := ⟨none, none, none⟩

theorem wipe_passes_over_hidden :
    Trace.submissions (Request.wipe.perform mixedCall ((), ())).events =
        [Catalog.query, "DROP TABLE IF EXISTS t".toList] ∧
      PassesOver mixedCall .wipe ((), ()) := by
  have hevents : (Request.wipe.perform mixedCall ((), ())).events =
      [.controlled .start (.ok ()), .submitted Catalog.query (.ok mixedCatalog),
        .controlled .commit (.ok ()),
        .logged (.phaseStarted "wipe".toList "RecordingBackend".toList 1),
        .controlled .start (.ok ()), .submitted (TableDefinition.renderDrop "t".toList) (.ok []),
        .controlled .commit (.ok ()),
        .logged (.phaseFinished "wipe".toList "RecordingBackend".toList 1)] := rfl
  have hreads : Request.wipe.Reads := trivial
  have hcatalog : ∀ row ∈ mixedCatalog, Catalog.IsNamed row := by
    simp only [mixedCatalog, List.forall_mem_cons]
    refine ⟨?_, ?_, ?_, ?_, ?_, fun row h => nomatch h⟩
    all_goals exact isNamed_catalogRow (by decide) _
  refine ⟨by rw [hevents]; rfl, perform_passes_over_hidden mixedCall hreads ((), ()) ?_⟩
  intro rows hrows
  rw [hevents] at hrows
  obtain rfl : rows = mixedCatalog := by simpa [(Walk.renderDrop_ne_query _).symm] using hrows
  exact hcatalog

end Operation
end SqlInterchange
