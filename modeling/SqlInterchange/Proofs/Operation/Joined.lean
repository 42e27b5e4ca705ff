import SqlInterchange.Proofs.Operation.Request
import SqlInterchange.Proofs.Operation.TwoPhases

/-! # Joining an open transaction

A caller may have a transaction open when an operation begins.  A backend that joins it does all
units of work in it, so the operation asks the connection for nothing but its statements: it begins
no transaction, commits none and rolls none back, however it ends, and leaves the connection as its
statements leave it (`perform_leaves_transaction_to_owner`).  As long as no statement ends the
transaction itself, it is open all the while, and so is the caller's own at the end.

The invariant is `OnlySubmits`.  It holds of all that is done inside a unit of work, whatever the
state of the connection; of conducted work it holds while the transaction is open, and that it still
is after the first part of a sequence is what the invariant says of the first part.
-/
namespace SqlInterchange

variable {σ ρ α β : Type} {conn : Connection σ}

/-! ## The connection after statements -/

namespace Connection

/-- The connection after some statements. -/
def after (conn : Connection σ) (c : σ) (statements : List Text) : σ :=
  statements.foldl (fun c statement => (conn.submit statement c).2) c

/-- Whether a statement ends no transaction that is open. -/
def StaysIn (conn : Connection σ) (statement : Text) : Prop :=
  ∀ c, conn.inTransaction c = true → conn.inTransaction (conn.submit statement c).2 = true

theorem after_append (c : σ) (xs ys : List Text) :
    conn.after c (xs ++ ys) = conn.after (conn.after c xs) ys :=
  List.foldl_append

theorem inTransaction_after {c : σ} {statements : List Text} (hc : conn.inTransaction c = true)
    (hstays : ∀ statement ∈ statements, conn.StaysIn statement) :
    conn.inTransaction (conn.after c statements) = true := by
  induction statements generalizing c with
  | nil => exact hc
  | cons statement statements ih =>
    obtain ⟨hfirst, hrest⟩ := List.forall_mem_cons.mp hstays
    exact ih (hfirst c hc) hrest

end Connection

/-! ## Work that only submits -/

/-- Whether work asks the connection for nothing but its statements: it begins and ends no
transaction, and the connection is afterwards as the statements leave it. -/
structure Record.OnlySubmits (conn : Connection σ) (c : σ) (r : Record (σ × ρ) α) : Prop where
  controls : Trace.controls r.events = []
  state : r.state.1 = conn.after c (Trace.submissions r.events)

namespace Record.OnlySubmits

variable {c : σ}

/-- What is neither a statement nor a transaction makes no difference. -/
theorem of_remarks {r : Record (σ × ρ) α} (hstate : r.state.1 = c) (h : Trace.Remarks r.events) :
    r.OnlySubmits conn c :=
  ⟨h.controls_eq, by rw [h.submissions_eq]; exact hstate⟩

theorem after {r : Record (σ × ρ) α} {es : List Event} (hes : Trace.controls es = [])
    (h : r.OnlySubmits conn (conn.after c (Trace.submissions es))) :
    (r.after es).OnlySubmits conn c where
  controls := by rw [Record.after, Trace.controls_append, hes, h.controls, List.append_nil]
  state := by
    rw [Record.after, Trace.submissions_append, Connection.after_append]
    exact h.state

theorem bind {p : Activity (σ × ρ) α} {k : α → Activity (σ × ρ) β} {s : σ × ρ}
    (hp : (p s).OnlySubmits conn s.1)
    (hk : ∀ a s' es, p s = ⟨.ok a, s', es⟩ → (k a s').OnlySubmits conn s'.1) :
    ((p >>= k) s).OnlySubmits conn s.1 := by
  rcases hps : p s with ⟨f | a, s', es⟩ <;> rw [hps] at hp
  · rw [Activity.bind_of_error hps]
    exact ⟨hp.controls, hp.state⟩
  · rw [Activity.bind_of_ok hps]
    have hsecond := hk a s' es hps
    rw [show s'.1 = _ from hp.state] at hsecond
    exact hsecond.after hp.controls

/-- Remarks around work make no difference. -/
theorem congr {ρ' : Type} {r : Record (σ × ρ) α} {r' : Record (σ × ρ') β}
    (h : r.OnlySubmits conn c) (es : List Event) (hstate : r'.state.1 = r.state.1)
    {fs : List Event} (hevents : r'.events = es ++ r.events ++ fs) (hes : Trace.Remarks es)
    (hfs : Trace.Remarks fs) : r'.OnlySubmits conn c where
  controls := by
    rw [hevents, Trace.controls_append, Trace.controls_append, hes.controls_eq, h.controls,
      hfs.controls_eq]
    rfl
  state := by
    rw [hevents, Trace.submissions_append, Trace.submissions_append, hes.submissions_eq,
      hfs.submissions_eq, List.nil_append, List.append_nil, hstate]
    exact h.state

end Record.OnlySubmits

/-! ### Inside a unit of work -/

theorem Walk.Reading.onlySubmits {b : Backend σ} {work : Activity (σ × ρ) α}
    (h : Reading b α work) (s : σ × ρ) : (work s).OnlySubmits b.toConnection s.1 := by
  induction h generalizing s with
  | pure a => exact .of_remarks rfl fun e he => nomatch he
  | fault f => exact .of_remarks rfl fun e he => nomatch he
  | remark entries h => exact .of_remarks rfl (Trace.remarks_logged entries)
  | ask statement =>
    rw [show s = (s.1, s.2) from rfl, ask_apply]
    exact ⟨rfl, rfl⟩
  | bind hp hk ihp ihk => exact (ihp s).bind fun a s' _ _ => ihk a s'

theorem Pipeline.onlySubmits_drain (b : Backend σ) (progress? : Option Progress)
    (statements : List Text) {p : Pipeline} (hp : p.state = .running) (c : σ) :
    (drain b progress? statements (c, p)).OnlySubmits b.toConnection c := by
  induction statements generalizing c p with
  | nil => exact .of_remarks rfl fun e he => nomatch he
  | cons statement rest ih =>
    rcases hsubmit : b.submit statement c with ⟨failure | rows, c₁⟩
    · by_cases hf : ∃ detail, failure = .rejected detail
      · obtain ⟨detail, rfl⟩ := hf
        rw [drain_of_rejected hsubmit]
        exact ⟨rfl, (congrArg Prod.snd hsubmit).symm⟩
      · rw [drain_of_broken (not_exists.mp hf) hsubmit]
        exact ⟨rfl, (congrArg Prod.snd hsubmit).symm⟩
    · rw [drain_of_ok hsubmit]
      have hreport := report_apply (c := c₁) (p := p.advance rest) hp progress?
      have hc₁ : b.toConnection.after c [statement] = c₁ := congrArg Prod.snd hsubmit
      refine .after rfl (hc₁.symm ▸ ?_)
      refine Record.OnlySubmits.bind (s := (c₁, p.advance rest)) ?_ fun _ s' es hok => ?_
      · -- the caller is told, and the connection is left alone
        rw [hreport]
        cases progress? <;> exact ⟨rfl, rfl⟩
      · obtain rfl : (c₁, p.advance rest) = s' := congrArg Record.state (hreport.symm.trans hok)
        exact ih (p := p.advance rest) hp c₁

/-! ## Units of work in an open transaction -/

namespace Operation

variable {b : Backend σ} {progress? : Option Progress} {reads : Prop}

/-- **Step.** A unit of work that joins a transaction is its work and nothing else. -/
theorem unitOfWork_joined (hjoins : b.joinsOpen = true) {s : σ × ρ}
    (hopen : b.inTransaction s.1 = true) (work : Activity (σ × ρ) α) :
    b.unitOfWork work s = work s := by
  refine Backend.unitOfWork_of_not_free (fun hfree => ?_) work s.2
  exact Bool.false_ne_true ((hfree hjoins).symm.trans hopen)

/-- **Run.** Conducted work in an open transaction only submits, as long as no statement ends the
transaction. -/
theorem Conducted.onlySubmits (hjoins : b.joinsOpen = true) {work : Activity (σ × ρ) α}
    (h : Conducted b progress? reads α work) (s : σ × ρ) (hopen : b.inTransaction s.1 = true)
    (hstays : ∀ statement ∈ Trace.submissions (work s).events, b.toConnection.StaysIn statement) :
    (work s).OnlySubmits b.toConnection s.1 := by
  induction h generalizing s with
  | pure a => exact .of_remarks rfl fun e he => nomatch he
  | fail f hf => exact .of_remarks rfl fun e he => nomatch he
  | log entries h => exact .of_remarks rfl (Trace.remarks_logged entries)
  | read h hwork =>
    rw [unitOfWork_joined hjoins hopen]
    exact hwork.onlySubmits s
  | run phase statements offset total? =>
    let p := Pipeline.start phase statements offset total?
    have hunit : b.unitOfWork (Pipeline.drain b progress? p.queue) (s.1, p.begun) =
        Pipeline.drain b progress? p.queue (s.1, p.begun) :=
      unitOfWork_joined (s := (s.1, p.begun)) hjoins hopen _
    have hrun := Pipeline.runFresh_apply (p := p) rfl hunit s.2
    have hdrain := Pipeline.onlySubmits_drain b progress? p.queue (p := p.begun) rfl s.1
    rw [show s = (s.1, s.2) from rfl, hrun]
    exact hdrain.congr [_] rfl rfl (Trace.remarks_logged [_]) (Trace.remarks_logged _)
  | @bind α β p k hp hk ihp ihk =>
    have hfirst : (p s).OnlySubmits b.toConnection s.1 := ihp s hopen fun statement hs =>
      hstays statement ((Activity.prefix_bind p k s).filterMap _ |>.subset hs)
    refine hfirst.bind fun a s' es hps => ?_
    rw [Activity.bind_of_ok hps, Record.after, Trace.submissions_append] at hstays
    rw [hps] at hfirst
    -- the first part has left the transaction open
    have hopen' : b.inTransaction s'.1 = true := by
      rw [show s'.1 = _ from hfirst.state]
      exact b.toConnection.inTransaction_after hopen fun statement hs =>
        hstays statement (List.mem_append_left _ hs)
    exact ihk a s' hopen' fun statement hs => hstays statement (List.mem_append_right _ hs)

/-! ## Requests -/

/-- Whether a transaction that was open at the start is left to whoever opened it. -/
structure LeftToOwner (conn : Connection σ) (c : σ) (r : Record (σ × ρ) α) : Prop where
  /-- No transaction begins, and none is committed or rolled back. -/
  controls : Trace.controls r.events = []
  /-- The connection is as the statements leave it. -/
  state : r.state.1 = conn.after c (Trace.submissions r.events)
  /-- The transaction is open after each of the statements. -/
  throughout : ∀ statements, statements <+: Trace.submissions r.events →
    conn.inTransaction (conn.after c statements) = true
  /-- It is open at the end. -/
  atEnd : conn.inTransaction r.state.1 = true

/-- **Main: joining.**  On a backend that joins open transactions, as those of the engine and of the
toolkit do, a request made in an open transaction leaves it to whoever opened it, whatever is
refused or breaks down. -/
theorem perform_leaves_transaction_to_owner (call : Call σ) (b : Backend σ) (q : Request)
    (s : σ × ρ) (hb : call.registry.adapt call.handle = .ok b) (hjoins : b.joinsOpen = true)
    (hopen : b.inTransaction s.1 = true)
    (hstays : ∀ statement ∈ Trace.submissions (q.perform call s).events,
      b.toConnection.StaysIn statement) :
    LeftToOwner b.toConnection s.1 (q.perform call s) := by
  have honly : (q.perform call s).OnlySubmits b.toConnection s.1 := by
    have hperform := Request.perform_apply call q s
    simp only [backend_bind_apply hb] at hperform
    have hreport := remarks_verdict q.name call.callbacks id (q.work call b s).outcome
    rw [hperform] at hstays ⊢
    simp only [Trace.submissions_append, hreport.submissions_eq, List.append_nil] at hstays
    have hwork := (conducted_work call b q).onlySubmits hjoins s hopen hstays
    exact hwork.congr [] rfl rfl (fun e he => nomatch he) hreport
  have hthroughout (statements : List Text)
      (hfirst : statements <+: Trace.submissions (q.perform call s).events) :
      b.inTransaction (b.toConnection.after s.1 statements) = true :=
    b.toConnection.inTransaction_after hopen fun statement hs =>
      hstays statement (hfirst.subset hs)
  refine ⟨honly.controls, honly.state, hthroughout, ?_⟩
  rw [honly.state]
  exact hthroughout _ (List.prefix_refl _)

/-- The import of a document whose index is refused, in a transaction of the caller's. -/
theorem indexed_leaves_transaction_to_owner :
    unindexed.joinsOpen = true ∧ unindexed.inTransaction true = true ∧
      LeftToOwner unindexed.toConnection true
        ((Request.importDocument (.value indexed.toValue)).perform listeningCall (true, ())) :=
  ⟨rfl, rfl, perform_leaves_transaction_to_owner listeningCall unindexed
    (.importDocument (.value indexed.toValue)) (true, ()) rfl rfl rfl fun _ _ _ hopen => hopen⟩

end Operation
end SqlInterchange
