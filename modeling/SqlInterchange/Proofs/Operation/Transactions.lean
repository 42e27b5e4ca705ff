import SqlInterchange.Proofs.Operation.Request
import SqlInterchange.Proofs.Pipeline.Run

/-! # Transactions left open

A request on a connection that is in no transaction begins some and ends them.  A transaction that
has begun is ended, with one exception: if its commit fails, nothing rolls it back, and the
connection stays as the failed commit has left it.  That failure ends the request, so it happens
once at most.  Hence in the trace of a request as many transactions begin as end, plus one if a
commit has failed, and only then can the connection be left in a transaction
(`perform_leaves_no_transaction`).

The invariant is `Settled`.  It holds of a unit of work by cases on the connection's answers, and
of all conducted work by induction.
-/
namespace SqlInterchange

/-! ## Counting -/

namespace Event

/-- Whether a transaction has begun. -/
def begins : Event → Bool
  | controlled .start (.ok _) => true
  | _ => false

/-- Whether a transaction has ended. -/
def ends : Event → Bool
  | controlled .commit (.ok _) | controlled .rollback (.ok _) => true
  | _ => false

/-- Whether a commit has failed. -/
def failsToCommit : Event → Bool
  | controlled .commit (.error _) => true
  | _ => false

/-- Whether a rollback has failed. -/
def failsToRollBack : Event → Bool
  | controlled .rollback (.error _) => true
  | _ => false

end Event

namespace Trace

/-- How many transactions have begun. -/
def begun (es : List Event) : Nat := es.countP Event.begins

/-- How many transactions have ended, by a commit or by a rollback. -/
def ended (es : List Event) : Nat := es.countP Event.ends

/-- How many commits have failed. -/
def failedCommits (es : List Event) : Nat := es.countP Event.failsToCommit

/-- Whether no rollback has failed. -/
def RollsBack (es : List Event) : Prop := ∀ e ∈ es, e.failsToRollBack = false

variable {es fs : List Event}

instance : Decidable (RollsBack es) :=
  inferInstanceAs (Decidable (∀ e ∈ es, e.failsToRollBack = false))

theorem begun_append (es fs : List Event) : begun (es ++ fs) = begun es + begun fs :=
  List.countP_append

theorem ended_append (es fs : List Event) : ended (es ++ fs) = ended es + ended fs :=
  List.countP_append

theorem failedCommits_append (es fs : List Event) :
    failedCommits (es ++ fs) = failedCommits es + failedCommits fs :=
  List.countP_append

theorem RollsBack.left (h : RollsBack (es ++ fs)) : RollsBack es :=
  fun e he => h e (List.mem_append_left _ he)

theorem RollsBack.right (h : RollsBack (es ++ fs)) : RollsBack fs :=
  fun e he => h e (List.mem_append_right _ he)

/-- Where nothing is controlled, nothing counts. -/
theorem counts_of_controls_nil (h : controls es = []) :
    begun es = 0 ∧ ended es = 0 ∧ failedCommits es = 0 := by
  have hnone := List.filterMap_eq_nil_iff.mp h
  refine ⟨List.countP_eq_zero.mpr ?_, List.countP_eq_zero.mpr ?_, List.countP_eq_zero.mpr ?_⟩
  all_goals
    intro e he
    cases e with
    | controlled control answer => cases hnone _ he
    | submitted _ _ | progressed _ _ | succeeded _ | failed _ | logged _ => exact Bool.false_ne_true

end Trace

/-! ## One unit of work -/

/-- What a connection is relied on for: it is in a transaction once it has begun one, it is in none
once it has ended it, and what it fails to begin has not begun. -/
structure Connection.Accounts {σ : Type} (conn : Connection σ) : Prop where
  begins : ∀ c c', conn.control .start c = (.ok (), c') → conn.inTransaction c' = true
  ends : ∀ control c c', control ≠ .start → conn.control control c = (.ok (), c') →
    conn.inTransaction c' = false
  keeps : ∀ c f c', conn.control .start c = (.error f, c') →
    conn.inTransaction c' = conn.inTransaction c

/-- How the transactions stand that have begun: all have ended, or the commit of the last one has
failed and all before it have ended. -/
inductive Settled {σ ρ α : Type} (conn : Connection σ) (r : Record (σ × ρ) α) : Prop
  | closed (hopen : conn.inTransaction r.state.1 = false)
    (hbalance : Trace.begun r.events = Trace.ended r.events)
    (hcommit : Trace.failedCommits r.events = 0)
  | leaked {c : σ} {f : Failure} (hopen : conn.inTransaction c = true)
    (hlast : conn.control .commit c = (.error f, r.state.1))
    (hbalance : Trace.begun r.events = Trace.ended r.events + 1)
    (hcommit : Trace.failedCommits r.events = 1) (hfailed : ∃ f, r.outcome = .error f)

/-- Whether work neither begins nor ends a transaction, as long as no statement that it submits
does. -/
def Backend.Steady {σ ρ α : Type} (b : Backend σ) (work : Activity (σ × ρ) α) (own : ρ) : Prop :=
  ∀ c, Trace.controls (work (c, own)).events = [] ∧
    ((∀ s ∈ Trace.submissions (work (c, own)).events, b.Keeps s) →
      b.inTransaction (work (c, own)).state.1 = b.inTransaction c)

variable {σ ρ α : Type} {conn : Connection σ} {c : σ} {own : ρ}

/-- What is seen beside transactions makes no difference. -/
theorem Settled.congr {ρ' β : Type} {r : Record (σ × ρ) α} {r' : Record (σ × ρ') β}
    (h : Settled conn r) (hstate : r'.state.1 = r.state.1) (es fs : List Event)
    (hevents : r'.events = es ++ r.events ++ fs) (hes : Trace.controls es = [])
    (hfs : Trace.controls fs = [])
    (houtcome : ∀ f, r.outcome = .error f → ∃ f', r'.outcome = .error f') : Settled conn r' := by
  obtain ⟨hbegun, hended, hcommits⟩ := Trace.counts_of_controls_nil hes
  obtain ⟨hbegun', hended', hcommits'⟩ := Trace.counts_of_controls_nil hfs
  have hcounts : Trace.begun r'.events = Trace.begun r.events ∧
      Trace.ended r'.events = Trace.ended r.events ∧
      Trace.failedCommits r'.events = Trace.failedCommits r.events := by
    simp only [hevents, Trace.begun_append, Trace.ended_append, Trace.failedCommits_append]
    omega
  obtain ⟨hb, he, hf⟩ := hcounts
  cases h with
  | closed hopen hbalance hcommit =>
    exact .closed (hstate ▸ hopen) (by omega) (by omega)
  | leaked hopen hlast hbalance hcommit hfailed =>
    obtain ⟨f, hfailed⟩ := hfailed
    exact .leaked hopen (hstate ▸ hlast) (by omega) (by omega) (houtcome f hfailed)

/-- Transactions that have all ended before make no difference either. -/
theorem Settled.after {r : Record (σ × ρ) α} (h : Settled conn r) {es : List Event}
    (hbalance : Trace.begun es = Trace.ended es) (hcommit : Trace.failedCommits es = 0) :
    Settled conn (r.after es) := by
  have hbegun := Trace.begun_append es r.events
  have hended := Trace.ended_append es r.events
  have hcommits := Trace.failedCommits_append es r.events
  cases h with
  | closed hopen hbalance' hcommit' =>
    exact .closed hopen (by simp only [Record.after]; omega) (by simp only [Record.after]; omega)
  | leaked hopen hlast hbalance' hcommit' hfailed =>
    exact .leaked hopen hlast (by simp only [Record.after]; omega)
      (by simp only [Record.after]; omega) hfailed

/-- **Step.** A unit of work settles its transaction. -/
theorem settled_unitOfWork (haccounts : conn.Accounts) (hc : conn.inTransaction c = false)
    {work : Activity (σ × ρ) α} (hwork : (Backend.engine conn).Steady work own)
    (hkeeps : ∀ s ∈ Trace.submissions ((Backend.engine conn).unitOfWork work (c, own)).events,
      (Backend.engine conn).Keeps s)
    (hrolls : Trace.RollsBack ((Backend.engine conn).unitOfWork work (c, own)).events) :
    Settled conn ((Backend.engine conn).unitOfWork work (c, own)) := by
  rw [Backend.unitOfWork_eq_transact (fun _ => hc), Backend.transact_eq] at hkeeps hrolls ⊢
  rcases hstart : conn.control .start c with ⟨f | ⟨⟩, c₁⟩
  · -- the transaction does not begin
    rw [Activity.bind_of_error (Backend.perform_apply hstart own)]
    exact .closed ((haccounts.keeps c f c₁ hstart).trans hc) rfl rfl
  · rw [Activity.bind_of_ok (Backend.perform_apply hstart own),
      Activity.bind_of_ok (Activity.attempt_apply work _)] at hkeeps hrolls ⊢
    obtain ⟨hcontrols, hsteady⟩ := hwork c₁
    rcases hw : work (c₁, own) with ⟨outcome, ⟨c₂, own₂⟩, es⟩
    rw [hw] at hkeeps hrolls hcontrols hsteady
    obtain ⟨hbegun, hended, hcommits⟩ := Trace.counts_of_controls_nil hcontrols
    -- the transaction is still open when the work has ended
    have hopen : conn.inTransaction c₂ = true := by
      refine (hsteady fun s hs => hkeeps s ?_).trans (haccounts.begins c c₁ hstart)
      simp only [Record.after, Trace.submissions_append]
      exact List.mem_append_right _ (List.mem_append_left _ hs)
    rcases hend : conn.control (.ending outcome) c₂ with ⟨f | ⟨⟩, c₃⟩
    · simp only [Backend.close_of_refused (b := Backend.engine conn) (fun _ => hopen) hend own₂,
        Record.after] at hrolls ⊢
      cases outcome with
      | ok a =>
        -- the commit fails, and nothing comes after it
        refine .leaked hopen hend ?_ ?_ ⟨f, rfl⟩
        · simp only [Trace.begun_append, Trace.ended_append, hbegun, hended]
          rfl
        · simp only [Trace.failedCommits_append, hcommits]
          rfl
      | error e => cases hrolls (.controlled .rollback (.error f)) (by simp [Control.ending])
    · simp only [Backend.close_apply (b := Backend.engine conn) (fun _ => hopen) hend own₂,
        Record.after]
      have hne : Control.ending outcome ≠ .start := by cases outcome <;> exact Control.noConfusion
      refine .closed (haccounts.ends _ c₂ c₃ hne hend) ?_ ?_
      · simp only [Trace.begun_append, Trace.ended_append, hbegun, hended]
        cases outcome <;> rfl
      · simp only [Trace.failedCommits_append, hcommits]
        cases outcome <;> rfl

/-! ## Readings and runs -/

theorem Walk.Reading.steady {b : Backend σ} {work : Activity (σ × ρ) α}
    (h : Reading b α work) (own : ρ) : b.Steady work own := by
  induction h generalizing own with
  | pure a => exact fun c => ⟨rfl, fun _ => rfl⟩
  | fault f => exact fun c => ⟨rfl, fun _ => rfl⟩
  | remark entries h =>
    exact fun c => ⟨(Trace.remarks_logged entries).controls_eq, fun _ => rfl⟩
  | ask statement =>
    intro c
    rw [ask_apply]
    exact ⟨rfl, fun hkeeps => hkeeps statement (List.mem_singleton_self _) c⟩
  | @bind α β p k hp hk ihp ihk =>
    intro c
    obtain ⟨hcontrols, hsteady⟩ := ihp own c
    rcases hps : p (c, own) with ⟨_ | a, ⟨c₁, own₁⟩, es⟩ <;> rw [hps] at hcontrols hsteady
    · rw [Activity.bind_of_error hps]
      exact ⟨hcontrols, hsteady⟩
    · rw [Activity.bind_of_ok hps]
      obtain ⟨hcontrols', hsteady'⟩ := ihk a own₁ c₁
      simp only [Record.after, Trace.controls_append, Trace.submissions_append]
      refine ⟨by rw [hcontrols, hcontrols', List.nil_append], fun hkeeps => ?_⟩
      rw [hsteady' fun s hs => hkeeps s (List.mem_append_right _ hs)]
      exact hsteady fun s hs => hkeeps s (List.mem_append_left _ hs)

theorem Pipeline.steady_drain (b : Backend σ) (progress? : Option Progress) {p : Pipeline}
    (hp : p.state = .running) : b.Steady (drain b progress? p.queue) p := by
  intro c
  obtain ⟨x, c', hx, hdrain, hopen⟩ := drain_apply b progress? hp rfl c
  rw [hdrain]
  exact ⟨Course.controls_events, fun hkeeps => hopen (Course.submissions_events ▸ hkeeps)⟩

/-! ## Requests -/

namespace Operation

variable {progress? : Option Progress} {reads : Prop}

/-- **Run.** Conducted work on a connection in no transaction settles all its transactions. -/
theorem Conducted.settled (haccounts : conn.Accounts) {work : Activity (σ × ρ) α}
    (h : Conducted (Backend.engine conn) progress? reads α work) (own : ρ)
    (hc : conn.inTransaction c = false)
    (hkeeps : ∀ s ∈ Trace.submissions (work (c, own)).events, (Backend.engine conn).Keeps s)
    (hrolls : Trace.RollsBack (work (c, own)).events) : Settled conn (work (c, own)) := by
  induction h generalizing c own with
  | pure a => exact .closed hc rfl rfl
  | fail f hf => exact .closed hc rfl rfl
  | log entries h =>
    obtain ⟨hbegun, hended, hcommits⟩ :=
      Trace.counts_of_controls_nil (Trace.remarks_logged entries).controls_eq
    exact .closed hc (hbegun.trans hended.symm) hcommits
  | read h hwork => exact settled_unitOfWork haccounts hc (hwork.steady own) hkeeps hrolls
  | run phase statements offset total? =>
    rw [Pipeline.runFresh_apply rfl rfl own] at hkeeps hrolls ⊢
    simp only [Trace.submissions_append] at hkeeps
    have hunit := settled_unitOfWork haccounts hc
      (Pipeline.steady_drain (Backend.engine conn) progress?
        (p := (Pipeline.start phase statements offset total?).begun) rfl)
      (fun s hs => hkeeps s (List.mem_append_left _ hs))
      fun e he => hrolls e (List.mem_cons_of_mem _ (List.mem_append_left _ he))
    -- around the unit of work there is only the log
    refine hunit.congr rfl [_] _ rfl rfl (Trace.remarks_logged _).controls_eq fun f hf => ?_
    exact ⟨_, Pipeline.unitResult_of_error hf⟩
  | @bind α β p k hp hk ihp ihk =>
    rcases hps : p (c, own) with ⟨f | a, ⟨c₁, own₁⟩, es⟩
    · rw [Activity.bind_of_error hps] at hkeeps hrolls ⊢
      have hfirst := ihp own hc (by rwa [hps]) (by rwa [hps])
      rw [hps] at hfirst
      exact hfirst.congr rfl [] [] (List.append_nil _).symm rfl rfl fun _ _ => ⟨f, rfl⟩
    · rw [Activity.bind_of_ok hps] at hkeeps hrolls ⊢
      simp only [Record.after, Trace.submissions_append] at hkeeps
      have hfirst := ihp own hc (by
        rw [hps]
        exact fun s hs => hkeeps s (List.mem_append_left _ hs)) (by
        rw [hps]
        exact hrolls.left)
      rw [hps] at hfirst
      cases hfirst with
      | closed hopen hbalance hcommit =>
        exact (ihk a own₁ hopen (fun s hs => hkeeps s (List.mem_append_right _ hs))
          hrolls.right).after hbalance hcommit
      | leaked hopen hlast hbalance hcommit hfailed =>
        -- work goes on only if nothing has failed
        obtain ⟨f, hf⟩ := hfailed
        cases hf

/-- How a request leaves the transactions that it has begun. -/
structure Closing {σ ρ α : Type} (conn : Connection σ) (r : Record (σ × ρ) α) : Prop where
  /-- All transactions begun are ended by a commit or a rollback, but those that a commit failed
  to end. -/
  balance : Trace.begun r.events = Trace.ended r.events + Trace.failedCommits r.events
  /-- No commit is tried after one that has failed. -/
  failedCommits_le : Trace.failedCommits r.events ≤ 1
  /-- If no commit has failed, then no transaction is open. -/
  closed : Trace.failedCommits r.events = 0 → conn.inTransaction r.state.1 = false
  /-- If a commit has failed, then the connection is as this has left it. -/
  leaked : Trace.failedCommits r.events = 1 → ∃ c f, conn.inTransaction c = true ∧
    conn.control .commit c = (.error f, r.state.1)
  /-- On a connection that stays in its transaction when a commit fails, this is how a transaction
  is left open, and no other way is. -/
  open_iff : (∀ c f c', conn.control .commit c = (.error f, c') →
      conn.inTransaction c' = conn.inTransaction c) →
    (conn.inTransaction r.state.1 = true ↔ Trace.failedCommits r.events = 1)

/-- **Main: which transactions are left open.**  A request on an engine whose connection is in no
transaction ends each transaction that it begins, whatever is refused or breaks down, unless the
commit fails. -/
theorem perform_leaves_no_transaction (call : Call σ) (conn : Connection σ) (q : Request) (c : σ)
    (own : ρ) (hb : call.registry.adapt call.handle = .ok (.engine conn))
    (haccounts : conn.Accounts) (hc : conn.inTransaction c = false)
    (hkeeps : ∀ s ∈ Trace.submissions (q.perform call (c, own)).events,
      (Backend.engine conn).Keeps s)
    (hrolls : Trace.RollsBack (q.perform call (c, own)).events) :
    Closing conn (q.perform call (c, own)) := by
  have hperform := Request.perform_apply call q (c, own)
  simp only [backend_bind_apply hb] at hperform
  rw [hperform] at hkeeps hrolls ⊢
  simp only [Trace.submissions_append] at hkeeps
  have hwork := (conducted_work call (.engine conn) q).settled haccounts own hc
    (fun s hs => hkeeps s (List.mem_append_left _ hs)) hrolls.left
  -- the report of the outcome has no part in transactions
  obtain ⟨hbegun, hended, hcommits⟩ := Trace.counts_of_controls_nil
    (remarks_verdict q.name call.callbacks id
      (q.work call (.engine conn) (c, own)).outcome).controls_eq
  have hsum {n : Nat} : n + 0 = n := Nat.add_zero n
  cases hwork with
  | closed hopen hbalance hcommit =>
    constructor
    all_goals
      simp only [Trace.begun_append, Trace.ended_append, Trace.failedCommits_append, hbegun,
        hended, hcommits, hcommit, hsum]
    case balance => exact hbalance
    case failedCommits_le => exact Nat.zero_le 1
    case closed => exact fun _ => hopen
    case leaked => exact fun h => absurd h Nat.zero_ne_one
    case open_iff => exact fun _ => iff_of_false (by simp [hopen]) Nat.zero_ne_one
  | leaked hopen hlast hbalance hcommit hfailed =>
    constructor
    all_goals
      simp only [Trace.begun_append, Trace.ended_append, Trace.failedCommits_append, hbegun,
        hended, hcommits, hcommit, hsum]
    case balance => exact hbalance
    case failedCommits_le => exact Nat.le_refl 1
    case closed => exact fun h => absurd h Nat.one_ne_zero
    case leaked => exact fun _ => ⟨_, _, hopen, hlast⟩
    case open_iff => exact fun hstays => iff_of_true ((hstays _ _ _ hlast).trans hopen) trivial

/-! ### A commit that is refused -/

/-- A bare connection that is busy: it refuses to commit. -/
def busy : Connection Bool :=
  { Connection.bare (fun _ => false) with
    control := fun control c =>
      match control with
      | .commit => (.error (.rejected "the database is locked".toList), c)
      | .start | .rollback => (Connection.bare fun _ => false).control control c }

theorem accounts_busy : busy.Accounts where
  begins c c' h := by
    cases c with
    | false => exact congrArg Prod.snd h.symm
    | true => cases h
  ends control c c' hne h := by
    cases control with
    | start => exact absurd rfl hne
    | commit => cases h
    | rollback =>
      cases c with
      | false => cases h
      | true => exact congrArg Prod.snd h.symm
  keeps c f c' h := by
    cases c with
    | false => cases h
    | true => exact congrArg Prod.snd h.symm

/-- A caller who has an engine and wants to be told of nothing. -/
def onEngine {σ : Type} (conn : Connection σ) : Call σ where
  registry := .standard
  handle := .backend (.engine conn)
  options := .standard
  callbacks := ⟨none, none, none⟩

/-- An import of one row. -/
def oneRow : Request := .importScript "INSERT INTO t VALUES (1)".toList

theorem oneRow_leaves_busy_open :
    Trace.failedCommits (oneRow.perform (onEngine busy) (false, ())).events = 1 ∧
      Closing busy (oneRow.perform (onEngine busy) (false, ())) :=
  ⟨by decide +kernel, perform_leaves_no_transaction (onEngine busy) busy oneRow false () rfl
    accounts_busy rfl (fun _ _ _ => rfl) (by decide +kernel)⟩

/-- An engine that refuses to commit. -/
def uncommitting : Scripted.Script := ⟨.engine, ["COMMIT".toList], [], [], false⟩

/-- Nothing but the commit is refused, and a transaction is left open. -/
theorem refused_commit_leaves_open :
    let r := oneRow.perform (onEngine Scripted.connection) (uncommitting, ())
    uncommitting.inTransaction = false ∧ Trace.RollsBack r.events ∧
      Trace.submissions r.events = ["INSERT INTO t VALUES (1)".toList] ∧
      Scripted.firstWord "INSERT INTO t VALUES (1)".toList = "INSERT".toList ∧
      r.state.1.inTransaction = true ∧ Trace.begun r.events = 1 ∧ Trace.ended r.events = 0 := by
  decide +kernel

end Operation
end SqlInterchange
