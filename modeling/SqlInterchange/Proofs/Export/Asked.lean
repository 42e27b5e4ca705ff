import SqlInterchange.Proofs.Export.Script
import SqlInterchange.Proofs.Export.Selected
import SqlInterchange.Proofs.Operation.Refusals

/-! # What a walk asks

A walk first asks for the catalog and then submits what follows from its entries.  `Submits` says
of work what it submits, in order and up to where it fails, and `Follows` the same of work that
begins with the catalog; both are put together along the work.  An export follows the catalog
with a question for each of its tables, and so the order of the catalog is that of the questions
(`follows_snapshot`).
-/
namespace SqlInterchange

/-! ## What work submits -/

/-- Whether work submits these statements, in order, up to where it fails. -/
structure Record.Submits {S α : Type} (statements : List Text) (r : Record S α) : Prop where
  first : Trace.submissions r.events <+: statements
  all : ∀ a, r.outcome = .ok a → Trace.submissions r.events = statements

namespace Record.Submits

variable {S α β : Type} {xs ys : List Text}

theorem of_eq {r : Record S α} (h : Trace.submissions r.events = xs) : r.Submits xs :=
  ⟨h ▸ List.prefix_refl xs, fun _ _ => h⟩

theorem of_error {f : Failure} {s : S} {es : List Event} (h : Trace.submissions es <+: xs) :
    Record.Submits xs (⟨.error f, s, es⟩ : Record S α) := ⟨h, nofun⟩

theorem after {r : Record S α} (h : r.Submits ys) {es : List Event}
    (hes : Trace.submissions es = xs) : (r.after es).Submits (xs ++ ys) where
  first := by
    rw [Record.after, Trace.submissions_append, hes]
    exact (List.prefix_append_right_inj xs).mpr h.first
  all a ha := by
    rw [Record.after, Trace.submissions_append, hes, h.all a ha]

theorem bind {p : Activity S α} {k : α → Activity S β} {s : S} (hp : (p s).Submits xs)
    (hk : ∀ a s', (p s).outcome = .ok a → (k a s').Submits ys) :
    ((p >>= k) s).Submits (xs ++ ys) := by
  rcases hps : p s with ⟨f | a, s', es⟩ <;> rw [hps] at hp hk
  · rw [Activity.bind_of_error hps]
    exact of_error (hp.first.trans (List.prefix_append xs ys))
  · rw [Activity.bind_of_ok hps]
    exact (hk a s' rfl).after (hp.all a rfl)

theorem map {p : Activity S α} {s : S} (h : (p s).Submits xs) (f : α → β) :
    ((p >>= fun a => pure (f a)) s).Submits xs := by
  have hpure (a : α) (s' : S) : ((pure (f a) : Activity S β) s').Submits [] := .of_eq rfl
  have hboth := h.bind fun a s' _ => hpure a s'
  rwa [List.append_nil] at hboth

end Record.Submits

theorem Record.Submits.wrapped {σ ρ α : Type} {xs : List Text} {inner r : Record (σ × ρ) α}
    (h : inner.Submits xs) (hwraps : Backend.Wraps inner r) : r.Submits xs where
  first := hwraps.submissions ▸ h.first
  all a ha := hwraps.submissions ▸ h.all a (hwraps.outcome a ha)

/-- A run submits its statements. -/
theorem Pipeline.submits_runFresh {σ ρ : Type} (b : Backend σ) (progress? : Option Progress)
    (phase : Text) (statements : List Text) (offset : Int) (total? : Option Int) (s : σ × ρ) :
    (runFresh b progress? (.start phase statements offset total?) s).Submits statements := by
  have hpending : (Pipeline.start phase statements offset total?).state = .pending := rfl
  constructor
  · exact (submissions_runFresh hpending s.1 s.2).1
  · exact fun n hn => ((submissions_runFresh hpending s.1 s.2).2 n hn).1

/-! ## Work that follows the catalog -/

namespace Walk

open Catalog (Entry)

variable {σ ρ α β : Type} {b : Backend σ} {o : Options}

/-- What keeps work from going on after the catalog: the connection fails, or there is a fault in
what the catalog answers. -/
inductive Halts (o : Options) (events : List Event) : Prop
  | failed {e : Event} {f : Failure} (he : e ∈ events) (hf : e.failure? = some f)
  | faulty {rows : List Row} {f : Fault} (hanswer : .submitted Catalog.query (.ok rows) ∈ events)
    (hes : Catalog.entries o rows = .error f)

theorem Halts.mono {events events' : List Event} (h : Halts o events) (hsubset : events ⊆ events') :
    Halts o events' := by
  cases h with
  | failed he hf => exact .failed (hsubset he) hf
  | faulty hanswer hes => exact .faulty (hsubset hanswer) hes

/-- Whether work begins with the question for the catalog, goes on with the statements that follow
from its entries, up to where it fails, and has a result that these entries allow. -/
inductive Follows {S : Type} (o : Options) (next : List Entry → List Text)
    (R : List Entry → α → Prop) (r : Record S α) : Prop
  | stopped (h : Trace.submissions r.events <+: [Catalog.query]) (hhalts : Halts o r.events)
    (hfails : ∀ a, r.outcome ≠ .ok a)
  | followed {rows : List Row} {es : List Entry}
    (hanswer : .submitted Catalog.query (.ok rows) ∈ r.events)
    (hes : Catalog.entries o rows = .ok es) (hsubmits : r.Submits (Catalog.query :: next es))
    (hresult : ∀ a, r.outcome = .ok a → R es a)

variable {next more : List Entry → List Text} {R : List Entry → α → Prop}
  {Q : List Entry → β → Prop}

theorem exists_answered_error (statement : Text) (f : Failure) :
    ∃ f', answered statement (.error f) = .error f' := by
  cases f <;> exact ⟨_, rfl⟩

theorem follows_catalog (s : σ × ρ) :
    Follows o (fun _ => []) (fun es es' => es' = es) (catalog b o s) := by
  obtain ⟨c, own⟩ := s
  have hask := ask_apply b Catalog.query c own
  rw [catalog]
  rcases hsubmit : (b.submit Catalog.query c).1 with f | rows <;> rw [hsubmit] at hask
  · obtain ⟨f', hf'⟩ := exists_answered_error Catalog.query f
    rw [hf'] at hask
    rw [Activity.bind_of_error hask]
    exact .stopped (List.prefix_refl _) (.failed (List.mem_singleton_self _) rfl) nofun
  · rw [Activity.bind_of_ok hask]
    cases hes : Catalog.entries o rows with
    | error f =>
      exact .stopped (List.prefix_refl _) (.faulty (List.mem_singleton_self _) hes) nofun
    | ok es =>
      refine .followed (List.mem_singleton_self _) hes (.of_eq rfl) fun a ha => ?_
      exact (Except.ok.inj ha).symm

theorem Follows.bind {p : Activity (σ × ρ) α} {k : α → Activity (σ × ρ) β} {s : σ × ρ}
    (hp : Follows o next R (p s)) (hk : ∀ es a s', R es a → (k a s').Submits (more es))
    (hallows : ∀ es a s', R es a → ∀ a', (k a s').outcome = .ok a' → Q es a') :
    Follows o (fun es => next es ++ more es) Q ((p >>= k) s) := by
  rcases hps : p s with ⟨f | a, s', events⟩ <;> rw [hps] at hp
  · rw [Activity.bind_of_error hps]
    cases hp with
    | stopped h hhalts hfails => exact .stopped h hhalts nofun
    | followed hanswer hes hsubmits hresult =>
      exact .followed hanswer hes (.of_error (hsubmits.first.trans (List.prefix_append ..))) nofun
  · rw [Activity.bind_of_ok hps]
    cases hp with
    | stopped h hhalts hfails => exact absurd rfl (hfails a)
    | @followed rows es hanswer hes hsubmits hresult =>
      have ha : R es a := hresult a rfl
      have hboth := (hk es a s' ha).after (hsubmits.all a rfl)
      exact .followed (List.mem_append_left _ hanswer) hes hboth fun a' ha' =>
        hallows es a s' ha a' ha'

/-- Work that goes on without submitting anything follows the catalog in the same way. -/
theorem Follows.finish {p : Activity (σ × ρ) α} {k : α → Activity (σ × ρ) β} {s : σ × ρ}
    (hp : Follows o next R (p s)) (hk : ∀ es a s', R es a → (k a s').Submits []) :
    Follows o next (fun _ _ => True) ((p >>= k) s) := by
  have hnext : (fun es => next es ++ []) = next := funext fun es => List.append_nil _
  exact hnext ▸ hp.bind hk fun _ _ _ _ _ _ => trivial

theorem Follows.unitOfWork {work : Activity (σ × ρ) α} {own : ρ}
    (h : ∀ c, Follows o next R (work (c, own))) (c : σ) :
    Follows o next R (b.unitOfWork work (c, own)) := by
  rcases Backend.unitOfWork_wraps b work c own with ⟨c', f, hunbegun⟩ | ⟨c', hwraps⟩
  · rw [hunbegun]
    exact .stopped List.nil_prefix (.failed (List.mem_singleton_self _) rfl) nofun
  · cases h c' with
    | stopped h hhalts hfails =>
      exact .stopped (hwraps.submissions ▸ h) (hhalts.mono hwraps.events)
        fun a ha => hfails a (hwraps.outcome a ha)
    | followed hanswer hes hsubmits hresult =>
      exact .followed (hwraps.events hanswer) hes (hsubmits.wrapped hwraps)
        fun a ha => hresult a (hwraps.outcome a ha)

/-! ### Exports and wipes -/

theorem submits_logAll (entries : List LogEntry) (s : σ × ρ) :
    (Activity.logAll entries s).Submits [] :=
  .of_eq (Trace.remarks_logged entries).submissions_eq

theorem submits_definitions (remarks : Remarks) (es : List Entry) (s : σ × ρ) :
    (definitions remarks es s).Submits [] := by
  have hfault {α : Type} (result : Except Fault α) (s : σ × ρ) :
      (orFault result s).Submits [] := by
    cases result with
    | ok a => exact .of_eq rfl
    | error f => exact .of_eq rfl
  induction es generalizing s with
  | nil => exact .of_eq rfl
  | cons e es ih =>
    exact .bind (hfault _ s) fun d s₁ _ => .bind (submits_logAll _ s₁) fun _ s₂ _ =>
      (ih s₂).map _

theorem submits_ask (b : Backend σ) (statement : Text) (s : σ × ρ) :
    (ask b statement s).Submits [statement] := by
  obtain ⟨c, own⟩ := s
  rw [ask_apply]
  exact .of_eq rfl

/-- The rows of tables are asked for table by table. -/
theorem submits_contents (b : Backend σ) (remarks : Remarks) (tables : List Text) (s : σ × ρ) :
    (contents b remarks tables s).Submits (tables.map Catalog.tableQuery) := by
  induction tables generalizing s with
  | nil => exact .of_eq rfl
  | cons table tables ih =>
    exact .bind (submits_ask b _ s) fun rows s₁ _ => .bind (submits_logAll _ s₁) fun _ s₂ _ =>
      (ih s₂).map _

/-- What an export asks for after the catalog. -/
def questions (o : Options) (tables : List Text) : List Text :=
  if o.isStructureOnly then [] else tables.map Catalog.tableQuery

/-- **Main (exports).** A walk follows the catalog with a question for each of its tables. -/
theorem follows_snapshot (b : Backend σ) (o : Options) (remarks : Remarks) (s : σ × ρ) :
    Follows o (fun es => questions o (Catalog.tables es)) (fun _ _ => True)
      (snapshot b o remarks s) := by
  obtain ⟨c, own⟩ := s
  rw [snapshot_eq, gather_eq]
  refine .unitOfWork (fun c => ?_) c
  refine (follows_catalog (c, own)).bind (fun es es' s₁ hes => ?_) fun _ _ _ _ _ _ => trivial
  subst hes
  have hdefinitions (s : σ × ρ) :
      ((if o.isDataOnly then pure [] else definitions remarks es') s).Submits [] := by
    split
    · exact .of_eq rfl
    · exact submits_definitions remarks es' s
  have hcontents (s : σ × ρ) : ((if o.isStructureOnly then pure []
      else contents b remarks (Catalog.tables es')) s).Submits
        (questions o (Catalog.tables es')) := by
    unfold questions
    split
    · exact .of_eq rfl
    · exact submits_contents b remarks _ s
  exact .bind (hdefinitions s₁) fun ds s₂ _ => (hcontents s₂).map _

/-- **Main (wipes).** The tables to drop are those of the catalog. -/
theorem follows_drops (b : Backend σ) (o : Options) (s : σ × ρ) :
    Follows o (fun _ => []) (fun es ds => ds = (Catalog.tables es).map TableDefinition.renderDrop)
      (drops b o s) := by
  obtain ⟨c, own⟩ := s
  refine .unitOfWork (fun c => ?_) c
  refine (follows_catalog (c, own)).bind (fun es es' s₁ hes => .of_eq rfl) ?_
  rintro es _ s₁ rfl ds hds
  exact (Except.ok.inj hds).symm

end Walk
end SqlInterchange
