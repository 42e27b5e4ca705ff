import SqlInterchange.Proofs.Export.Asked

/-! # Catalogs with hidden rows left out

A veiled backend is one that leaves rows out of what the catalog answers, and passes everything else
on.  Work that asks for the catalog gets another answer from it, so the events of the two runs
differ there; to compare them the answer is blotted out.  `Resembles` says that all else is the
same, provided the catalog has answered rows that have all columns.

If the rows that are left out are the hidden ones, then whoever reads the catalog takes the same
entries of it (`resembles_catalog`), and goes on in the same way.
-/
namespace SqlInterchange

variable {σ ρ α β : Type}

/-- The backend without some rows of the catalog. -/
def Backend.veiled (b : Backend σ) (hides : Row → Bool) : Backend σ :=
  { b with
    submit := fun statement c =>
      if statement = Catalog.query then
        ((b.submit statement c).1.map (List.filter (!hides ·)), (b.submit statement c).2)
      else b.submit statement c }

/-- An event without what the catalog answers. -/
def Event.blotted : Event → Event
  | submitted statement answer =>
    submitted statement (if statement = Catalog.query then answer.map fun _ => [] else answer)
  | e => e

namespace Trace

/-- The events without what the catalog answers. -/
def blotted (es : List Event) : List Event := es.map Event.blotted

theorem blotted_append (es fs : List Event) : blotted (es ++ fs) = blotted es ++ blotted fs :=
  List.map_append

/-- What the catalog answers has no part in what is submitted. -/
theorem submissions_blotted (es : List Event) : submissions (blotted es) = submissions es := by
  rw [submissions, blotted, List.filterMap_map]
  refine congrArg (es.filterMap ·) (funext fun e => ?_)
  cases e <;> rfl

/-- Whether the catalog answers named rows only. -/
def IsNamed (es : List Event) : Prop :=
  ∀ rows, .submitted Catalog.query (.ok rows) ∈ es → ∀ row ∈ rows, Catalog.IsNamed row

end Trace

/-! ## Runs that differ in what the catalog answers -/

/-- Whether two runs end alike with the same events, what the catalog answers aside. -/
structure Record.SameButCatalog {S : Type} (r r' : Record S α) : Prop where
  outcome : r'.outcome = r.outcome
  state : r'.state = r.state
  events : Trace.blotted r'.events = Trace.blotted r.events

/-- Whether two runs are the same but for the catalog, if it answers the first one named rows. -/
def Record.Resembles {S : Type} (r r' : Record S α) : Prop :=
  Trace.IsNamed r.events → r.SameButCatalog r'

namespace Record.Resembles

variable {S : Type}

theorem refl (r : Record S α) : r.Resembles r := fun _ => ⟨rfl, rfl, rfl⟩

theorem bind {p p' : Activity S α} {k k' : α → Activity S β} {s : S}
    (hp : (p s).Resembles (p' s))
    (hk : ∀ a s', (p s).outcome = .ok a → (k a s').Resembles (k' a s')) :
    ((p >>= k) s).Resembles ((p' >>= k') s) := by
  intro hnamed
  rcases hps : p s with ⟨f | a, s₁, es⟩ <;> rcases hps' : p' s with ⟨outcome', s₁', es'⟩ <;>
    rw [hps, hps'] at hp
  · rw [Activity.bind_of_error hps] at hnamed ⊢
    obtain ⟨houtcome, hstate, hevents⟩ := hp hnamed
    simp only at houtcome hstate hevents
    subst houtcome hstate
    rw [Activity.bind_of_error hps']
    exact ⟨rfl, rfl, hevents⟩
  · rw [Activity.bind_of_ok hps] at hnamed ⊢
    obtain ⟨houtcome, hstate, hevents⟩ := hp fun rows h => hnamed rows (List.mem_append_left _ h)
    simp only at houtcome hstate hevents
    subst houtcome hstate
    rw [Activity.bind_of_ok hps']
    have hnamedRest : Trace.IsNamed (k a s₁').events := fun rows h =>
      hnamed rows (List.mem_append_right _ h)
    obtain ⟨houtcome, hstate, hrest⟩ := hk a s₁' (congrArg Record.outcome hps) hnamedRest
    refine ⟨houtcome, hstate, ?_⟩
    simp only [Record.after, Trace.blotted_append, hevents, hrest]

theorem attempt {p p' : Activity S α} {s : S} (h : (p s).Resembles (p' s)) :
    (p.attempt s).Resembles (p'.attempt s) := by
  intro hnamed
  obtain ⟨houtcome, hstate, hevents⟩ := h hnamed
  exact ⟨congrArg Except.ok houtcome, hstate, hevents⟩

theorem unitOfWork (b : Backend σ) {work work' : Activity (σ × ρ) α}
    (h : ∀ s, (work s).Resembles (work' s)) (s : σ × ρ) :
    (b.unitOfWork work s).Resembles (b.unitOfWork work' s) := by
  obtain ⟨c, own⟩ := s
  by_cases hfree : b.Free c
  · rw [Backend.unitOfWork_eq_transact hfree, Backend.unitOfWork_eq_transact hfree,
      Backend.transact_eq, Backend.transact_eq]
    exact .bind (.refl _) fun _ s₁ _ => .bind (h s₁).attempt fun _ s₂ _ => .refl _
  · rw [Backend.unitOfWork_of_not_free hfree, Backend.unitOfWork_of_not_free hfree]
    exact h (c, own)

end Record.Resembles

/-! ## Veiled backends -/

namespace Backend

variable (b : Backend σ) (hides : Row → Bool)

theorem submit_veiled {statement : Text} (h : statement ≠ Catalog.query) :
    (b.veiled hides).submit statement = b.submit statement := by
  funext c
  exact if_neg h

theorem submit_veiled_query (c : σ) : (b.veiled hides).submit Catalog.query c =
    ((b.submit Catalog.query c).1.map (List.filter (!hides ·)), (b.submit Catalog.query c).2) := by
  simp only [veiled, if_true]

/-- The veil is none for units of work. -/
theorem unitOfWork_veiled (work : Activity (σ × ρ) α) :
    (b.veiled hides).unitOfWork work = b.unitOfWork work := rfl

theorem execute_veiled {statement : Text} (h : statement ≠ Catalog.query) :
    ((b.veiled hides).execute statement : Activity (σ × ρ) _) = b.execute statement := by
  have hrun : ((b.veiled hides).run statement : Activity (σ × ρ) _) = b.run statement := by
    unfold run
    rw [submit_veiled b hides h]
  unfold execute
  rw [hrun]

end Backend

namespace Pipeline

theorem drain_veiled (b : Backend σ) (hides : Row → Bool) (progress? : Option Progress)
    {statements : List Text} (h : ∀ statement ∈ statements, statement ≠ Catalog.query) :
    drain (b.veiled hides) progress? statements = drain b progress? statements := by
  induction statements with
  | nil => rfl
  | cons statement statements ih =>
    obtain ⟨hfirst, hrest⟩ := List.forall_mem_cons.mp h
    rw [drain, drain, Backend.execute_veiled b hides hfirst, ih hrest]

/-- A run that does not ask for the catalog is the same. -/
theorem runFresh_veiled (b : Backend σ) (hides : Row → Bool) (progress? : Option Progress)
    (phase : Text) {statements : List Text} (offset : Int) (total? : Option Int)
    (h : ∀ statement ∈ statements, statement ≠ Catalog.query) :
    (runFresh (b.veiled hides) progress? (.start phase statements offset total?) :
      Activity (σ × ρ) Nat) = runFresh b progress? (.start phase statements offset total?) := by
  funext s
  obtain ⟨c, own⟩ := s
  generalize hp : Pipeline.start phase statements offset total? = p
  have hpending : p.state = .pending := hp ▸ rfl
  have hqueue : p.queue = statements := hp ▸ rfl
  have hdrain : drain (b.veiled hides) progress? p.queue = drain b progress? p.queue :=
    drain_veiled b hides progress? (hqueue ▸ h)
  rw [runFresh_apply hpending rfl own, runFresh_apply hpending rfl own, Backend.unitOfWork_veiled,
    hdrain]
  rfl

end Pipeline

namespace Walk

theorem tableQuery_ne_query (table : Text) : Catalog.tableQuery table ≠ Catalog.query := by
  intro h
  have hchar : (Catalog.tableQuery table)[7]? = Catalog.query[7]? := by rw [h]
  exact absurd (Option.some.inj hchar) (by decide)

theorem renderDrop_ne_query (table : Text) : TableDefinition.renderDrop table ≠ Catalog.query := by
  intro h
  have hchar : (TableDefinition.renderDrop table)[0]? = Catalog.query[0]? := by rw [h]
  exact absurd (Option.some.inj hchar) (by decide)

theorem ask_veiled (b : Backend σ) (hides : Row → Bool) {statement : Text}
    (h : statement ≠ Catalog.query) :
    (ask (b.veiled hides) statement : Activity (σ × ρ) (List Row)) = ask b statement := by
  unfold ask
  rw [Backend.execute_veiled b hides h]

theorem contents_veiled (b : Backend σ) (hides : Row → Bool) (remarks : Remarks)
    (tables : List Text) : (contents (b.veiled hides) remarks tables : Activity (σ × ρ) _) =
      contents b remarks tables := by
  induction tables with
  | nil => rfl
  | cons table tables ih =>
    rw [contents, contents, ask_veiled b hides (tableQuery_ne_query table), ih]

variable (b : Backend σ) (o : Options)

/-- **Main (catalog).** Without its hidden rows a catalog has the same entries. -/
theorem resembles_catalog (s : σ × ρ) :
    (catalog b o s).Resembles (catalog (b.veiled (Catalog.isHidden o)) o s) := by
  obtain ⟨c, own⟩ := s
  have hask := ask_apply b Catalog.query c own
  have hveiled := ask_apply (b.veiled (Catalog.isHidden o)) Catalog.query c own
  rw [Backend.submit_veiled_query] at hveiled
  intro hnamed
  rw [catalog] at hnamed ⊢
  rw [catalog]
  rcases hsubmit : b.submit Catalog.query c with ⟨f | rows, c'⟩ <;> rw [hsubmit] at hask hveiled
  · obtain ⟨f', hf'⟩ := exists_answered_error Catalog.query f
    rw [hf'] at hask
    have hveiled' : ask (b.veiled (Catalog.isHidden o)) Catalog.query (c, own) =
        ⟨.error f', (c', own), [.submitted Catalog.query (.error f)]⟩ := hf' ▸ hveiled
    rw [Activity.bind_of_error hask, Activity.bind_of_error hveiled']
    exact ⟨rfl, rfl, rfl⟩
  · rw [Activity.bind_of_ok hask] at hnamed ⊢
    rw [Activity.bind_of_ok hveiled]
    obtain ⟨es, hes, hvisible⟩ := Catalog.entries_without_hidden (o := o)
      (hnamed rows (List.mem_append_left _ (List.mem_singleton_self _)))
    show Record.SameButCatalog (Record.after _ (orFault (Catalog.entries o rows) (c', own)))
      (Record.after _ (orFault (Catalog.entries o (rows.filter _)) (c', own)))
    rw [hes, hvisible]
    refine ⟨rfl, rfl, ?_⟩
    simp [Record.after, Trace.blotted, Event.blotted, Except.map]

theorem resembles_snapshot (remarks : Remarks) (s : σ × ρ) :
    (snapshot b o remarks s).Resembles
      (snapshot (b.veiled (Catalog.isHidden o)) o remarks s) := by
  rw [snapshot_eq, snapshot_eq, gather_eq, gather_eq]
  refine .unitOfWork b (fun s => (resembles_catalog b o s).bind fun es s₁ _ => ?_) s
  rw [contents_veiled]
  exact .refl _

theorem resembles_drops (s : σ × ρ) :
    (drops b o s).Resembles (drops (b.veiled (Catalog.isHidden o)) o s) :=
  .unitOfWork b (fun s => (resembles_catalog b o s).bind fun _ _ _ => .refl _) s

end Walk
end SqlInterchange
