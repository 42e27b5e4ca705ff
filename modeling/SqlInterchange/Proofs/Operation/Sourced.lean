import SqlInterchange.Proofs.Json.Missing
import SqlInterchange.Proofs.Operation.Refusals
import SqlInterchange.Proofs.Operation.TwoPhases
import SqlInterchange.Proofs.Text.Utf8

/-! # Imports from text

A document is imported from a text, or from bytes that should be those of a text.  Whatever they
are, either a document is taken from them and its statements run, or an error is reported that has
the text, if there is one, and nothing is submitted.  There is one exception: reading the text may
come to an integer of more digits than are read (`Json.ComesTo`).  No error is made of that, so
nobody is told, and a fault ends the import (`importDocument_from_text`).
-/
namespace SqlInterchange

/-- The bytes that a source is, if it is bytes. -/
def Source.bytes? : Source → Option (List UInt8)
  | .bytes bs | .value (.bytes bs) => some bs
  | .document _ | .value _ => none

/-- The text that a source gives: its own, or the one that its bytes are, if they are one. -/
inductive Source.Gives : Source → Option Text → Prop
  | text (t : Text) : Gives (.value (.text t)) (some t)
  | encoded {source : Source} (t : Text) (h : source.bytes? = some (Utf8.encode t)) :
    Gives source (some t)
  | undecodable {source : Source} {bs : List UInt8} (h : source.bytes? = some bs)
    (hnone : ∀ t, bs ≠ Utf8.encode t) : Gives source none

/-- Whether a source is a text or bytes. -/
def Source.IsWritten (source : Source) : Prop :=
  (∃ t, source = .value (.text t)) ∨ ∃ bs, source.bytes? = some bs

/-- Bytes are those of one text or of none. -/
theorem Source.isWritten_iff {source : Source} :
    source.IsWritten ↔ ∃ text?, source.Gives text? := by
  constructor
  · rintro (⟨t, rfl⟩ | ⟨bs, hbytes⟩)
    · exact ⟨some t, .text t⟩
    · by_cases hsome : ∃ t, bs = Utf8.encode t
      · obtain ⟨t, rfl⟩ := hsome
        exact ⟨some t, .encoded t hbytes⟩
      · exact ⟨none, .undecodable hbytes (not_exists.mp hsome)⟩
  · rintro ⟨text?, hgives⟩
    cases hgives with
    | text t => exact .inl ⟨t, rfl⟩
    | encoded t hbytes => exact .inr ⟨_, hbytes⟩
    | undecodable hbytes _ => exact .inr ⟨_, hbytes⟩

namespace Document

theorem raw?_of_ofValue {text? : Option Text} {v : Value} {refusal : Refusal}
    (h : ofValue text? v = .error refusal) :
    ∃ e : ParseError, refusal = .invalid e ∧ e.raw? = text? := by
  unfold ofValue at h
  split at h
  · next fs =>
    cases hshape : Shape.document (.object fs) with
    | ok d =>
      rw [hshape] at h
      cases h
    | error problems =>
      rw [hshape] at h
      obtain rfl := Except.error.inj h
      exact ⟨_, rfl, rfl⟩
  · obtain rfl := Except.error.inj h
    exact ⟨_, rfl, rfl⟩

/-- What keeps a text from being a document has the text, but for an integer that is too long. -/
theorem refusal_of_ofText {t : Text} {refusal : Refusal} (h : ofText t = .error refusal) :
    (∃ e : ParseError, refusal = .invalid e ∧ e.raw? = some t) ∨
      ∃ n, refusal = .integerTooLong n ∧ Json.read t = .error (.integerTooLong n) := by
  unfold ofText at h
  split at h
  · exact .inl (raw?_of_ofValue h)
  · obtain rfl := Except.error.inj h
    exact .inl ⟨_, rfl, rfl⟩
  · next n hread =>
    obtain rfl := Except.error.inj h
    exact .inr ⟨n, rfl, hread⟩

theorem parse_of_bytes {source : Source} {bs : List UInt8} (h : source.bytes? = some bs) :
    parse source = ofBytes bs := by
  unfold Source.bytes? at h
  split at h
  · cases h
    rfl
  · cases h
    rfl
  · cases h
  · cases h

theorem parse_of_undecodable {source : Source} {bs : List UInt8} (h : source.bytes? = some bs)
    (hnone : ∀ t, bs ≠ Utf8.encode t) :
    ∃ fault, parse source = .error (.invalid (.undecodable fault)) := by
  cases hdecode : Utf8.decode bs with
  | ok t => exact absurd (Utf8.decode_eq_ok_iff.mp hdecode) (hnone t)
  | error fault => exact ⟨fault, by rw [parse_of_bytes h, ofBytes, hdecode]⟩

theorem parse_of_encoded {source : Source} {t : Text}
    (h : source.bytes? = some (Utf8.encode t)) : parse source = ofText t := by
  rw [parse_of_bytes h, ofBytes, Utf8.decode_encode]

/-- What is too long for a document is an integer that reading its text comes to. -/
theorem parse_eq_integerTooLong_iff {source : Source} {text? : Option Text}
    (h : source.Gives text?) (n : Nat) :
    parse source = .error (.integerTooLong n) ↔ ∃ t ∈ text?, Json.ComesTo n t := by
  have htext (t : Text) : ofText t = .error (.integerTooLong n) ↔ Json.ComesTo n t := by
    rw [← Json.read_eq_integerTooLong_iff]
    constructor
    · intro h
      rcases refusal_of_ofText h with ⟨e, he, -⟩ | ⟨m, hm, hread⟩
      · cases he
      · cases hm
        exact hread
    · intro h
      rw [ofText, h]
  cases h with
  | text t => simpa [parse] using htext t
  | encoded t h => simpa [parse_of_encoded h] using htext t
  | undecodable h hnone =>
    obtain ⟨fault, hparse⟩ := parse_of_undecodable h hnone
    simp [hparse]

/-- Any other refusal has the text. -/
theorem raw?_of_parse {source : Source} {text? : Option Text} (h : source.Gives text?)
    {e : ParseError} (hparse : parse source = .error (.invalid e)) : e.raw? = text? := by
  have htext {t : Text} (h : ofText t = .error (.invalid e)) : e.raw? = some t := by
    rcases refusal_of_ofText h with ⟨e', he, hraw⟩ | ⟨n, hn, -⟩
    · cases he
      exact hraw
    · cases hn
  cases h with
  | text t => exact htext hparse
  | encoded t h => exact htext (parse_of_encoded h ▸ hparse)
  | undecodable h hnone =>
    obtain ⟨fault, hfault⟩ := parse_of_undecodable h hnone
    cases hfault.symm.trans hparse
    rfl

end Document

namespace Operation

variable {σ ρ : Type}

/-- What comes of an import whose source gives a text or none, by what its source is parsed as. -/
inductive Sourced (call : Call σ) (b : Backend σ) (text? : Option Text) (s : σ × ρ) :
    Except Refusal Document → Record (σ × ρ) (Option Nat) → Prop
  /-- The statements of the document run. -/
  | runs (d : Document) {r : Record (σ × ρ) Nat}
    (h : Pipeline.runBoth b call.callbacks.progress? (d.compile (.ofOptions call.options)) s = r) :
    Sourced call b text? s (.ok d)
      ⟨(verdict "import_json" call.callbacks .executed r.outcome).2, r.state,
        (d.compileLog (.ofOptions call.options)).map .logged ++ r.events ++
          (verdict "import_json" call.callbacks .executed r.outcome).1⟩
  /-- An error with the text is reported, and nothing else is done. -/
  | reports (e : ParseError) {r : Record (σ × ρ) (Option Nat)} (hraw : e.raw? = text?)
    (hreports : ReportsError "import_json" call.callbacks (.parse e) r)
    (hsubmissions : Trace.submissions r.events = []) (hcontrols : Trace.controls r.events = [])
    (hstate : r.state = s) : Sourced call b text? s (.error (.invalid e)) r
  /-- The text comes to an integer that is too long, and nobody is told. -/
  | faults (n : Nat) : Sourced call b text? s (.error (.integerTooLong n))
      ⟨.error (.fault (.integerTooLong n)), s, []⟩

theorem importDocument_of_refusal {call : Call σ} {b : Backend σ} {source : Source}
    {refusal : Refusal} (hb : call.registry.adapt call.handle = .ok b)
    (hsource : Document.parse source = .error refusal) (s : σ × ρ) :
    let v := verdict (α := Nat) "import_json" call.callbacks .executed (.error refusal.toFailure)
    importDocument call source s = ⟨v.2, s, v.1⟩ := by
  have hparsed : (parsed source : Activity (σ × ρ) Document) s =
      ⟨.error refusal.toFailure, s, []⟩ := by
    rw [parsed, hsource]
    rfl
  have hcompiled : compiled (.ofOptions call.options) source s =
      ⟨.error refusal.toFailure, s, []⟩ := Activity.bind_of_error hparsed
  rw [importDocument, reported_apply, Activity.bind_of_ok (backend_apply hb s),
    Activity.bind_of_error hcompiled]
  rfl

/-- **Main: imports from text.**  Whatever is a text or bytes gives a text, or none.  On a backend
that can be used, an import from it runs, or reports an error that has the text and does nothing
else, or comes to an integer that is too long. -/
theorem importDocument_from_text (call : Call σ) (b : Backend σ) (source : Source) (s : σ × ρ)
    (hb : call.registry.adapt call.handle = .ok b) :
    (source.IsWritten ↔ ∃ text?, source.Gives text?) ∧
    ∀ text?, source.Gives text? →
      Sourced call b text? s (Document.parse source) (importDocument call source s) ∧
      ∀ n, Document.parse source = .error (.integerTooLong n) ↔
        ∃ t ∈ text?, Json.ComesTo n t := by
  refine ⟨Source.isWritten_iff, fun text? hgives => ⟨?_,
    Document.parse_eq_integerTooLong_iff hgives⟩⟩
  cases hparse : Document.parse source with
  | ok d =>
    rw [importDocument_apply hb hparse]
    exact .runs d rfl
  | error refusal =>
    rw [importDocument_of_refusal hb hparse]
    cases refusal with
    | integerTooLong n => exact .faults n
    | invalid e =>
      let v := verdict (α := Nat) "import_json" call.callbacks .executed
        (.error (.error (.parse e)))
      have hremarks : Trace.Remarks v.1 := remarks_verdict _ _ _ _
      have hnone : Trace.Unreported [] := fun _ he => nomatch he
      have hreports : ReportsError "import_json" call.callbacks (.parse e) ⟨v.2, s, [] ++ v.1⟩ :=
        reportsError_verdict _ _ _ hnone s
      exact .reports e (Document.raw?_of_parse hgives hparse) hreports hremarks.submissions_eq
        hremarks.controls_eq rfl

/-- A byte that starts no character is reported as an error without a text. -/
theorem undecodable_import_is_reported :
    takingErrors.registry.adapt takingErrors.handle = .ok (.engine Scripted.connection) ∧
      Source.Gives (.bytes [0xFF]) none ∧
      Sourced takingErrors (.engine Scripted.connection) none (unbeginning, ())
        (Document.parse (.bytes [0xFF]))
        (importDocument takingErrors (.bytes [0xFF]) (unbeginning, ())) ∧
      ∀ n, Document.parse (.bytes [0xFF]) = .error (.integerTooLong n) ↔
        ∃ t ∈ (none : Option Text), Json.ComesTo n t := by
  have hgives : Source.Gives (.bytes [0xFF]) none := .undecodable rfl fun t ht => by
    cases Utf8.decode_eq_ok_iff.mpr ht
  exact ⟨rfl, hgives, (importDocument_from_text takingErrors _ (.bytes [0xFF])
    (unbeginning, ()) rfl).2 none hgives⟩

/-- One digit more than are read. -/
def overlong : Text := List.replicate (Json.maxDigits + 1) '1'

/-- Nobody is told of an integer that is too long, neither by an error nor otherwise. -/
theorem overlong_import_is_not_reported :
    Source.Gives (.value (.text overlong)) (some overlong) ∧
      Document.parse (.value (.text overlong)) = .error (.integerTooLong 4301) ∧
      importDocument takingErrors (.value (.text overlong)) (unbeginning, ()) =
        ⟨.error (.fault (.integerTooLong 4301)), (unbeginning, ()), []⟩ := by
  have hgives : Source.Gives (.value (.text overlong)) (some overlong) := .text overlong
  have hlength : overlong.length = 4301 := List.length_replicate
  have hdigits : ∀ c ∈ overlong, c.isDigit := by
    intro c hc
    rw [List.eq_of_mem_replicate hc]
    rfl
  have hfirst : overlong.head? ≠ some '0' := by
    rw [overlong, List.replicate_succ, List.head?_cons]
    decide
  have hwhole : Json.IsWhole overlong :=
    ⟨List.replicate_succ_ne_nil, hdigits, fun hzero => absurd hzero hfirst⟩
  have hcomes := Json.comesTo_of_isWhole hwhole (by rw [hlength]; decide)
  rw [hlength] at hcomes
  have hparse : Document.parse (.value (.text overlong)) = .error (.integerTooLong 4301) :=
    (Document.parse_eq_integerTooLong_iff hgives 4301).mpr ⟨overlong, rfl, hcomes⟩
  exact ⟨hgives, hparse, importDocument_of_refusal rfl hparse (unbeginning, ())⟩

end Operation
end SqlInterchange
