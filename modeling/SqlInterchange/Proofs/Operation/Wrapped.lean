import SqlInterchange.Proofs.Export.Script
import SqlInterchange.Proofs.Operation.Effects
import SqlInterchange.Proofs.Script.Wrapper

/-! # Imports of dumps

A dump of a database opens a transaction with its first statement and commits it with its last
one.  An import of it is an import of the statements between the two, whatever these are: if they
open and commit a transaction again, then these statements are submitted with the others
(`wrapper_is_transparent`).
-/
namespace SqlInterchange
namespace Operation

open Activity (Triple)

variable {σ ρ : Type} {b : Backend σ} {I J : σ → Prop} {statements : List Text}

/-- An import whose statements are executed succeeds and leaves what they leave. -/
theorem triple_importing {call : Call σ} (hb : call.registry.adapt call.handle = .ok b)
    (hcallbacks : LetsGo call.callbacks) (hbegins : b.Begins I)
    (h : b.Executes I statements J) (hcommits : b.Commits J) :
    Triple (fun s : σ × ρ => I s.1) (importing call statements) fun n? s =>
      n?.isSome ∧ J s.1 := by
  have hrun : Triple (fun s : σ × ρ => I s.1)
      (Pipeline.runFresh b call.callbacks.progress? (.start "main".toList statements 0 none))
      fun _ s => J s.1 := Pipeline.triple_runFresh rfl hbegins hcommits h hcallbacks.progress
  refine (triple_reported hcallbacks.results (triple_backend hb hrun)).weaken ?_
  rintro n? s ⟨n, rfl, hs⟩
  exact ⟨rfl, hs⟩

/-- **Main: the wrapper of a dump makes no difference.**  Where the scan of a text is outside
literals and comments, a semicolon separates it from every other text.  An import of a script
between a statement that opens a transaction and one that commits it does just what it does with
the statements of the script: of these it submits the first, all if it succeeds, and it succeeds
where they are executed. -/
theorem wrapper_is_transparent :
    (∀ a b, Script.modeAfter .plain a = .plain →
      Script.split (a ++ ';' :: b) = Script.split a ++ Script.split b) ∧
    ∀ leading script trailing, Script.IsOpening leading → Script.modeAfter .plain script = .plain →
      Script.IsClosing trailing → ∀ {σ ρ : Type} (call : Call σ) (s : σ × ρ),
        let statements := Script.split script
        let r := importScript call (Script.wrapped leading script trailing) s
        r = importing call statements s ∧
        Trace.submissions r.events <+: statements ∧
        (∀ n, r.outcome = .ok (some n) →
          Trace.submissions r.events = statements ∧ n = statements.length) ∧
        ∀ (b : Backend σ) (I J : σ → Prop), call.registry.adapt call.handle = .ok b →
          LetsGo call.callbacks → b.Begins I → b.Executes I statements J → b.Commits J → I s.1 →
            r.outcome = .ok (some statements.length) ∧
            Trace.submissions r.events = statements ∧ J r.state.1 := by
  refine ⟨fun a b h => Script.split_append_semicolon h b, ?_⟩
  intro leading script trailing hleading hscript htrailing σ ρ call s
  have himport : (importScript call (Script.wrapped leading script trailing) :
      Activity (σ × ρ) (Option Nat)) = importing call (Script.split script) := by
    rw [importScript_eq_importing, Script.unwrap_split_wrapped hleading hscript htrailing]
  simp only [himport]
  obtain ⟨hfirst, hall⟩ := submissions_importing call (Script.split script) s
  refine ⟨trivial, hfirst, hall, fun b I J hb hcallbacks hbegins h hcommits hs => ?_⟩
  obtain ⟨n?, s', es, hr, hsome, hJ⟩ := triple_importing hb hcallbacks hbegins h hcommits s hs
  obtain ⟨n, rfl⟩ := Option.isSome_iff_exists.mp hsome
  obtain ⟨hsubmitted, rfl⟩ := hall n (by rw [hr])
  exact ⟨by rw [hr], hsubmitted, by rw [hr]; exact hJ⟩

/-! ### A wrapper in a wrapper -/

/-- A connection that takes every statement. -/
def agreeing : Scripted.Script := cataloged []

theorem executes_agreeing (statements : List Text) :
    Scripted.recording.Executes (· = agreeing) statements (· = agreeing) := by
  induction statements with
  | nil => exact .nil _
  | cons statement statements ih =>
    refine .cons (fun c hc => ?_) ih
    subst hc
    exact ⟨_, agreeing, rfl, rfl⟩

/-- How a dump may begin. -/
def leadingWords : Text := " begin\tImmediate".toList

/-- How it may end. -/
def trailingWords : Text := "End\r\nTRANSACTION\n".toList

/-- A script that is wrapped already. -/
def wrappedAlready : Text := "BEGIN; VALUES (';--'); COMMIT".toList

theorem isOpening_leadingWords : Script.IsOpening leadingWords := by
  have hkind : Script.Trails ["IMMEDIATE"] "\tImmediate".toList :=
    @Script.Trails.cons _ _ "\t".toList "Immediate".toList [] (by decide) (by decide)
      (.of_map rfl) .nil
  have hphrase : Script.Phrase "BEGIN" ["IMMEDIATE"] leadingWords :=
    @Script.Phrase.mk _ _ [' '] "begin".toList _ [] (by decide) (.of_map rfl) hkind (by decide)
  exact ⟨["IMMEDIATE"], by decide, [], by decide, hphrase⟩

theorem isClosing_trailingWords : Script.IsClosing trailingWords := by
  have hnoun : Script.Trails ["TRANSACTION"] "\r\nTRANSACTION".toList :=
    @Script.Trails.cons _ _ "\r\n".toList "TRANSACTION".toList [] (by decide) (by decide)
      (.of_map rfl) .nil
  have hphrase : Script.Phrase "END" ["TRANSACTION"] trailingWords :=
    @Script.Phrase.mk _ _ [] "End".toList _ ['\n'] (by decide) (.of_map rfl) hnoun (by decide)
  exact ⟨"END", by decide, ["TRANSACTION"], by decide, hphrase⟩

/-- Only the outer wrapper is taken off. -/
theorem wrappedAlready_is_submitted :
    Script.IsOpening leadingWords ∧ Script.modeAfter .plain wrappedAlready = .plain ∧
      Script.IsClosing trailingWords ∧
      let r := importScript reading
        (Script.wrapped leadingWords wrappedAlready trailingWords) (agreeing, ())
      r.outcome = .ok (some 3) ∧ Trace.submissions r.events =
        ["BEGIN".toList, "VALUES (';--')".toList, "COMMIT".toList] := by
  have hscript : Script.modeAfter .plain wrappedAlready = .plain := by decide
  have hsplit : Script.split wrappedAlready =
      ["BEGIN".toList, "VALUES (';--')".toList, "COMMIT".toList] := by
    decide
  have hgo : LetsGo reading.callbacks := ⟨nofun, fun _ _ => rfl⟩
  have hbegins : Scripted.recording.Begins (· = agreeing) := by
    rintro c rfl -
    exact ⟨agreeing, rfl, rfl⟩
  have hcommits : Scripted.recording.Commits (· = agreeing) := by
    rintro c rfl -
    exact ⟨agreeing, rfl, rfl⟩
  obtain ⟨-, -, -, hall⟩ := wrapper_is_transparent.2 leadingWords wrappedAlready trailingWords
    isOpening_leadingWords hscript isClosing_trailingWords reading (agreeing, ())
  obtain ⟨houtcome, hsubmitted, -⟩ := hall Scripted.recording _ _ rfl hgo hbegins
    (executes_agreeing _) hcommits rfl
  rw [hsplit] at houtcome hsubmitted
  exact ⟨isOpening_leadingWords, hscript, isClosing_trailingWords, houtcome, hsubmitted⟩

end Operation
end SqlInterchange
