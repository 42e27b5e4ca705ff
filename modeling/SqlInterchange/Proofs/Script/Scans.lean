import SqlInterchange.Proofs.OrderedMap
import SqlInterchange.Proofs.Script.Verbatim
import SqlInterchange.Sql.Script.Scan

/-! # Scans and statements

What remains of a scan is the list of the statements that it has still to give.  A scan from the
start has all statements of the script before it; each time it is asked it gives the first that
remains, and the others remain (`Scan.next_eq`).  So a scan under a name gives the statements of the
script by number, counted from where it was last started, whatever happens to other names between
(`scans_give_statements`).
-/
namespace SqlInterchange.Script

/-! ## The first piece -/

/-- A text has a first piece, and the pieces of what follows it. -/
theorem piecesFrom_eq_firstPiece (mode : Mode) (t : Text) : piecesFrom mode t =
    (firstPiece mode t).1 :: ((firstPiece mode t).2.map (piecesFrom .plain)).getD [] := by
  induction t generalizing mode with
  | nil => rfl
  | cons c cs ih =>
    rw [piecesFrom, firstPiece]
    cases step mode c cs.head? with
    | cut => rfl
    | keep kept mode' =>
      simp only [ih mode', prepend_cons]

namespace Scan

/-- The statements that a scan has still to give. -/
def remaining (scan : Scan) : List Text := (scan.rest?.map split).getD []

@[simp] theorem remaining_over : (Scan.mk none).remaining = [] := rfl

end Scan

/-- The statements of a text are those of the first piece and of what follows. -/
theorem split_eq_firstPiece (t : Text) : split t =
    fromPieces [(firstPiece .plain t).1] ++ (Scan.mk (firstPiece .plain t).2).remaining := by
  rw [split_eq_fromPieces, piecesFrom_eq_firstPiece, ← List.singleton_append, fromPieces_append]
  cases (firstPiece .plain t).2 with
  | none => rfl
  | some rest => rfl

/-- The first statement of a text and those of what follows it are the statements of the text. -/
theorem split_eq_firstStatement? (t : Text) : split t =
    match firstStatement? t with
    | none => []
    | some (statement, rest?) => statement :: (Scan.mk rest?).remaining := by
  fun_induction firstStatement? t with
  | case1 t piece statement hempty hpiece =>
    rw [split_eq_firstPiece, hpiece]
    simpa [fromPieces] using hempty
  | case2 t piece statement hempty rest hpiece _ ih =>
    -- a piece of blanks is no statement, and the search goes on behind it
    rw [split_eq_firstPiece, hpiece, ← ih]
    simpa [fromPieces, Scan.remaining] using hempty
  | case3 t piece rest? hpiece statement hempty =>
    have hne : Text.trim piece ≠ [] := by simpa using hempty
    rw [split_eq_firstPiece, hpiece]
    simp [fromPieces, hne, statement]

namespace Scan

/-- **Asked for a statement, a scan gives the first that remains, and the others remain.** -/
theorem next_eq (scan : Scan) :
    scan.next.1 = scan.remaining.head? ∧ scan.next.2.remaining = scan.remaining.tail := by
  rcases scan with ⟨rest?⟩
  cases rest? with
  | none => exact ⟨rfl, rfl⟩
  | some rest =>
    have hrest : (Scan.mk (some rest)).remaining = split rest := rfl
    rw [hrest, split_eq_firstStatement? rest, next]
    cases h : firstStatement? rest with
    | none => simp [h]
    | some first => simp [h]

end Scan

/-! ## Named scans -/

namespace Scans

/-- The statements that a named scan has still to give; a scan that has not been started has
none. -/
def remaining (scans : Scans) (name : Text) : List Text :=
  ((scans.get? name).getD ⟨none⟩).remaining

variable {name other : Text}

theorem remaining_start_self (script : Text) (scans : Scans) (name : Text) :
    (scans.start script name).remaining name = split script := by
  rw [remaining, start, OrderedMap.get?_insert_self]
  rfl

theorem remaining_start_of_ne (script : Text) (scans : Scans) (h : other ≠ name) :
    (scans.start script name).remaining other = scans.remaining other := by
  rw [remaining, start, OrderedMap.get?_insert_of_ne _ h]
  rfl

theorem next_eq (scans : Scans) (name : Text) :
    (scans.next name).1 = (scans.remaining name).head? ∧
      (scans.next name).2.remaining name = (scans.remaining name).tail := by
  obtain ⟨hfirst, hrest⟩ := Scan.next_eq ((scans.get? name).getD ⟨none⟩)
  refine ⟨hfirst, ?_⟩
  rw [remaining, next, OrderedMap.get?_insert_self]
  exact hrest

theorem remaining_next_of_ne (scans : Scans) (h : other ≠ name) :
    (scans.next name).2.remaining other = scans.remaining other := by
  rw [remaining, next, OrderedMap.get?_insert_of_ne _ h]
  rfl

/-- What a caller may do with the scans of a script. -/
inductive Step where
  /-- Starts a scan under a name. -/
  | start (name : Text)
  /-- Asks the scan under a name for a statement. -/
  | next (name : Text)
deriving DecidableEq

/-- The scans of a script after a step. -/
def perform (script : Text) (scans : Scans) : Step → Scans
  | .start name => scans.start script name
  | .next name => (scans.next name).2

/-- The scans of a script after some steps. -/
def after (script : Text) (scans : Scans) (steps : List Step) : Scans :=
  steps.foldl (perform script) scans

/-- Each step that asks a scan takes one statement off, and steps with other names none. -/
theorem remaining_perform (script : Text) (scans : Scans) {step : Step} (h : step ≠ .start name) :
    (scans.perform script step).remaining name =
      (scans.remaining name).drop ([step].count (.next name)) := by
  cases step with
  | start other =>
    have hne : name ≠ other := by
      rintro rfl
      exact h rfl
    exact remaining_start_of_ne script scans hne
  | next other =>
    by_cases hsame : other = name
    · subst hsame
      rw [List.count_singleton_self, List.drop_one]
      exact (next_eq scans other).2
    · have hother : [Step.next other].count (.next name) = 0 := by simp [hsame]
      rw [hother, List.drop_zero]
      exact remaining_next_of_ne scans (Ne.symm hsame)

/-- While it is not started again, a scan has given as many statements as it was asked for. -/
theorem remaining_after (script : Text) (scans : Scans) {steps : List Step}
    (h : .start name ∉ steps) : (scans.after script steps).remaining name =
      (scans.remaining name).drop (steps.count (.next name)) := by
  induction steps generalizing scans with
  | nil => rfl
  | cons step steps ih =>
    obtain ⟨hstep, hsteps⟩ := not_or.mp (List.mem_cons.not.mp h)
    have hcount : (step :: steps).count (.next name) =
        [step].count (.next name) + steps.count (.next name) := by
      rw [← List.count_append, List.singleton_append]
    rw [after, List.foldl_cons, ← after, ih _ hsteps, remaining_perform _ _ (Ne.symm hstep),
      List.drop_drop, hcount]

/-- **Main.** However the steps with the scans of a script are interleaved, a scan that was last
started with a given step gives, asked again, the statement of the script whose number is how often
it was asked since.  Where there is none it is over, and stays so until it is started again. -/
theorem scans_give_statements (script name : Text) (before since : List Step)
    (h : .start name ∉ since) :
    let scans := after script .empty (before ++ .start name :: since)
    (scans.next name).1 = (split script)[since.count (.next name)]? ∧
      ((scans.next name).1 = none → ∀ more, .start name ∉ more →
        ((after script (scans.next name).2 more).next name).1 = none) := by
  have hscans : (after script .empty (before ++ .start name :: since)).remaining name =
      (split script).drop (since.count (.next name)) := by
    rw [after, List.foldl_append, List.foldl_cons, ← after, ← after, remaining_after _ _ h,
      perform, remaining_start_self]
  intro scans
  obtain ⟨hgiven, hleft⟩ := scans.next_eq name
  constructor
  · rw [hgiven, hscans, List.head?_drop]
  · intro hover more hmore
    have hnone : scans.remaining name = [] := List.head?_eq_none_iff.mp (hgiven.symm.trans hover)
    rw [(next_eq _ name).1, remaining_after _ _ hmore, hleft, hnone]
    simp

/-- Two scans side by side, the first of them started again: the second is at its second statement
when the first is over. -/
theorem scans_of_two_statements :
    let script := "A;; -- ;\nB".toList
    let x : Text := "x".toList
    let y : Text := "y".toList
    let early : List Step := [.start x, .next x, .start y, .next y, .next x]
    let late : List Step := [.start x, .next x, .next x]
    .start y ∉ [.next y, .next x] ++ late ∧
      ((after script .empty (early ++ late)).next x).1 = none ∧
      ((after script .empty (early ++ late)).next y).1 = some "B".toList := by
  intro script x y early late
  have hsplit : split script = ["A".toList, "B".toList] := by decide
  have hx := (scans_give_statements script x early [.next x, .next x] (by decide)).1
  have hy := (scans_give_statements script y [.start x, .next x] ([.next y, .next x] ++ late)
    (by decide)).1
  rw [hsplit] at hx hy
  exact ⟨by decide, hx, hy⟩

end Scans
end SqlInterchange.Script
