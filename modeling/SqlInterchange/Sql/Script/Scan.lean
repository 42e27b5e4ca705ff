import SqlInterchange.OrderedMap
import SqlInterchange.Sql.Script

/-! # Scans

The statements of a script one by one. A scan keeps the text that it has not gone through yet and
goes on from there when asked for the next statement. Scans of one script may be under way side by
side, each under a name; they know nothing of each other. -/
namespace SqlInterchange.Script

/-- The first piece of the rest of a script, and what follows the semicolon that ends it. -/
def firstPiece (mode : Mode) : Text → Text × Option Text
  | [] => ([], none)
  | c :: cs =>
    match step mode c cs.head? with
    | .cut => ([], some cs)
    | .keep kept mode =>
      let (piece, rest?) := firstPiece mode cs
      (kept ++ piece, rest?)

theorem firstPiece_length {mode : Mode} {t piece rest : Text}
    (h : firstPiece mode t = (piece, some rest)) : rest.length < t.length := by
  induction t generalizing mode piece rest with
  | nil => simp [firstPiece] at h
  | cons c cs ih =>
    rw [firstPiece] at h
    split at h
    · simp only [Prod.mk.injEq, Option.some.injEq] at h
      simp [← h.2]
    · next kept mode' _ =>
      rcases hp : firstPiece mode' cs with ⟨p, r⟩
      rw [hp] at h
      simp only [Prod.mk.injEq] at h
      obtain ⟨-, rfl⟩ := h
      exact Nat.lt_succ_of_lt (ih hp)

/-- A scan under way: what is left of the script, if the scan is not over. -/
structure Scan where
  /-- The text not scanned yet. -/
  rest? : Option Text
deriving DecidableEq

/-- A scan from the start of a script. -/
def Scan.start (script : Text) : Scan := ⟨some script⟩

/-- The first statement of a text and what follows it. -/
def firstStatement? (t : Text) : Option (Text × Option Text) :=
  match _h : firstPiece .plain t with
  | (piece, rest?) =>
    let statement := Text.trim piece
    if statement.isEmpty then
      match rest? with
      | none => none
      | some rest => firstStatement? rest
    else some (statement, rest?)
termination_by t.length
decreasing_by exact firstPiece_length _h

/-- The next statement of a scan and the scan after it; an exhausted scan stays exhausted. -/
def Scan.next (s : Scan) : Option Text × Scan :=
  match s.rest?.bind firstStatement? with
  | none => (none, ⟨none⟩)
  | some (statement, rest?) => (some statement, ⟨rest?⟩)

/-! ## Named scans -/

/-- The scans of a script that have been started, by name. -/
abbrev Scans := OrderedMap Scan

/-- Starts a scan under a name, anew if there is one. -/
def Scans.start (script : Text) (scans : Scans) (name : Text) : Scans :=
  scans.insert name (.start script)

/-- The next statement of a named scan, and the scans after it; a scan that has not been started
has no statements. -/
def Scans.next (scans : Scans) (name : Text) : Option Text × Scans :=
  let (statement?, scan) := ((scans.get? name).getD ⟨none⟩).next
  (statement?, scans.insert name scan)

end SqlInterchange.Script
