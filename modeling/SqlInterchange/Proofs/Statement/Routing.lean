import Mathlib.Algebra.Order.BigOperators.Group.List
import Mathlib.Algebra.Order.Group.Nat
import SqlInterchange.Proofs.Text.Trim
import SqlInterchange.Sql.SchemaStatement

/-! # Terminators of schema statements

A schema statement is cleaned in one pass: blanks are taken off at its ends, then the semicolons at
its end, then the blanks before them.  The pass is not repeated, so of semicolons that blanks keep
apart only the last ones are taken off.  Such a statement has a straggler, and exactly then the
cleaned one still ends with a semicolon (`getLast?_clean_iff`).

Everything else that routing is for follows from there: statements without stragglers are routed
without terminators, one of blanks and semicolons alone is dropped, and what was routed is routed
again as it is (`route_terminators_iff`).
-/
namespace SqlInterchange.SchemaStatement

open Text

/-- Whether a text ends with semicolons that blanks keep apart from another one before them. -/
inductive HasStraggler : Text → Prop
  | intro (front blanks semicolons rest : Text)
    (hblanks : blanks ≠ [] ∧ ∀ c ∈ blanks, isBlank c)
    (hsemicolons : semicolons ≠ [] ∧ ∀ c ∈ semicolons, c = ';')
    (hrest : ∀ c ∈ rest, isBlank c) :
    HasStraggler (front ++ ';' :: (blanks ++ semicolons ++ rest))

/-! ## Cleaning -/

/-- What a text has lost when it is cleaned. -/
theorem exists_clean (t : Text) : ∃ before blanks semicolons after,
    t = before ++ (clean t ++ blanks ++ semicolons) ++ after ∧
      (∀ c ∈ blanks, isBlank c) ∧ (∀ c ∈ semicolons, c = ';') ∧ (∀ c ∈ after, isBlank c) ∧
      (∀ c ∈ (clean t ++ blanks).getLast?, c ≠ ';') ∧
      (∀ c ∈ (clean t ++ blanks ++ semicolons).getLast?, isBlank c = false) := by
  obtain ⟨after, hafter, hblank⟩ := exists_dropped isBlank (trimStart t)
  obtain ⟨semicolons, hsemicolons, hall⟩ := exists_dropped (· == ';') (trim t)
  obtain ⟨blanks, hblanks, hblank'⟩ := exists_dropped isBlank (dropEndWhile (· == ';') (trim t))
  change dropEndWhile (· == ';') (trim t) = clean t ++ blanks at hblanks
  rw [hblanks] at hsemicolons
  obtain ⟨before, -, hbefore⟩ := exists_trimStart t
  refine ⟨before, blanks, semicolons, after, ?_, hblank', ?_, hblank, ?_, ?_⟩
  · calc t = before ++ trimStart t := hbefore
      _ = before ++ (trim t ++ after) := by rw [hafter]; rfl
      _ = before ++ (clean t ++ blanks ++ semicolons) ++ after := by
        rw [← hsemicolons, List.append_assoc]
  · exact fun c hc => eq_of_beq (hall c hc)
  · rw [← hblanks]
    exact fun c hc => ne_of_beq_false (getLast?_dropEndWhile _ c hc)
  · rw [← hsemicolons]
    exact getLast?_trimEnd _

/-- Of the semicolons of a straggler the first one stays. -/
theorem clean_of_straggler (front : Text) {blanks semicolons rest : Text}
    (hblanks : blanks ≠ [] ∧ ∀ c ∈ blanks, isBlank c)
    (hsemicolons : semicolons ≠ [] ∧ ∀ c ∈ semicolons, c = ';') (hrest : ∀ c ∈ rest, isBlank c) :
    clean (front ++ ';' :: (blanks ++ semicolons ++ rest)) = trimStart front ++ [';'] := by
  have hlast : ∀ c ∈ (blanks ++ semicolons).getLast?, isBlank c = false := by
    intro c hc
    rw [List.getLast?_append_of_ne_nil _ hsemicolons.1] at hc
    rw [hsemicolons.2 c (List.mem_of_getLast? hc)]
    rfl
  have hopen : ∀ c ∈ (trimStart front ++ ';' :: blanks).getLast?, (c == ';') = false := by
    intro c hc
    rw [List.getLast?_append_cons, List.getLast?_cons_of_ne_nil hblanks.1] at hc
    refine beq_false_of_ne ?_
    rintro rfl
    exact absurd (hblanks.2 ';' (List.mem_of_getLast? hc)) (by decide)
  have htrim : trim (front ++ ';' :: (blanks ++ semicolons ++ rest)) =
      trimStart front ++ ';' :: blanks ++ semicolons := by
    rw [trim_append_cons _ _ rfl, trimEnd, dropEndWhile_append _ hrest, dropEndWhile_eq_self hlast]
    simp
  have hsemicolon : ∀ c ∈ semicolons, (c == ';') = true := fun c hc =>
    beq_iff_eq.mpr (hsemicolons.2 c hc)
  rw [clean, htrim, dropEndWhile_append _ hsemicolon, dropEndWhile_eq_self hopen,
    trimEnd_append_cons _ _ rfl, trimEnd, dropEndWhile_eq_nil hblanks.2]

/-- **A cleaned text ends with a semicolon if and only if it had a straggler.** -/
theorem getLast?_clean_iff (t : Text) : (clean t).getLast? = some ';' ↔ HasStraggler t := by
  constructor
  · intro h
    obtain ⟨front, hfront⟩ := List.getLast?_eq_some_iff.mp h
    obtain ⟨before, blanks, semicolons, after, ht, hblanks, hsemicolons, hafter, hopen, hink⟩ :=
      exists_clean t
    rw [hfront] at ht hopen hink
    have hblanks' : blanks ≠ [] := by
      rintro rfl
      exact hopen ';' (by simp) rfl
    have hsemicolons' : semicolons ≠ [] := by
      rintro rfl
      have hlast := List.getLast_mem_getLast? hblanks'
      rw [List.append_nil, List.getLast?_append_of_ne_nil _ hblanks'] at hink
      exact absurd (hblanks _ (List.getLast_mem hblanks')) (by simp [hink _ hlast])
    have hall : t = before ++ front ++ ';' :: (blanks ++ semicolons ++ after) := by
      rw [ht]
      simp
    exact hall ▸ .intro (before ++ front) blanks semicolons after ⟨hblanks', hblanks⟩
      ⟨hsemicolons', hsemicolons⟩ hafter
  · rintro ⟨front, blanks, semicolons, rest, hblanks, hsemicolons, hrest⟩
    rw [clean_of_straggler front hblanks hsemicolons hrest, List.getLast?_concat]

/-! ## What cleaning leaves -/

theorem clean_isPrefix (t : Text) : clean t <+: trim t :=
  (trimEnd_isPrefix _).trans (dropEndWhile_isPrefix _)

theorem head?_clean (t : Text) : ∀ c ∈ (clean t).head?, isBlank c = false := fun c hc =>
  head?_trim t c (head?_of_isPrefix (clean_isPrefix t) c hc)

theorem trim_clean (t : Text) : trim (clean t) = clean t :=
  trim_eq_self (head?_clean t) (getLast?_trimEnd _)

/-- Where no semicolon ends a trimmed text there is nothing to clean. -/
theorem clean_eq_self {t : Text} (htrim : trim t = t) (h : t.getLast? ≠ some ';') :
    clean t = t := by
  have hopen : ∀ c ∈ t.getLast?, (c == ';') = false := by
    rintro c hc
    exact beq_false_of_ne fun heq => h (heq ▸ hc)
  have hlast : ∀ c ∈ t.getLast?, isBlank c = false := htrim ▸ getLast?_trimEnd _
  rw [clean, htrim, dropEndWhile_eq_self hopen, trimEnd, dropEndWhile_eq_self hlast]

theorem length_clean_le {t : Text} (htrim : trim t = t) : (clean t).length ≤ t.length := by
  have hprefix := clean_isPrefix t
  rw [htrim] at hprefix
  exact hprefix.length_le

/-- Where a semicolon ends a trimmed text cleaning takes it off. -/
theorem length_clean_lt {t : Text} (htrim : trim t = t) (h : t.getLast? = some ';') :
    (clean t).length < t.length := by
  obtain ⟨front, rfl⟩ := List.getLast?_eq_some_iff.mp h
  have hend : dropEndWhile (· == ';') (front ++ [';']) = dropEndWhile (· == ';') front :=
    dropEndWhile_append front (by simp)
  have hprefix : clean (front ++ [';']) <+: front := by
    rw [clean, htrim, hend]
    exact (trimEnd_isPrefix _).trans (dropEndWhile_isPrefix _)
  have hle := hprefix.length_le
  simp
  omega

theorem mem_of_mem_clean {t : Text} {c : Char} (hc : c ∈ clean t) : c ∈ t := by
  obtain ⟨before, blanks, semicolons, after, ht, -⟩ := exists_clean t
  rw [ht]
  simp [hc]

/-- Of a text of blanks and semicolons nothing is left, or a semicolon at the end. -/
theorem clean_eq_nil_iff {t : Text} (h : ∀ c ∈ t, isBlank c ∨ c = ';') :
    clean t = [] ↔ ¬HasStraggler t := by
  rw [← getLast?_clean_iff]
  constructor
  · intro hnil
    simp [hnil]
  · intro hopen
    by_contra hne
    have hlast := List.getLast_mem_getLast? hne
    rcases h _ (mem_of_mem_clean (List.getLast_mem hne)) with hblank | hsemicolon
    · exact absurd hblank (by simp [getLast?_trimEnd _ _ hlast])
    · exact hopen (hsemicolon ▸ hlast)

/-! ## What is routed -/

/-- The statements of both groups. -/
def routed (statements : List Text) : List Text :=
  (route statements).1 ++ (route statements).2

/-- The two groups hold the cleaned statements. -/
theorem routed_perm (statements : List Text) : (routed statements).Perm (cleaned statements) :=
  List.perm_append_comm.trans (List.filter_append_perm makesIndex (cleaned statements))

theorem mem_routed {s : Text} {statements : List Text} :
    s ∈ routed statements ↔ s ≠ [] ∧ ∃ t ∈ statements, clean t = s := by
  rw [(routed_perm statements).mem_iff, cleaned, List.mem_filter, List.mem_map, and_comm]
  simp

theorem route_eq_nil_iff {statements : List Text} :
    route statements = ([], []) ↔ ∀ t ∈ statements, clean t = [] := by
  constructor
  · intro hroute t ht
    by_contra hne
    have hmem := mem_routed.mpr ⟨hne, t, ht, rfl⟩
    rw [routed, hroute] at hmem
    exact List.not_mem_nil hmem
  · intro hclean
    have hcleaned : cleaned statements = [] := by
      refine List.filter_eq_nil_iff.mpr fun s hs => ?_
      obtain ⟨t, ht, rfl⟩ := List.mem_map.mp hs
      simp [hclean t ht]
    rw [route, hcleaned]
    rfl

/-- A statement of its group is routed to it again. -/
theorem route_of_clean {statements : List Text} (h : ∀ s ∈ routed statements, clean s = s) :
    route (routed statements) = route statements := by
  have hcleaned : cleaned (routed statements) = routed statements := by
    have hmap : (routed statements).map clean = routed statements := by
      simpa using List.map_congr_left h
    rw [cleaned, hmap, List.filter_eq_self]
    exact fun s hs => by simpa using (mem_routed.mp hs).1
  rw [route, hcleaned]
  simp [routed, route, List.filter_filter]

/-- Routed again, the statements are shorter if one ends with a semicolon. -/
theorem length_routed_lt {statements : List Text} {s : Text} (hs : s ∈ routed statements)
    (h : s.getLast? = some ';') :
    (routed (routed statements)).flatten.length < (routed statements).flatten.length := by
  have htrim : ∀ s ∈ routed statements, trim s = s := by
    intro s hs
    obtain ⟨-, t, -, rfl⟩ := mem_routed.mp hs
    exact trim_clean t
  have hlength : (routed (routed statements)).flatten.length =
      ((routed statements).map fun s => (clean s).length).sum := by
    rw [(routed_perm _).flatten.length_eq, cleaned, List.flatten_filter_not_isEmpty,
      List.length_flatten, List.map_map]
    rfl
  rw [hlength, List.length_flatten]
  exact List.sum_lt_sum _ _ (fun s hs => length_clean_le (htrim s hs))
    ⟨s, hs, length_clean_lt (htrim s hs) h⟩

/-- **Main.** What is routed has something in it and no blanks around it.  It ends with a semicolon
only where a statement had a straggler; so statements of blanks and semicolons are dropped, and what
was routed is routed again as it is, if and only if there is no straggler. -/
theorem route_terminators_iff (statements : List Text) :
    (∀ s ∈ routed statements, s ≠ [] ∧ (∀ c ∈ s.head?, isBlank c = false) ∧
      ∀ c ∈ s.getLast?, isBlank c = false) ∧
    ((∃ s ∈ routed statements, s.getLast? = some ';') ↔ ∃ t ∈ statements, HasStraggler t) ∧
    ((∀ t ∈ statements, ∀ c ∈ t, isBlank c ∨ c = ';') →
      (route statements = ([], []) ↔ ∀ t ∈ statements, ¬HasStraggler t)) ∧
    (route (routed statements) = route statements ↔ ∀ t ∈ statements, ¬HasStraggler t) := by
  have hends : (∃ s ∈ routed statements, s.getLast? = some ';') ↔
      ∃ t ∈ statements, HasStraggler t := by
    constructor
    · rintro ⟨s, hs, hlast⟩
      obtain ⟨-, t, ht, rfl⟩ := mem_routed.mp hs
      exact ⟨t, ht, (getLast?_clean_iff t).mp hlast⟩
    · rintro ⟨t, ht, hstraggler⟩
      have hlast := (getLast?_clean_iff t).mpr hstraggler
      refine ⟨clean t, mem_routed.mpr ⟨?_, t, ht, rfl⟩, hlast⟩
      rintro hnil
      simp [hnil] at hlast
  refine ⟨?_, hends, ?_, ?_⟩
  · intro s hs
    obtain ⟨hne, t, -, rfl⟩ := mem_routed.mp hs
    exact ⟨hne, head?_clean t, getLast?_trimEnd _⟩
  · intro hall
    rw [route_eq_nil_iff]
    exact forall₂_congr fun t ht => clean_eq_nil_iff (hall t ht)
  · constructor
    · intro hsame t ht hstraggler
      obtain ⟨s, hs, hlast⟩ := hends.mpr ⟨t, ht, hstraggler⟩
      have hlt := length_routed_lt hs hlast
      rw [routed, hsame, ← routed] at hlt
      exact Nat.lt_irrefl _ hlt
    · intro hnone
      refine route_of_clean fun s hs => ?_
      obtain ⟨-, t, ht, rfl⟩ := mem_routed.mp hs
      exact clean_eq_self (trim_clean t) fun hlast =>
        hnone t ht ((getLast?_clean_iff t).mp hlast)

/-- A semicolon behind a blank leaves the one before it, and this one goes when the statement is
routed again; of two such semicolons alone one is left. -/
theorem route_keeps_straggler :
    route ["CREATE VIEW v AS SELECT 1; ;".toList] = (["CREATE VIEW v AS SELECT 1;".toList], []) ∧
      route ["CREATE VIEW v AS SELECT 1;".toList] = (["CREATE VIEW v AS SELECT 1".toList], []) ∧
      route ["; ;".toList] = ([";".toList], []) ∧ route [";".toList] = ([], []) := by
  decide

end SqlInterchange.SchemaStatement
