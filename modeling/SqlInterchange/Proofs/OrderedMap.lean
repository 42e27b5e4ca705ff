import SqlInterchange.OrderedMap

/-! # Ordered maps made of entries

A map made by writing entries has no others, and has them all, in their order, if no name is there
twice.  A map that is updated with another has the names of both, its own first, and of two values
of a name that of the other map.
-/
namespace SqlInterchange.OrderedMap

variable {α : Type}

theorem mem_write {key : Text} {value : α} {es : List (Text × α)} {e : Text × α}
    (h : e ∈ write key value es) : e = (key, value) ∨ e ∈ es := by
  induction es with
  | nil => exact .inl (by simpa [write] using h)
  | cons f es ih =>
    rw [write] at h
    split at h
    · next hk =>
      rcases List.mem_cons.mp h with rfl | h
      · exact .inl (by rw [hk])
      · exact .inr (List.mem_cons_of_mem _ h)
    · rcases List.mem_cons.mp h with rfl | h
      · exact .inr (List.mem_cons_self ..)
      · exact (ih h).imp_right (List.mem_cons_of_mem _)

/-- A map made of entries has no others. -/
theorem mem_of_mem_ofList {es : List (Text × α)} {e : Text × α} (h : e ∈ (ofList es).entries) :
    e ∈ es := by
  -- for every map to begin with, since the fold goes on from another one at each entry
  have hfold : ∀ m : OrderedMap α, e ∈ (es.foldl (fun m f => m.insert f.1 f.2) m).entries →
      e ∈ m.entries ∨ e ∈ es := by
    clear h
    induction es with
    | nil => exact fun m hm => .inl hm
    | cons f es ih =>
      intro m hm
      rcases ih (m.insert f.1 f.2) hm with hm | hm
      · rcases mem_write hm with rfl | hm
        · exact .inr (List.mem_cons_self ..)
        · exact .inl hm
      · exact .inr (List.mem_cons_of_mem _ hm)
  exact (hfold empty h).resolve_left (by simp [empty])

section Write

variable {κ : Type} [DecidableEq κ] [BEq κ] [LawfulBEq κ] {key : κ} {es : List (κ × α)}

omit [BEq κ] [LawfulBEq κ] in
/-- A new name is written at the end. -/
theorem write_of_not_mem (h : key ∉ es.map Prod.fst) (value : α) :
    write key value es = es ++ [(key, value)] := by
  induction es with
  | nil => rfl
  | cons e es ih =>
    rw [List.map_cons, List.mem_cons, not_or] at h
    rw [write, if_neg (Ne.symm h.1), ih h.2, List.cons_append]

omit [BEq κ] [LawfulBEq κ] in
/-- A name that is there is written in its place. -/
theorem keys_write_of_mem (h : key ∈ es.map Prod.fst) (value : α) :
    (write key value es).map Prod.fst = es.map Prod.fst := by
  induction es with
  | nil => cases h
  | cons e es ih =>
    rw [write]
    split
    · rfl
    · next hne =>
      rw [List.map_cons, List.mem_cons] at h
      rw [List.map_cons, List.map_cons, ih (h.resolve_left (Ne.symm hne))]

/-- A new name comes last, and any other keeps its place. -/
theorem keys_write (key : κ) (value : α) (es : List (κ × α)) :
    (write key value es).map Prod.fst = es.map Prod.fst ++ [key].filter (· ∉ es.map Prod.fst) := by
  by_cases h : key ∈ es.map Prod.fst
  · simp [keys_write_of_mem h, h]
  · simp [write_of_not_mem h, h]

theorem lookup_cons_eq_if (e : κ × α) (es : List (κ × α)) (other : κ) :
    (e :: es).lookup other = if other = e.1 then some e.2 else es.lookup other := by
  rw [List.lookup_cons]
  by_cases h : other = e.1
  · rw [beq_iff_eq.mpr h, if_pos h]
  · rw [beq_false_of_ne h, if_neg h]

/-- The name that is written has the value that is written, and any other keeps its value. -/
theorem lookup_write (key : κ) (value : α) (es : List (κ × α)) (other : κ) :
    (write key value es).lookup other = if other = key then some value else es.lookup other := by
  induction es with
  | nil => rw [write, lookup_cons_eq_if]
  | cons e es ih =>
    rw [write]
    split
    · next hkey =>
      rw [lookup_cons_eq_if, lookup_cons_eq_if, hkey]
      by_cases h : other = key
      · rw [if_pos h, if_pos h]
      · rw [if_neg h, if_neg h, if_neg h]
    · next hkey =>
      rw [lookup_cons_eq_if, lookup_cons_eq_if, ih]
      by_cases h : other = e.1
      · rw [if_pos h, if_neg fun heq => hkey (h.symm.trans heq), if_pos h]
      · rw [if_neg h, if_neg h]

end Write

/-- A map made of entries without a repeated name has these entries. -/
theorem entries_ofList {es : List (Text × α)} (h : (es.map Prod.fst).Nodup) :
    (ofList es).entries = es := by
  -- for every map to begin with that has none of the names
  have hfold : ∀ m : OrderedMap α, (∀ e ∈ es, e.1 ∉ m.entries.map Prod.fst) →
      (es.foldl (fun m f => m.insert f.1 f.2) m).entries = m.entries ++ es := by
    induction es with
    | nil => exact fun m _ => (List.append_nil _).symm
    | cons e es ih =>
      intro m hm
      rw [List.map_cons, List.nodup_cons] at h
      have hwrite : (m.insert e.1 e.2).entries = m.entries ++ [e] :=
        write_of_not_mem (hm e (List.mem_cons_self ..)) e.2
      rw [List.foldl_cons, ih h.2, hwrite, List.append_assoc, List.singleton_append]
      intro f hf
      rw [hwrite, List.map_append, List.mem_append, not_or]
      constructor
      · exact hm f (List.mem_cons_of_mem _ hf)
      · intro heq
        have hsame : f.1 = e.1 := by simpa using heq
        exact h.1 (hsame ▸ List.mem_map_of_mem hf)
  exact hfold empty (by simp [empty])

/-- The entries of a map make the map. -/
theorem ofList_entries (m : OrderedMap α) : ofList m.entries = m := ext (entries_ofList m.nodup)

/-- A name has the value that is written with it. -/
theorem get?_of_mem (m : OrderedMap α) {e : Text × α} (h : e ∈ m.entries) :
    m.get? e.1 = some e.2 := by
  have hlookup : ∀ es : List (Text × α), (es.map Prod.fst).Nodup → e ∈ es →
      es.lookup e.1 = some e.2 := by
    intro es hnodup he
    induction es with
    | nil => cases he
    | cons f es ih =>
      rw [List.map_cons, List.nodup_cons] at hnodup
      rcases List.mem_cons.mp he with rfl | he
      · rw [lookup_cons_eq_if, if_pos rfl]
      · have hne : e.1 ≠ f.1 := fun heq => hnodup.1 (heq ▸ List.mem_map_of_mem he)
        rw [lookup_cons_eq_if, if_neg hne]
        exact ih hnodup.2 he
  exact hlookup m.entries m.nodup h

/-- The name that is written has the value that is written. -/
theorem get?_insert_self (m : OrderedMap α) (key : Text) (value : α) :
    (m.insert key value).get? key = some value :=
  (lookup_write key value m.entries key).trans (if_pos rfl)

/-- Every other name keeps its value. -/
theorem get?_insert_of_ne (m : OrderedMap α) {key other : Text} (h : other ≠ key) (value : α) :
    (m.insert key value).get? other = m.get? other :=
  (lookup_write key value m.entries other).trans (if_neg h)

theorem lookup_eq_none {es : List (Text × α)} {key : Text} (h : key ∉ es.map Prod.fst) :
    es.lookup key = none := by
  rw [List.lookup_eq_none_iff]
  intro e he
  refine bne_iff_ne.mpr ?_
  rintro rfl
  exact h (List.mem_map_of_mem he)

/-- A name that is not there has no value. -/
theorem get?_eq_none (m : OrderedMap α) {key : Text} (h : key ∉ m.keys) : m.get? key = none :=
  lookup_eq_none h

/-! ## Updates -/

/-- The map after writing the entries of another. -/
def updated (m n : OrderedMap α) : OrderedMap α :=
  n.entries.foldl (fun m e => m.insert e.1 e.2) m

theorem keys_insert (m : OrderedMap α) (key : Text) (value : α) :
    (m.insert key value).keys = m.keys ++ [key].filter (· ∉ m.keys) :=
  keys_write key value m.entries

/-- The other map decides. -/
theorem get?_updated (m n : OrderedMap α) (key : Text) :
    (m.updated n).get? key = (n.get? key).or (m.get? key) := by
  -- for all entries without a repeated name, since the fold goes on from another map at each
  have hfold : ∀ (es : List (Text × α)) (m : OrderedMap α), (es.map Prod.fst).Nodup →
      (es.foldl (fun m e => m.insert e.1 e.2) m).get? key = (es.lookup key).or (m.get? key) := by
    intro es
    induction es with
    | nil => exact fun m _ => rfl
    | cons e es ih =>
      intro m h
      rw [List.map_cons, List.nodup_cons] at h
      rw [List.foldl_cons, ih _ h.2, lookup_cons_eq_if]
      by_cases hkey : key = e.1
      · rw [hkey, lookup_eq_none h.1, get?_insert_self, if_pos rfl]
        rfl
      · rw [get?_insert_of_ne m hkey, if_neg hkey]
  exact hfold n.entries m n.nodup

/-- The names of the map come first, then the new ones of the other map. -/
theorem keys_updated (m n : OrderedMap α) :
    (m.updated n).keys = m.keys ++ n.keys.filter (· ∉ m.keys) := by
  have hfold : ∀ (es : List (Text × α)) (m : OrderedMap α), (es.map Prod.fst).Nodup →
      (es.foldl (fun m e => m.insert e.1 e.2) m).keys =
        m.keys ++ (es.map Prod.fst).filter (· ∉ m.keys) := by
    intro es
    induction es with
    | nil => exact fun m _ => (List.append_nil _).symm
    | cons e es ih =>
      intro m h
      rw [List.map_cons, List.nodup_cons] at h
      have hrest : (es.map Prod.fst).filter (· ∉ (m.insert e.1 e.2).keys) =
          (es.map Prod.fst).filter (· ∉ m.keys) := by
        refine List.filter_congr fun key hkey => ?_
        have hne : key ≠ e.1 := by
          rintro rfl
          exact h.1 hkey
        simp [keys_insert, hne]
      rw [List.foldl_cons, ih _ h.2, hrest, keys_insert, List.append_assoc, ← List.filter_append]
      rfl
  exact hfold n.entries m n.nodup

theorem mem_keys_of_sameKeys {m n : OrderedMap α} (h : m.sameKeys n) (key : Text) :
    key ∈ m.keys ↔ key ∈ n.keys := by
  obtain ⟨hmn, hnm⟩ := Bool.and_eq_true_iff.mp h
  constructor
  · intro hkey
    simpa using List.all_eq_true.mp hmn key hkey
  · intro hkey
    simpa using List.all_eq_true.mp hnm key hkey

theorem sameKeys_self (m : OrderedMap α) : m.sameKeys m := by simp [sameKeys]

end SqlInterchange.OrderedMap
