import SqlInterchange.Text

/-! # Ordered maps

A table of columns, a section of tables, the fields of an object: all are maps from names to
values whose order is the order in which the names first came. Writing to a name that is already
there changes its value and keeps its place, so a repeated name has its first place and its last
value. -/
namespace SqlInterchange

/-- Entries in the order of their names' first appearance, each name once. -/
structure OrderedMap (α : Type) where
  /-- The names and their values, in order. -/
  entries : List (Text × α)
  /-- No name is there twice. -/
  nodup : (entries.map Prod.fst).Nodup

namespace OrderedMap

variable {α β : Type}

/-- Two maps with the same entries in the same order are one. -/
@[ext] theorem ext {m n : OrderedMap α} (h : m.entries = n.entries) : m = n := by
  cases m; cases n; cases h; rfl

/-- The map without entries. -/
def empty : OrderedMap α := ⟨[], .nil⟩

instance : Inhabited (OrderedMap α) := ⟨empty⟩

instance [DecidableEq α] : DecidableEq (OrderedMap α) := fun m n =>
  if h : m.entries = n.entries then isTrue (ext h) else isFalse fun e => h (congrArg entries e)

/-- The names, in order. -/
def keys (m : OrderedMap α) : List Text := m.entries.map Prod.fst

/-- The values, in the order of their names. -/
def values (m : OrderedMap α) : List α := m.entries.map Prod.snd

/-- Whether there are no entries. -/
def isEmpty (m : OrderedMap α) : Bool := m.entries.isEmpty

/-- The value of a name. -/
def get? (m : OrderedMap α) (key : Text) : Option α := m.entries.lookup key

section Write

variable {κ : Type} [DecidableEq κ]

/-- The entries after writing one: in the name's old place, or at the end. -/
def write (key : κ) (value : α) : List (κ × α) → List (κ × α)
  | [] => [(key, value)]
  | (k, v) :: rest => if k = key then (k, value) :: rest else (k, v) :: write key value rest

theorem mem_keys_write {key k : κ} {value : α} {es : List (κ × α)} :
    k ∈ (write key value es).map Prod.fst ↔ k = key ∨ k ∈ es.map Prod.fst := by
  induction es with
  | nil => simp [write]
  | cons e rest ih =>
    obtain ⟨k', v⟩ := e
    by_cases h : k' = key
    · subst h; simp [write]
    · simp only [write, h, if_false, List.map_cons, List.mem_cons, ih]
      exact ⟨fun h => h.elim (fun h => .inr (.inl h)) (fun h => h.imp id .inr),
        fun h => h.elim (fun h => .inr (.inl h)) (fun h => h.imp id .inr)⟩

theorem nodup_write {key : κ} {value : α} {es : List (κ × α)}
    (h : (es.map Prod.fst).Nodup) : ((write key value es).map Prod.fst).Nodup := by
  induction es with
  | nil => simp [write]
  | cons e rest ih =>
    obtain ⟨k, v⟩ := e
    rw [List.map_cons, List.nodup_cons] at h
    by_cases hk : k = key
    · subst hk; simpa [write] using h
    · simp only [write, hk, if_false, List.map_cons, List.nodup_cons]
      refine ⟨fun hm => ?_, ih h.2⟩
      rcases mem_keys_write.mp hm with he | he
      · exact hk he
      · exact h.1 he

end Write

/-- Gives a name a value: in its old place if it has one, else at the end. -/
def insert (m : OrderedMap α) (key : Text) (value : α) : OrderedMap α :=
  ⟨write key value m.entries, nodup_write m.nodup⟩

/-- The map made by writing the entries in order. -/
def ofList (es : List (Text × α)) : OrderedMap α :=
  es.foldl (fun m e => m.insert e.1 e.2) empty

theorem nodup_filter {p : Text × α → Bool} {es : List (Text × α)}
    (h : (es.map Prod.fst).Nodup) : ((es.filter p).map Prod.fst).Nodup :=
  h.sublist (List.filter_sublist.map Prod.fst)

/-- The entries whose name satisfies `p`, in order. -/
def filterKeys (p : Text → Bool) (m : OrderedMap α) : OrderedMap α :=
  ⟨m.entries.filter fun e => p e.1, nodup_filter m.nodup⟩

/-- The same names with other values. -/
def map (f : α → β) (m : OrderedMap α) : OrderedMap β :=
  ⟨m.entries.map fun e => (e.1, f e.2), by
    have : (m.entries.map fun e => (e.1, f e.2)).map Prod.fst = m.entries.map Prod.fst := by
      simp [List.map_map, Function.comp_def]
    rw [this]; exact m.nodup⟩

theorem keys_filterMap_sublist (f : α → Option β) (es : List (Text × α)) :
    ((es.filterMap fun e => (f e.2).map (e.1, ·)).map Prod.fst).Sublist (es.map Prod.fst) := by
  induction es with
  | nil => exact .slnil
  | cons e rest ih =>
    cases h : f e.2 with
    | none => simpa [List.filterMap_cons, h] using ih.cons e.1
    | some b => simpa [List.filterMap_cons, h] using ih.cons_cons e.1

/-- The names whose value has an image, with the images. -/
def filterMap (f : α → Option β) (m : OrderedMap α) : OrderedMap β :=
  ⟨m.entries.filterMap fun e => (f e.2).map (e.1, ·),
    m.nodup.sublist (keys_filterMap_sublist f m.entries)⟩

/-- Whether two maps have the same names, in whatever order. -/
def sameKeys (m : OrderedMap α) (n : OrderedMap β) : Bool :=
  m.keys.all n.keys.contains && n.keys.all m.keys.contains

end OrderedMap
end SqlInterchange
