import Mathlib.Data.Char
import Mathlib.Data.List.Dedup
import Mathlib.Data.List.Induction
import Mathlib.Data.List.Lex
import SqlInterchange.Backend.Registry
import SqlInterchange.Proofs.OrderedMap

/-! # Lookup follows first registration

Types of connections are registered at any time, one of them again and again, and a connection may
be of several.  Which way is found for it depends on the whole history: of the registered types that
it is of, the one that was registered first decides (`IsDeciding`), and of the ways registered for
this type the last counts (`IsLatest`).

A registration is a write to an ordered map, so it changes the order of the types by at most a new
one at the end (`OrderedMap.keys_write`).  Hence the first type in the registry that a connection is
of is the first such in the history (`find?_keys_after`), whatever has been registered again in
between.  What is listed as registered depends on the set of types only, being sorted.
-/
namespace SqlInterchange

variable {β κ : Type}

/-! ## Histories -/

namespace Registration

/-- The type that is registered. -/
def type : Registration β κ → ConnectionType
  | .direct type _ => type
  | .decorating type _ => type

/-- The way that is registered for it. -/
def wrap : Registration β κ → κ → β
  | .direct _ wrap => wrap
  | .decorating _ wrap => wrap

end Registration

namespace Registry

/-- Of the types, the one that is registered first. -/
def IsDeciding (history : List (Registration β κ)) (types : List ConnectionType)
    (type : ConnectionType) : Prop :=
  ∃ before x after, history = before ++ x :: after ∧ x.type = type ∧ type ∈ types ∧
    ∀ y ∈ before, y.type ∉ types

/-- The way that is the last registered for the type. -/
def IsLatest (history : List (Registration β κ)) (type : ConnectionType) (wrap : κ → β) : Prop :=
  ∃ before x after, history = before ++ x :: after ∧ x.type = type ∧ x.wrap = wrap ∧
    ∀ y ∈ after, y.type ≠ type

theorem isDeciding_iff {history : List (Registration β κ)} {types : List ConnectionType}
    {type : ConnectionType} : IsDeciding history types type ↔
      (history.map Registration.type).find? types.contains = some type := by
  rw [List.find?_map, Option.map_eq_some_iff]
  constructor
  · rintro ⟨before, x, after, rfl, rfl, hmem, hbefore⟩
    refine ⟨x, List.find?_eq_some_iff_append.mpr ⟨?_, before, after, rfl, ?_⟩, rfl⟩
    · simpa using hmem
    · simpa using hbefore
  · rintro ⟨x, hfind, rfl⟩
    obtain ⟨hmem, before, after, rfl, hbefore⟩ := List.find?_eq_some_iff_append.mp hfind
    exact ⟨before, x, after, rfl, rfl, by simpa using hmem, by simpa using hbefore⟩

theorem isLatest_iff {history : List (Registration β κ)} {type : ConnectionType} {wrap : κ → β} :
    IsLatest history type wrap ↔
      (history.reverse.find? (·.type == type)).map Registration.wrap = some wrap := by
  rw [Option.map_eq_some_iff]
  constructor
  · rintro ⟨before, x, after, rfl, hx, rfl, hafter⟩
    refine ⟨x, List.find?_eq_some_iff_append.mpr ⟨?_, after.reverse, before.reverse, ?_, ?_⟩, rfl⟩
    · simpa using hx
    · simp
    · simpa using hafter
  · rintro ⟨x, hfind, rfl⟩
    obtain ⟨hx, after, before, hhistory, hafter⟩ := List.find?_eq_some_iff_append.mp hfind
    refine ⟨before.reverse, x, after.reverse, ?_, by simpa using hx, rfl, by simpa using hafter⟩
    simpa using congrArg List.reverse hhistory

/-! ## What a history comes to -/

/-- Either form of a registration is a write. -/
theorem entries_perform (r : Registry β κ) (x : Registration β κ) :
    (r.perform x).entries = OrderedMap.write x.type x.wrap r.entries := by
  cases x <;> rfl

theorem entries_after_concat (history : List (Registration β κ)) (x : Registration β κ) :
    (after (history ++ [x])).entries =
      OrderedMap.write x.type x.wrap (after history).entries := by
  rw [after, List.foldl_append, List.foldl_cons, List.foldl_nil, entries_perform]
  rfl

/-- The types that a way is registered for, in the order of their first registration. -/
def keys (r : Registry β κ) : List ConnectionType := r.entries.map Prod.fst

/-- A registration puts a new type last and leaves the others in their places. -/
theorem keys_after_concat (history : List (Registration β κ)) (x : Registration β κ) :
    (after (history ++ [x])).keys =
      (after history).keys ++ [x.type].filter (· ∉ (after history).keys) := by
  rw [keys, entries_after_concat, OrderedMap.keys_write]
  rfl

/-- The first type of a kind is the same in the registry as in the history. -/
theorem find?_keys_after (history : List (Registration β κ)) (p : ConnectionType → Bool) :
    (after history).keys.find? p = (history.map Registration.type).find? p := by
  induction history using List.reverseRecOn with
  | nil => rfl
  | append_singleton history x ih =>
    rw [keys_after_concat, List.map_append, List.find?_append, List.find?_append, ← ih,
      List.map_singleton]
    by_cases hmem : x.type ∈ (after history).keys
    · cases hfind : (after history).keys.find? p with
      | some type => rfl
      | none =>
        -- the type is there and has not been found, so it is not of the kind
        have hnot : ¬p x.type = true := List.find?_eq_none.mp hfind x.type hmem
        rw [List.find?_singleton, if_neg hnot]
        simp [hmem]
    · simp [hmem]

theorem mem_keys_after {history : List (Registration β κ)} {type : ConnectionType} :
    type ∈ (after history).keys ↔ type ∈ history.map Registration.type := by
  have hfind := congrArg Option.isSome (find?_keys_after history (· == type))
  rw [Bool.eq_iff_iff, List.find?_isSome, List.find?_isSome] at hfind
  simpa using hfind

theorem lookup_after (history : List (Registration β κ)) (type : ConnectionType) :
    (after history).entries.lookup type =
      (history.reverse.find? (·.type == type)).map Registration.wrap := by
  induction history using List.reverseRecOn with
  | nil => rfl
  | append_singleton history x ih =>
    rw [entries_after_concat, OrderedMap.lookup_write, List.reverse_append, List.reverse_singleton,
      List.singleton_append, List.find?_cons, ih]
    by_cases h : type = x.type
    · rw [if_pos h, beq_iff_eq.mpr h.symm]
      rfl
    · rw [if_neg h, beq_false_of_ne (Ne.symm h)]

/-- The way for the first of some types is the way for the first of the types that is among them. -/
theorem find?_eq (r : Registry β κ) (types : List ConnectionType) :
    r.find? types = (r.keys.find? types.contains).bind fun type => r.entries.lookup type := by
  rw [find?, keys]
  generalize r.entries = entries
  induction entries with
  | nil => rfl
  | cons entry entries ih =>
    rw [List.map_cons, List.find?_cons, List.find?_cons]
    cases hcontains : types.contains entry.1 with
    | true =>
      show some entry.2 = (entry :: entries).lookup entry.1
      rw [OrderedMap.lookup_cons_eq_if, if_pos rfl]
    | false =>
      refine ih.trans (Option.bind_congr fun type htype => ?_)
      have hne : type ≠ entry.1 := by
        rintro rfl
        exact Bool.false_ne_true (hcontains.symm.trans (List.find?_some htype))
      rw [OrderedMap.lookup_cons_eq_if, if_neg hne]

/-- The way that is found is the last registered for the type that decides. -/
theorem find?_after_eq_some_iff {history : List (Registration β κ)} {types : List ConnectionType}
    {wrap : κ → β} : (after history).find? types = some wrap ↔
      ∃ type, IsDeciding history types type ∧ IsLatest history type wrap := by
  rw [find?_eq, find?_keys_after, Option.bind_eq_some_iff]
  simp only [isDeciding_iff, isLatest_iff, lookup_after]

/-- No way is found if none is registered for any of the types. -/
theorem find?_after_eq_none_iff {history : List (Registration β κ)} {types : List ConnectionType} :
    (after history).find? types = none ↔ ∀ x ∈ history, x.type ∉ types := by
  rw [find?, Option.map_eq_none_iff, List.find?_eq_none]
  constructor
  · intro h x hx hmem
    obtain ⟨entry, hentry, htype⟩ :=
      List.mem_map.mp (mem_keys_after.mpr (List.mem_map_of_mem hx))
    exact h entry hentry (by simpa [htype] using hmem)
  · intro h entry hentry hcontains
    obtain ⟨x, hx, htype⟩ := List.mem_map.mp (mem_keys_after.mp (List.mem_map_of_mem hentry))
    exact h x hx (by simpa [htype] using hcontains)

/-! ## What is listed as registered -/

theorem notAfter_cons {c d : Char} {cs ds : Text} :
    notAfter (c :: cs) (d :: ds) = true ↔ c < d ∨ c = d ∧ notAfter cs ds = true := by
  simp [notAfter]

/-- The order is that of a dictionary. -/
theorem notAfter_iff {s t : Text} : notAfter s t = true ↔ s = t ∨ List.Lex (· < ·) s t := by
  induction s generalizing t with
  | nil => cases t <;> simp [notAfter]
  | cons c cs ih =>
    cases t with
    | nil => simp [notAfter]
    | cons d ds =>
      rw [notAfter_cons, ih, List.cons_lex_cons_iff, List.cons.injEq]
      tauto

theorem notAfter_trans {s t u : Text} (hst : notAfter s t = true) (htu : notAfter t u = true) :
    notAfter s u = true := by
  rw [notAfter_iff] at hst htu ⊢
  rcases hst with rfl | hst
  · exact htu
  · rcases htu with rfl | htu
    · exact .inr hst
    · exact .inr (@List.lt_trans Char _ _ s t u hst htu)

theorem notAfter_total (s t : Text) : (notAfter s t || notAfter t s) = true := by
  rw [Bool.or_eq_true, notAfter_iff, notAfter_iff]
  rcases trichotomous_of (List.Lex (· < ·)) s t with h | h | h
  · exact .inl (.inr h)
  · exact .inl (.inl h)
  · exact .inr (.inr h)

theorem notAfter_antisymm {s t : Text} (hst : notAfter s t = true) (hts : notAfter t s = true) :
    s = t := by
  rcases notAfter_iff.mp hst with h | hlt
  · exact h
  · rcases notAfter_iff.mp hts with h | hgt
    · exact h.symm
    · exact absurd hgt (asymm hlt)

theorem pairwise_types (r : Registry β κ) : r.types.Pairwise (notAfter · · = true) :=
  @List.pairwise_mergeSort Text notAfter (fun _ _ _ => notAfter_trans) notAfter_total _

/-- One name is listed for each type that is registered. -/
theorem types_perm {history : List (Registration β κ)} {registered : List ConnectionType}
    (h : ∀ type, type ∈ history.map Registration.type ↔ type ∈ registered) :
    (after history).types.Perm (registered.dedup.map ConnectionType.name) := by
  have hkeys : (after history).keys.Perm registered.dedup := by
    refine (List.perm_ext_iff_of_nodup (after history).nodup (List.nodup_dedup _)).mpr ?_
    intro type
    rw [List.mem_dedup, ← h type]
    exact mem_keys_after
  have hnames : (after history).entries.map (·.1.name) =
      (after history).keys.map ConnectionType.name := List.map_map.symm
  rw [types, hnames]
  exact (List.mergeSort_perm ..).trans (hkeys.map _)

/-- What is listed is the same for all histories of the same types. -/
theorem types_congr {history other : List (Registration β κ)}
    (h : ∀ type, type ∈ history.map Registration.type ↔ type ∈ other.map Registration.type) :
    (after history).types = (after other).types :=
  List.Perm.eq_of_pairwise (fun _ _ _ _ => notAfter_antisymm) (pairwise_types _)
    (pairwise_types _) ((types_perm h).trans (types_perm fun _ => Iff.rfl).symm)

/-! ## Handles -/

theorem adapt_after_eq_ok_iff {history : List (Registration β κ)} {handle : Handle β κ} {b : β} :
    (after history).adapt handle = .ok b ↔ handle = .backend b ∨
      ∃ typeName types connection type wrap, handle = .value typeName types connection ∧
        IsDeciding history types type ∧ IsLatest history type wrap ∧ b = wrap connection := by
  cases handle with
  | backend b' => simp [adapt]
  | nothing => simp [adapt]
  | value typeName types connection =>
    have hvalue : (after history).adapt (.value typeName types connection) = .ok b ↔
        ∃ wrap, (after history).find? types = some wrap ∧ b = wrap connection := by
      rw [adapt]
      cases (after history).find? types <;> simp [eq_comm]
    rw [hvalue]
    simp only [find?_after_eq_some_iff]
    constructor
    · rintro ⟨wrap, ⟨type, hdeciding, hlatest⟩, hb⟩
      exact .inr ⟨typeName, types, connection, type, wrap, rfl, hdeciding, hlatest, hb⟩
    · rintro (h | ⟨_, _, _, type, wrap, h, hdeciding, hlatest, hb⟩)
      · cases h
      · cases h
        exact ⟨wrap, ⟨type, hdeciding, hlatest⟩, hb⟩

theorem adapt_after_eq_error_iff {history : List (Registration β κ)} {handle : Handle β κ}
    {e : Error} : (after history).adapt handle = .error e ↔
      (handle = .nothing ∨ ∃ typeName types connection,
        handle = .value typeName types connection ∧ ∀ x ∈ history, x.type ∉ types) ∧
      e = .unusableBackend (typeName handle) (after history).types := by
  cases handle with
  | backend b => simp [adapt]
  | nothing => simp [adapt, eq_comm]
  | value name types connection =>
    have hvalue : (after history).adapt (.value name types connection) = .error e ↔
        (after history).find? types = none ∧
          e = .unusableBackend name (after history).types := by
      rw [adapt]
      cases (after history).find? types with
      | some wrap => simp
      | none =>
        rw [Except.error.injEq]
        exact ⟨fun h => ⟨rfl, h.symm⟩, fun h => h.2.symm⟩
    rw [hvalue, find?_after_eq_none_iff]
    constructor
    · rintro ⟨hforeign, he⟩
      exact ⟨.inr ⟨name, types, connection, rfl, hforeign⟩, he⟩
    · rintro ⟨h | ⟨_, _, _, h, hforeign⟩, he⟩
      · cases h
      · cases h
        exact ⟨hforeign, he⟩

/-- The form of the registrations makes no difference. -/
theorem after_congr {history other : List (Registration β κ)}
    (h : history.map (fun x => (x.type, x.wrap)) = other.map fun x => (x.type, x.wrap)) :
    after history = after other := by
  have hafter : ∀ history : List (Registration β κ), after history =
      (history.map fun x => (x.type, x.wrap)).foldl (fun r x => r.register x.1 x.2) empty := by
    intro history
    rw [List.foldl_map, after]
    congr 1
    funext r x
    cases x <;> rfl
  rw [hafter, hafter, h]

/-- **Main.**  Every registry takes a backend as it is, so one that has been made of a connection,
too.  A backend is made of a connection in the way that was registered last for that type which, of
those that the connection is of, was registered first.  An error says that there is no connection,
or none of a registered type.  What is listed as registered is in order, has one name for each type,
and depends on what the types are only, not on when and how often they were registered.  Either form
of registration does what the other does. -/
theorem lookup_follows_first_registration (history : List (Registration β κ)) :
    (∀ (r : Registry β κ) (b : β), r.adapt (.backend b) = .ok b) ∧
    (∀ (handle : Handle β κ) (b : β), (after history).adapt handle = .ok b ↔
      handle = .backend b ∨
      ∃ typeName types connection type wrap, handle = .value typeName types connection ∧
        IsDeciding history types type ∧ IsLatest history type wrap ∧ b = wrap connection) ∧
    (∀ (handle : Handle β κ) (e : Error), (after history).adapt handle = .error e ↔
      (handle = .nothing ∨ ∃ typeName types connection,
        handle = .value typeName types connection ∧ ∀ x ∈ history, x.type ∉ types) ∧
      e = .unusableBackend (typeName handle) (after history).types) ∧
    (after history).types.Pairwise (fun s t => s = t ∨ List.Lex (· < ·) s t) ∧
    (after history).types.Perm
      ((history.map Registration.type).dedup.map ConnectionType.name) ∧
    (∀ other : List (Registration β κ),
      (∀ type, type ∈ history.map Registration.type ↔ type ∈ other.map Registration.type) →
      (after history).types = (after other).types) ∧
    ∀ other : List (Registration β κ),
      history.map (fun x => (x.type, x.wrap)) = other.map (fun x => (x.type, x.wrap)) →
      after history = after other :=
  ⟨fun _ _ => rfl, fun _ _ => adapt_after_eq_ok_iff, fun _ _ => adapt_after_eq_error_iff,
    (pairwise_types _).imp notAfter_iff.mp, types_perm fun _ => Iff.rfl, fun _ => types_congr,
    fun _ => after_congr⟩

/-- A connection of two types, the first registered of which is registered again. -/
theorem first_type_decides_and_last_way_counts :
    let first : ConnectionType := ⟨"driver.Connection".toList, 0⟩
    let second : ConnectionType := ⟨"base.Connection".toList, 1⟩
    let history : List (Registration Nat Nat) :=
      [.direct first (· + 1), .decorating second (· + 2), .decorating first (· + 3)]
    (after history).adapt (.value "sub.Connection".toList [second, first] 10) = .ok 13 ∧
    (after history).types = (after history.reverse).types ∧
    after history = after [.decorating first (· + 1), .direct second (· + 2),
      .direct first (· + 3)] := by
  intro first second history
  obtain ⟨_, hok, _, _, _, htypes, hforms⟩ := lookup_follows_first_registration history
  refine ⟨(hok _ _).mpr (.inr ⟨_, _, _, first, (· + 3), rfl, ?_, ?_, rfl⟩), ?_, ?_⟩
  · exact ⟨[], .direct first (· + 1), _, rfl, rfl, by simp, by simp⟩
  · exact ⟨[.direct first (· + 1), .decorating second (· + 2)], .decorating first (· + 3), [], rfl,
      rfl, rfl, by simp⟩
  · exact htypes history.reverse (by simp)
  · exact hforms _ rfl

end Registry
end SqlInterchange
