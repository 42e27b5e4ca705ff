import SqlInterchange.Compile
import SqlInterchange.Proofs.Except
import SqlInterchange.Proofs.OrderedMap
import SqlInterchange.Settings

/-! # Settings stay sound

Settings are made of fields alone, or of other settings by changing some fields.  However often
that is done, and whatever values the fields have, all settings that come to be hold choices that
go together, and a making that fails leaves them as they are.

A change after another is one change, with the fields of the first updated by those of the second
(`Settings.merged_merged`).  The two are checked at different times: what the first comes to is
checked, and its tables to take are made a list, before the second is made.  That makes no
difference, since

* fields without a repeated name settle each choice apart from the others, in whatever order they
  are made (`Choices.chooseAll_eq`), so that two changes settle the choices as the update does
  (`Choices.settle_settle`);
* what has passed the checks is what was chosen but for the filter, and the filter as a list
  passes them in the same way (`Options.ofChoices_settle_toChoices`).

So all settings could have been made at once, of fields alone (`Making.IsMadeAtOnce`).
-/
namespace SqlInterchange

/-- One option chosen. -/
def only (option : Text) (value : Value) (name : Text) : Option Value :=
  if name = option then some value else none

/-- The first of the fields comes last, if no other has its name. -/
theorem lookup_or_only {option : Text} {fields : List (Text × Value)}
    (h : option ∉ fields.map Prod.fst) (value : Value) (name : Text) :
    (fields.lookup name).or (only option value name) = ((option, value) :: fields).lookup name := by
  rw [OrderedMap.lookup_cons_eq_if]
  by_cases hname : name = option
  · rw [hname, OrderedMap.lookup_eq_none h, only, if_pos rfl]
    rfl
  · rw [only, if_neg hname, if_neg hname, Option.or_none]

/-! ## What choices come to -/

namespace Choices

/-- The names of the options. -/
def names : List Text :=
  (["data_only", "structure_only", "table_filter", "batch_insert_size"] ++ callbackNames).map
    String.toList

/-- The choices with some of them made anew. -/
def settle (c : Choices) (chosen : Text → Option Value) : Choices where
  dataOnly := (chosen "data_only".toList).getD c.dataOnly
  structureOnly := (chosen "structure_only".toList).getD c.structureOnly
  tableFilter := (chosen "table_filter".toList).getD c.tableFilter
  batchInsertSize := (chosen "batch_insert_size".toList).getD c.batchInsertSize

theorem settle_settle (c : Choices) (f g : Text → Option Value) :
    (c.settle f).settle g = c.settle fun name => (g name).or (f name) := by
  simp only [settle, Option.getD_or]

theorem choose?_eq (c : Choices) (option : Text) (value : Value) :
    c.choose? option value = if option ∈ names then some (c.settle (only option value)) else none := by
  by_cases h : option ∈ names
  · rw [if_pos h]
    simp only [names, callbackNames, List.cons_append, List.nil_append, List.map_cons, List.map_nil,
      List.mem_cons, List.not_mem_nil, or_false] at h
    rcases h with rfl | rfl | rfl | rfl | rfl | rfl | rfl <;> rfl
  · rw [if_neg h]
    simp only [names, List.map_append, List.mem_append, List.map_cons, List.map_nil, List.mem_cons,
      List.not_mem_nil, or_false, not_or] at h
    obtain ⟨⟨hdata, hstructure, hfilter, hsize⟩, hcallback⟩ := h
    rw [choose?, if_neg hdata, if_neg hstructure, if_neg hfilter, if_neg hsize,
      if_neg (mt List.contains_iff_mem.mp hcallback)]

/-- Each choice of fields counts, unless a name is none of an option: the first such is refused. -/
theorem chooseAll_eq (c : Choices) {fields : List (Text × Value)}
    (h : (fields.map Prod.fst).Nodup) : c.chooseAll fields =
      match (fields.map Prod.fst).find? (· ∉ names) with
      | some name => .error (.unknown name)
      | none => .ok (c.settle fun name => fields.lookup name) := by
  induction fields generalizing c with
  | nil => rfl
  | cons field fields ih =>
    obtain ⟨option, value⟩ := field
    rw [List.map_cons, List.nodup_cons] at h
    rw [chooseAll, choose?_eq, List.map_cons, List.find?_cons]
    by_cases hname : option ∈ names
    · have hsettle : (c.settle (only option value)).settle (fields.lookup ·) =
          c.settle (((option, value) :: fields).lookup ·) := by
        rw [settle_settle, funext (lookup_or_only h.1 value)]
      rw [if_pos hname, ← hsettle]
      simp only [hname, not_true_eq_false, decide_false]
      exact ih _ h.2
    · simp [hname]

end Choices

namespace Audience

/-- The audience with some of it chosen anew. -/
def settle (a : Audience) (chosen : Text → Option Value) : Audience where
  success := (chosen "success_callback".toList).getD a.success
  error := (chosen "error_callback".toList).getD a.error
  progress := (chosen "progress_callback".toList).getD a.progress

theorem settle_settle (a : Audience) (f g : Text → Option Value) :
    (a.settle f).settle g = a.settle fun name => (g name).or (f name) := by
  simp only [settle, Option.getD_or]

theorem choose_eq (a : Audience) (option : Text) (value : Value) :
    a.choose option value = a.settle (only option value) := by
  by_cases h : option ∈ Choices.callbackNames.map String.toList
  · simp only [Choices.callbackNames, List.map_cons, List.map_nil, List.mem_cons,
      List.not_mem_nil, or_false] at h
    rcases h with rfl | rfl | rfl <;> rfl
  · simp only [Choices.callbackNames, List.map_cons, List.map_nil, List.mem_cons,
      List.not_mem_nil, or_false, not_or] at h
    obtain ⟨hsuccess, herror, hprogress⟩ := h
    rw [choose, if_neg hsuccess, if_neg herror, if_neg hprogress, settle, only,
      if_neg (Ne.symm hsuccess), only, if_neg (Ne.symm herror), only, if_neg (Ne.symm hprogress)]
    rfl

theorem chooseAll_eq (a : Audience) {fields : List (Text × Value)}
    (h : (fields.map Prod.fst).Nodup) : a.chooseAll fields = a.settle (fields.lookup ·) := by
  induction fields generalizing a with
  | nil => rfl
  | cons field fields ih =>
    obtain ⟨option, value⟩ := field
    rw [List.map_cons, List.nodup_cons] at h
    rw [chooseAll, List.foldl_cons, choose_eq]
    show chooseAll _ fields = _
    rw [ih _ h.2, settle_settle, funext (lookup_or_only h.1 value)]

end Audience

/-! ## Checks -/

namespace Options

theorem checkBatchInsertSize_eq_ok {v : Value} {size : { n : Int // 1 ≤ n }}
    (h : checkBatchInsertSize v = .ok size) : v = .int size := by
  rw [checkBatchInsertSize.eq_def] at h
  split at h
  · split at h
    · cases h
      rfl
    · cases h
  · cases h

/-- What is checked of choices, and what comes of them. -/
theorem ofChoices_eq_ok_iff {c : Choices} {o : Options} : ofChoices c = .ok o ↔
    c.batchInsertSize = .int o.batchInsertSize ∧ c.dataOnly = o.dataOnly ∧
      c.structureOnly = o.structureOnly ∧ checkTableFilter c.tableFilter = .ok o.tableFilter? := by
  constructor
  · intro h
    obtain ⟨⟨size, hone⟩, hsize, h⟩ := exists_of_bind_eq_ok h
    simp only at h
    split at h
    · cases h
    · obtain ⟨filter?, hfilter, h⟩ := exists_of_bind_eq_ok h
      cases h
      exact ⟨checkBatchInsertSize_eq_ok hsize, rfl, rfl, hfilter⟩
  · rintro ⟨hsize, hdata, hstructure, hfilter⟩
    have hcheck : checkBatchInsertSize c.batchInsertSize =
        .ok ⟨o.batchInsertSize, o.one_le_batchInsertSize⟩ := by
      rw [hsize, checkBatchInsertSize, dif_pos o.one_le_batchInsertSize]
    have hnot : ¬(c.dataOnly.isTruthy = true ∧ c.structureOnly.isTruthy = true) := by
      rw [hdata, hstructure]
      exact o.not_both
    obtain ⟨dataOnly, structureOnly, tableFilter, batchInsertSize⟩ := c
    obtain rfl : dataOnly = o.dataOnly := hdata
    obtain rfl : structureOnly = o.structureOnly := hstructure
    simp only [ofChoices, hcheck, hfilter, bind, Except.bind]
    rw [dif_neg hnot]

/-- Of the filter only what it is taken apart into counts. -/
theorem ofChoices_congr {c c' : Choices} (hsize : c.batchInsertSize = c'.batchInsertSize)
    (hdata : c.dataOnly = c'.dataOnly) (hstructure : c.structureOnly = c'.structureOnly)
    (hfilter : checkTableFilter c.tableFilter = checkTableFilter c'.tableFilter) :
    ofChoices c = ofChoices c' := by
  obtain ⟨dataOnly, structureOnly, tableFilter, batchInsertSize⟩ := c
  obtain rfl : dataOnly = c'.dataOnly := hdata
  obtain rfl : structureOnly = c'.structureOnly := hstructure
  obtain rfl : batchInsertSize = c'.batchInsertSize := hsize
  simp only [ofChoices, hfilter]

/-- Options hold a filter that has been taken apart, and again it is the same. -/
theorem checkTableFilter_toChoices (o : Options) :
    checkTableFilter o.toChoices.tableFilter = .ok o.tableFilter? := by
  show checkTableFilter ((o.tableFilter?.map .list).getD .null) = _
  cases o.tableFilter? <;> rfl

/-- Choosing anew from options is choosing anew from the choices that they come of. -/
theorem ofChoices_settle_toChoices {c : Choices} {o : Options} (h : ofChoices c = .ok o)
    (chosen : Text → Option Value) :
    ofChoices (o.toChoices.settle chosen) = ofChoices (c.settle chosen) := by
  obtain ⟨hsize, hdata, hstructure, hfilter⟩ := ofChoices_eq_ok_iff.mp h
  refine ofChoices_congr ?_ ?_ ?_ ?_
  · rw [Choices.settle, Choices.settle, hsize]
    rfl
  · rw [Choices.settle, Choices.settle, hdata]
    rfl
  · rw [Choices.settle, Choices.settle, hstructure]
    rfl
  · rw [Choices.settle, Choices.settle]
    cases chosen "table_filter".toList with
    | some v => rfl
    | none => exact (checkTableFilter_toChoices o).trans hfilter.symm

theorem merged_eq (o : Options) (fields : OrderedMap Value) : o.merged fields.entries =
    match fields.keys.find? (· ∉ Choices.names) with
    | some name => .error (.unknown name)
    | none => ofChoices (o.toChoices.settle fields.get?) := by
  rw [merged, Choices.chooseAll_eq _ fields.nodup, OrderedMap.keys]
  cases (fields.entries.map Prod.fst).find? (· ∉ Choices.names) <;> rfl

end Options

/-! ## Choices that go together -/

namespace Choices

/-- Choices that pass the checks: a batch holds at least one row, not both halves are left out, and
the tables to take, if there are any to say, can be taken apart. -/
structure Sound (c : Choices) : Prop where
  size : ∃ n, c.batchInsertSize = .int n ∧ 1 ≤ n
  halves : ¬(c.dataOnly.isTruthy = true ∧ c.structureOnly.isTruthy = true)
  filter : c.tableFilter = .null ∨ ∃ items, c.tableFilter.items? = some items

/-- The choices with the tables to take as a list. -/
def listed (c : Choices) : Choices :=
  { c with tableFilter := (c.tableFilter.items?.map .list).getD c.tableFilter }

end Choices

namespace Options

/-- A filter that can be taken apart is held as the list of its items. -/
theorem checkTableFilter_eq_ok_iff {v : Value} {filter? : Option (List Value)} :
    checkTableFilter v = .ok filter? ↔ (v = .null ∨ ∃ items, v.items? = some items) ∧
      (v.items?.map .list).getD v = (filter?.map .list).getD .null := by
  cases filter? <;> cases v <;> simp [checkTableFilter, Value.items?]

/-- The checks let pass what is sound, and change only the form of the filter. -/
theorem ofChoices_eq_ok_iff_sound {c : Choices} {o : Options} :
    ofChoices c = .ok o ↔ c.Sound ∧ o.toChoices = c.listed := by
  rw [ofChoices_eq_ok_iff, checkTableFilter_eq_ok_iff]
  constructor
  · rintro ⟨hsize, hdata, hstructure, hitems, hfilter⟩
    constructor
    · refine ⟨⟨_, hsize, o.one_le_batchInsertSize⟩, ?_, hitems⟩
      rw [hdata, hstructure]
      exact o.not_both
    · rw [toChoices, Choices.listed, hsize, hdata, hstructure, ← hfilter]
  · rintro ⟨hsound, h⟩
    simp only [toChoices, Choices.listed, Choices.mk.injEq] at h
    obtain ⟨hdata, hstructure, hfilter, hsize⟩ := h
    exact ⟨hsize.symm, hdata.symm, hstructure.symm, hsound.filter, hfilter.symm⟩

theorem sound_toChoices (o : Options) : o.toChoices.Sound :=
  (ofChoices_eq_ok_iff_sound.mp
    (ofChoices_eq_ok_iff.mpr ⟨rfl, rfl, rfl, checkTableFilter_toChoices o⟩)).1

end Options

/-! ## Settings -/

namespace Settings

/-- Settings that hold choices that go together, the tables to take as a list, and leave something
to take. -/
structure IsSound (s : Settings) : Prop where
  choices : s.options.toChoices.Sound
  filter : s.options.toChoices.tableFilter = .null ∨
    ∃ items, s.options.toChoices.tableFilter = .list items
  scope : (Scope.ofOptions s.options).includeSchema = true ∨
    (Scope.ofOptions s.options).includeChanges = true

theorem isSound (s : Settings) : s.IsSound := by
  have hsound := Options.sound_toChoices s.options
  refine ⟨hsound, ?_, ?_⟩
  · rw [Options.toChoices]
    cases s.options.tableFilter? with
    | none => exact .inl rfl
    | some items => exact .inr ⟨items, rfl⟩
  · have hnot : ¬(s.options.isDataOnly = true ∧ s.options.isStructureOnly = true) := hsound.halves
    simp only [Scope.ofOptions, Bool.not_eq_true']
    rcases Bool.eq_false_or_eq_true s.options.isDataOnly with hdata | hdata
    · exact .inr (Bool.eq_false_iff.mpr fun hstructure => hnot ⟨hdata, hstructure⟩)
    · exact .inl hdata

/-- The settings of a caller who sets nothing. -/
def standard : Settings := ⟨.standard, .nobody⟩

theorem ofFields_eq (fields : List (Text × Value)) : ofFields fields = standard.merged fields := rfl

theorem merged_eq (s : Settings) (fields : OrderedMap Value) : s.merged fields.entries =
    match fields.keys.find? (· ∉ Choices.names) with
    | some name => .error (.unknown name)
    | none => (Options.ofChoices (s.options.toChoices.settle fields.get?)).map
        (⟨·, s.audience.settle fields.get?⟩) := by
  rw [merged, Options.merged_eq, Audience.chooseAll_eq _ fields.nodup]
  cases fields.keys.find? (· ∉ Choices.names) with
  | some name => rfl
  | none =>
    show (Options.ofChoices _ >>= _) = _
    cases Options.ofChoices (s.options.toChoices.settle fields.get?) <;> rfl

theorem merged_eq_ok {s s' : Settings} {fields : OrderedMap Value} :
    s.merged fields.entries = .ok s' ↔ fields.keys.find? (· ∉ Choices.names) = none ∧
      Options.ofChoices (s.options.toChoices.settle fields.get?) = .ok s'.options ∧
      s'.audience = s.audience.settle fields.get? := by
  obtain ⟨options, audience⟩ := s'
  rw [merged_eq]
  cases fields.keys.find? (· ∉ Choices.names) with
  | some name => simp
  | none =>
    cases Options.ofChoices (s.options.toChoices.settle fields.get?) with
    | error e => simp [Except.map]
    | ok o => simp [Except.map, eq_comm]

/-- What a change of settings comes to: the fields are all of options, the choices go together, and
the settings hold them, the tables to take as a list. -/
structure ComesTo (s : Settings) (fields : OrderedMap Value) (s' : Settings) : Prop where
  names : ∀ name ∈ fields.keys, name ∈ Choices.names
  sound : (s.options.toChoices.settle fields.get?).Sound
  options : s'.options.toChoices = (s.options.toChoices.settle fields.get?).listed
  audience : s'.audience = s.audience.settle fields.get?

theorem merged_eq_ok_iff {s s' : Settings} {fields : OrderedMap Value} :
    s.merged fields.entries = .ok s' ↔ s.ComesTo fields s' := by
  rw [merged_eq_ok, Options.ofChoices_eq_ok_iff_sound]
  constructor
  · rintro ⟨hnames, ⟨hsound, hoptions⟩, haudience⟩
    exact ⟨by simpa using hnames, hsound, hoptions, haudience⟩
  · rintro ⟨hnames, hsound, hoptions, haudience⟩
    exact ⟨by simpa using hnames, ⟨hsound, hoptions⟩, haudience⟩

/-! ## One change after another -/

/-- Of two updates the first name that is of no option is the other's, if the one has none. -/
theorem find?_keys_updated {fields : OrderedMap Value}
    (h : fields.keys.find? (· ∉ Choices.names) = none) (more : OrderedMap Value) :
    (fields.updated more).keys.find? (· ∉ Choices.names) =
      more.keys.find? (· ∉ Choices.names) := by
  have hall : ∀ name ∈ fields.keys, name ∈ Choices.names := by simpa using List.find?_eq_none.mp h
  rw [OrderedMap.keys_updated, List.find?_append, h, Option.none_or, List.find?_filter]
  congr 1
  funext name
  by_cases hname : name ∈ Choices.names
  · simp [hname]
  · simp [hname, mt (hall name) hname]

/-- A change after another is the change to the other updated. -/
theorem merged_merged {s s' : Settings} {fields : OrderedMap Value}
    (h : s.merged fields.entries = .ok s') (more : OrderedMap Value) :
    s'.merged more.entries = s.merged (fields.updated more).entries := by
  obtain ⟨hnames, hoptions, haudience⟩ := merged_eq_ok.mp h
  have hget : (fields.updated more).get? = fun name => (more.get? name).or (fields.get? name) :=
    funext (OrderedMap.get?_updated fields more)
  rw [merged_eq, merged_eq, find?_keys_updated hnames,
    Options.ofChoices_settle_toChoices hoptions, haudience, hget, Choices.settle_settle,
    Audience.settle_settle]

end Settings

/-! ## Any number of changes -/

/-- Settings are made with fields chosen, or of those that were made at a place before. -/
inductive Making where
  /-- The fields that are not chosen are standard. -/
  | anew (fields : OrderedMap Value)
  /-- The fields that are not chosen are kept. -/
  | merging (place : Nat) (fields : OrderedMap Value)

namespace Making

/-- What a making comes to; nothing if there are no settings at its place. -/
def outcome? (held : List Settings) : Making → Option (Except OptionError Settings)
  | .anew fields => some (Settings.ofFields fields.entries)
  | .merging place fields => held[place]?.map (·.merged fields.entries)

/-- The settings after a making. -/
def after (held : List Settings) (making : Making) : List Settings :=
  match making.outcome? held with
  | some (.ok s) => held ++ [s]
  | _ => held

/-- All settings that some makings, one after another, come to. -/
def made (makings : List Making) : List Settings := makings.foldl after []

theorem made_append (makings more : List Making) :
    made (makings ++ more) = more.foldl after (made makings) :=
  List.foldl_append

theorem after_of_error {held : List Settings} {making : Making} {e : OptionError}
    (h : making.outcome? held = some (.error e)) : after held making = held := by
  rw [after, h]

theorem mem_after {held : List Settings} {making : Making} {s : Settings}
    (h : s ∈ after held making) : s ∈ held ∨ making.outcome? held = some (.ok s) := by
  rw [after] at h
  split at h
  · next s' hs' =>
    rcases List.mem_append.mp h with h | h
    · exact .inl h
    · exact .inr (List.mem_singleton.mp h ▸ hs')
  · exact .inl h

/-- A making leaves the settings that are there as they are. -/
theorem prefix_after (held : List Settings) (making : Making) : held <+: after held making := by
  rw [after]
  split
  · exact List.prefix_append ..
  · exact List.prefix_rfl

theorem prefix_foldl_after (held : List Settings) (makings : List Making) :
    held <+: makings.foldl after held := by
  induction makings generalizing held with
  | nil => exact List.prefix_rfl
  | cons making makings ih => exact (prefix_after held making).trans (ih _)

/-- Settings that can be made at once, of fields alone. -/
def IsMadeAtOnce (s : Settings) : Prop :=
  ∃ fields : OrderedMap Value, Settings.ofFields fields.entries = .ok s

/-- Whatever comes of a making could be made at once, if what it is made of could. -/
theorem isMadeAtOnce_of_outcome? {held : List Settings} (hheld : ∀ s ∈ held, IsMadeAtOnce s)
    {making : Making} {s : Settings} (h : making.outcome? held = some (.ok s)) :
    IsMadeAtOnce s := by
  cases making with
  | anew fields => exact ⟨fields, Option.some.inj h⟩
  | merging place more =>
    obtain ⟨s₀, hs₀, hmerged⟩ := Option.map_eq_some_iff.mp h
    obtain ⟨fields, hfields⟩ := hheld s₀ (List.mem_of_getElem? hs₀)
    refine ⟨fields.updated more, ?_⟩
    rw [Settings.ofFields_eq] at hfields ⊢
    rw [← Settings.merged_merged hfields more]
    exact hmerged

theorem isMadeAtOnce_of_mem_foldl {held : List Settings} (hheld : ∀ s ∈ held, IsMadeAtOnce s)
    (makings : List Making) : ∀ s ∈ makings.foldl after held, IsMadeAtOnce s := by
  induction makings generalizing held with
  | nil => exact hheld
  | cons making makings ih =>
    refine ih fun s hs => ?_
    rcases mem_after hs with hs | hs
    · exact hheld s hs
    · exact isMadeAtOnce_of_outcome? hheld hs

/-- **Main.**  All settings that some makings come to are sound, and could have been made at once.
Settings that are there stay, whatever is made next, and of a making that fails come no others.
Fields make settings, and change them, exactly if they are of options and the choices that they come
to go together; and a change after another is one change, with the fields of both. -/
theorem settings_stay_sound (makings : List Making) :
    (∀ s ∈ made makings, s.IsSound ∧ IsMadeAtOnce s) ∧
    (∀ more, made makings <+: made (makings ++ more)) ∧
    (∀ making e, making.outcome? (made makings) = some (.error e) →
      made (makings ++ [making]) = made makings) ∧
    (∀ (fields : OrderedMap Value) (s : Settings),
      Settings.ofFields fields.entries = .ok s ↔ Settings.standard.ComesTo fields s) ∧
    ∀ (s s' : Settings) (fields : OrderedMap Value),
      (s.merged fields.entries = .ok s' ↔ s.ComesTo fields s') ∧
      (s.merged fields.entries = .ok s' → ∀ more : OrderedMap Value,
        s'.merged more.entries = s.merged (fields.updated more).entries) := by
  refine ⟨?_, ?_, ?_, ?_, ?_⟩
  · intro s hs
    exact ⟨s.isSound, isMadeAtOnce_of_mem_foldl (by simp) makings s hs⟩
  · intro more
    rw [made_append]
    exact prefix_foldl_after ..
  · intro making e h
    rw [made_append, List.foldl_cons, List.foldl_nil, after_of_error h]
  · intro fields s
    rw [Settings.ofFields_eq]
    exact Settings.merged_eq_ok_iff
  · intro s s' fields
    exact ⟨Settings.merged_eq_ok_iff, fun h => Settings.merged_merged h⟩

/-- Settings that take the tables `a` and `b` are not changed by a batch of a truth value, and take
the same tables if only rows are left out. -/
theorem two_tables_stay_sound :
    let makings := [anew (.ofList [("table_filter".toList, .text "ab".toList)])]
    let failing := merging 0 (.ofList [("batch_insert_size".toList, .bool true)])
    made (makings ++ [failing]) = made makings ∧
    ∃ s s', made makings = [s] ∧
      s.merged [("structure_only".toList, .int 1)] = .ok s' ∧
      s'.options.tableFilter? = some [.text ['a'], .text ['b']] ∧
      ∀ more : OrderedMap Value, s'.merged more.entries =
        s.merged ((OrderedMap.ofList [("structure_only".toList, .int 1)]).updated more).entries := by
  have hall := settings_stay_sound
    [anew (.ofList [("table_filter".toList, .text "ab".toList)])]
  refine ⟨hall.2.2.1 (merging 0 (.ofList [("batch_insert_size".toList, .bool true)])) _ rfl, ?_⟩
  refine ⟨_, _, rfl, rfl, rfl, ?_⟩
  exact (hall.2.2.2.2 _ _ (.ofList [("structure_only".toList, .int 1)])).2 rfl

end Making
end SqlInterchange
