import ArchInstaller.Config.Sample
import ArchInstaller.Config.ValuePrecedence
import ArchInstaller.Verify.ExportImport

/-! # Sources win in order

The value that is built for a setting is the TUI's, else the environment's, else the file's, unless
the TUI's choice is `==` to an inherited value of another type, which then stays. -/

namespace ArchInstaller

open PyData PyText

/-! ## Equal values are read alike -/

theorem readText_eq_of_eq {value value' : PyValue} (h : value.eq value') :
    readText value = readText value' := by
  cases value <;> cases value' <;>
    simp_all [PyValue.eq, PyValue.eqScalar, PyValue.text, PyValue.number, readText]

theorem ReadsText.eq_of_eq {value value' : PyValue} {text text' : String} (heq : value.eq value')
    (h : ReadsText value text) (h' : ReadsText value' text') : text = text' := by
  rw [← readText_eq_some_iff] at h h'
  rw [← readText_eq_of_eq heq, h] at h'
  exact Option.some.inj h'

theorem leaf_of_viewOf {value value' : PyValue} (h : viewOf value [] = some (.leaf value')) :
    value = value' := (viewOf_nil_eq_leaf_iff.mp h).1

theorem lookup_of_eqEntries {entries entries' : List (String × PyValue)} {name : String}
    {value : PyValue} (h : PyValue.eqEntries entries entries')
    (hlookup : entries.lookup name = some value) :
    ∃ value', entries'.lookup name = some value' ∧ value.eq value' := by
  induction entries with
  | nil => cases hlookup
  | cons entry entries ih =>
    obtain ⟨name', value₁⟩ := entry
    rw [PyValue.eqEntries, Bool.and_eq_true] at h
    rw [List.lookup_cons] at hlookup
    split at hlookup
    · next hname =>
      obtain rfl : name = name' := by simpa using hname
      cases hlookup
      cases hlookup' : entries'.lookup name with
      | none => simp [hlookup'] at h
      | some value' => exact ⟨value', rfl, by simpa [hlookup'] using h.1⟩
    · exact ih h.2 hlookup

theorem forall₂_eq_of_eqItems {α : Type} {reads : PyValue → α → Prop} {reads' : PyValue → α → Prop}
    {items items' : List PyValue} {xs ys : List α} (heq : PyValue.eqItems items items')
    (hread : ∀ value ∈ items, ∀ value' x y, value.eq value' → reads value x → reads' value' y → x = y)
    (h : List.Forall₂ reads items xs) (h' : List.Forall₂ reads' items' ys) : xs = ys := by
  induction h generalizing items' ys with
  | nil =>
    cases h' with
    | nil => rfl
    | cons => cases heq
  | cons hfirst _ ih =>
    cases h' with
    | nil => cases heq
    | cons hfirst' hrest' =>
      rw [PyValue.eqItems, Bool.and_eq_true] at heq
      rw [List.forall_mem_cons] at hread
      rw [hread.1 _ _ _ heq.1 hfirst hfirst', ih heq.2 hread.2 hrest']

mutual

/-- **Values that are `==` are read alike**, where both are accepted. -/
theorem FieldType.eq_of_eq : ∀ (type : FieldType) {value value' : PyValue} {x y : type.Value},
    value.eq value' → type.Fits (viewOf value) → (∀ path, type.absent (viewOf value) path = []) →
      type.Denotes (viewOf value) x → type.Denotes (viewOf value') y → x = y
  | .str, _, _, _, _, heq, _, _, ⟨_, hleaf, h⟩, ⟨_, hleaf', h'⟩ => by
    obtain rfl := leaf_of_viewOf hleaf
    obtain rfl := leaf_of_viewOf hleaf'
    exact h.eq_of_eq heq h'
  | .int, _, _, _, _, heq, _, _, h, h' => by
    obtain rfl := leaf_of_viewOf h
    obtain rfl := leaf_of_viewOf h'
    simpa [PyValue.eq, PyValue.eqScalar, PyValue.text, PyValue.number, PyFloat.eq] using heq
  | .bool, _, _, x, y, heq, _, _, h, h' => by
    obtain rfl := leaf_of_viewOf h
    obtain rfl := leaf_of_viewOf h'
    cases x <;> cases y <;>
      simp [PyValue.eq, PyValue.eqScalar, PyValue.text, PyValue.number, PyFloat.eq] at heq ⊢
  | .enum type, _, _, _, _, heq, _, _, ⟨_, hleaf, h⟩, ⟨_, hleaf', h'⟩ => by
    obtain rfl := leaf_of_viewOf hleaf
    obtain rfl := leaf_of_viewOf hleaf'
    exact type.injective _ _ (h.eq_of_eq heq h')
  | .tuple item, value, value', x, y, heq, hfits, hwhole, ⟨_, hleaf, h⟩, ⟨_, hleaf', h'⟩ => by
    obtain rfl := leaf_of_viewOf hleaf
    obtain rfl := leaf_of_viewOf hleaf'
    rcases h with ⟨rfl, rfl⟩ | ⟨items, hitems, h⟩
    · rcases h' with ⟨-, rfl⟩ | ⟨items', hitems', h'⟩
      · rfl
      · cases value' <;> cases hitems' <;> cases heq
    · rcases h' with ⟨rfl, rfl⟩ | ⟨items', hitems', h'⟩
      · cases value <;> cases hitems <;> cases heq
      · have hitemsEq : PyValue.eqItems items items' := by
          cases value <;> cases hitems <;> cases value' <;> cases hitems' <;> first | exact heq | cases heq
        have hfits' := (isLeaf_viewOf_iff.mp hfits).2
        rw [hitems] at hfits'
        have hnone : value ≠ .none := by
          rintro rfl
          cases hitems
        refine forall₂_eq_of_eqItems hitemsEq (fun value₁ hmem value₂ x y heq h h' => ?_) h h'
        refine item.eq_of_eq heq ?_ (fun path => ?_) h h'
        · rcases hfits' with rfl | ⟨_, ⟨⟩, hall⟩
          · exact absurd rfl hnone
          · exact hall value₁ hmem
        · have hnil := hwhole ""
          rw [FieldType.absent, hleaf] at hnil
          simp only [hitems, List.flatMap_eq_nil_iff] at hnil
          obtain ⟨index, hindex⟩ := List.mem_iff_getElem?.mp hmem
          exact item.absent_eq_nil_of
            (hnil (value₁, index) (List.mem_zipIdx_iff_getElem?.mpr hindex))
  | .optional inner, value, value', x, y, heq, hfits, hwhole, h, h' => by
    have none_iff : value = .none ↔ value' = .none := by
      constructor
      · rintro rfl
        cases value' <;> first | rfl | cases heq
      · rintro rfl
        cases value <;> first | rfl | cases heq
    have root_iff : ∀ value, viewOf value [] = some (.leaf .none) ↔ value = .none := by
      intro value
      rw [viewOf_nil_eq_leaf_iff]
      exact ⟨fun h => h.1, by rintro rfl; exact ⟨rfl, nofun⟩⟩
    rw [FieldType.Denotes, ne_eq, root_iff] at h h'
    rcases h with ⟨hnone, rfl⟩ | ⟨hsome, x, rfl, h⟩
    · rcases h' with ⟨-, rfl⟩ | ⟨hsome', -⟩
      · rfl
      · exact absurd (none_iff.mp hnone) hsome'
    · rcases h' with ⟨hnone', -⟩ | ⟨-, y, rfl, h'⟩
      · exact absurd (none_iff.mpr hnone') hsome
      · have hinner : inner.Fits (viewOf value) := by
          rcases hfits with hleaf | hinner
          · exact absurd (isLeaf_viewOf_iff.mp hleaf).2 hsome
          · exact hinner
        have habsent : ∀ path, inner.absent (viewOf value) path = [] := by
          intro path
          have hnil := hwhole path
          rw [FieldType.absent] at hnil
          split at hnil
          · next hroot => exact absurd ((root_iff value).mp hroot) hsome
          · exact hnil
        rw [inner.eq_of_eq heq hinner habsent h h']
  | .dataclass declared, value, value', x, y, heq, hfits, hwhole, h, h' => by
    cases value with
    | dict entries =>
      cases value' with
      | dict entries' =>
        simp only [PyValue.eq, Bool.and_eq_true] at heq
        exact declared.eq_of_eq heq.2 hfits.2.2 hwhole h h'
      | _ => cases heq
    | _ => exact nomatch hfits.1 _ rfl

theorem Fields.eq_of_eq : ∀ (declared : Fields) {entries entries' : List (String × PyValue)}
    {x y : declared.Value}, PyValue.eqEntries entries entries' →
      declared.Fits (viewOf (.dict entries)) →
      (∀ path, declared.absent (viewOf (.dict entries)) path = []) →
      declared.Denotes (viewOf (.dict entries)) x → declared.Denotes (viewOf (.dict entries')) y →
        x = y
  | .nil, _, _, _, _, _, _, _, _, _ => rfl
  | .cons name type rest, entries, entries', (value, x), (value', y), heq, hfits, hwhole, h, h' => by
    have hnil := fun path => List.append_eq_nil_iff.mp (hwhole path)
    have hrest := rest.eq_of_eq heq hfits.2 (fun path => (hnil path).2) h.2 h'.2
    have hfirst := (hnil "").1
    cases hlookup : entries.lookup name with
    | none =>
      rw [viewOf_dict_cons, hlookup] at hfirst
      cases hfirst
    | some value₁ =>
      obtain ⟨value₂, hlookup', heq'⟩ := lookup_of_eqEntries heq hlookup
      have hunder := under_viewOf_dict hlookup
      have hunder' := under_viewOf_dict hlookup'
      have hfits' := hfits.1
      have hdenotes := h.1
      have hdenotes' := h'.1
      rw [viewOf_dict_cons, hlookup, hunder] at hfirst
      rw [hunder] at hfits' hdenotes
      rw [hunder'] at hdenotes'
      have hvalue := type.eq_of_eq heq' hfits' (fun _ => type.absent_eq_nil_of hfirst) hdenotes
        hdenotes'
      exact Prod.ext hvalue hrest

end

theorem FieldType.Reads.eq_of_eq {type : FieldType} {value value' : PyValue} {x y : type.Value}
    (heq : value.eq value') (h : type.Reads value x) (h' : type.Reads value' y) : x = y :=
  type.eq_of_eq heq h.fits h.whole h.denotes h'.denotes

/-! ## The merge -/

theorem lookup_setDefault {settingPath path : String} {value : SettingValue}
    {inherited : List (String × SettingValue)} :
    (setDefault settingPath value inherited).lookup path =
      (inherited.lookup path).or (if path = settingPath then some value else none) := by
  rw [setDefault]
  by_cases hpath : path = settingPath
  · subst hpath
    cases hlookup : inherited.lookup path with
    | none => simp
    | some value' => simp [hlookup]
  · cases hlookup : inherited.lookup settingPath with
    | none => simp [lookup_assign_of_ne hpath, hpath]
    | some value' => simp [hpath]

theorem lookup_foldl_setDefault {values : List (String × PyValue)} {source : ValueSource}
    {inherited : List (String × SettingValue)} {path : String} :
    (values.foldl (fun inherited (settingPath, value) =>
      setDefault settingPath { value, source } inherited) inherited).lookup path =
      (inherited.lookup path).or ((values.lookup path).map ({ value := ·, source })) := by
  induction values generalizing inherited with
  | nil => simp
  | cons entry values ih =>
    obtain ⟨settingPath, value⟩ := entry
    rw [List.foldl_cons, ih, lookup_setDefault, Option.or_assoc, List.lookup_cons]
    by_cases hpath : path = settingPath
    · simp [hpath]
    · simp [hpath, beq_false_of_ne hpath]

theorem keys_foldl_setDefault (values : List (String × PyValue)) (source : ValueSource)
    (inherited : List (String × SettingValue)) (h : (inherited.map Prod.fst).Nodup) :
    ((values.foldl (fun inherited (settingPath, value) =>
      setDefault settingPath { value, source } inherited) inherited).map Prod.fst).Nodup ∧
    ∀ path, path ∈ (values.foldl (fun inherited (settingPath, value) =>
      setDefault settingPath { value, source } inherited) inherited).map Prod.fst →
      path ∈ inherited.map Prod.fst ∨ path ∈ values.map Prod.fst := by
  induction values generalizing inherited with
  | nil => exact ⟨h, fun _ => .inl⟩
  | cons entry values ih =>
    obtain ⟨settingPath, value⟩ := entry
    have hnodup : ((setDefault settingPath { value, source } inherited).map Prod.fst).Nodup := by
      rw [setDefault]
      split
      · exact h
      · exact nodup_keys_assign h
    refine ⟨(ih _ hnodup).1, fun path hpath => ?_⟩
    rcases (ih _ hnodup).2 path hpath with hmem | hmem
    · rw [setDefault] at hmem
      split at hmem
      · exact .inl hmem
      · rcases mem_keys_assign.mp hmem with hmem | rfl
        · exact .inl hmem
        · exact .inr List.mem_cons_self
    · exact .inr (List.mem_cons_of_mem _ hmem)

/-- The choice replaces the value, unless it is `==` to the inherited one. -/
def chosenValue (inherited : Option SettingValue) (choice : PyValue) : SettingValue :=
  match inherited with
  | some previous => if previous.value.eq choice then previous else { value := choice, source := .tui }
  | none => { value := choice, source := .tui }

/-- The body of `apply_tui_choices`'s loop. -/
def applyChoice (inherited chosen : List (String × SettingValue)) (choice : String × PyValue) :
    List (String × SettingValue) :=
  match inherited.lookup choice.1 with
  | none => assign choice.1 { value := choice.2, source := .tui } chosen
  | some previous =>
    if previous.value.eq choice.2 then chosen
    else assign choice.1 { value := choice.2, source := .tui } chosen

theorem applyTuiChoices_eq {inherited : List (String × SettingValue)}
    {choices : List (String × PyValue)} :
    applyTuiChoices inherited choices = choices.foldl (applyChoice inherited) inherited := rfl

theorem lookup_applyChoice_of_ne {inherited chosen : List (String × SettingValue)} {path : String}
    {choice : String × PyValue} (hne : path ≠ choice.1) :
    (applyChoice inherited chosen choice).lookup path = chosen.lookup path := by
  rw [applyChoice]
  split
  · exact lookup_assign_of_ne hne
  · split
    · rfl
    · exact lookup_assign_of_ne hne

theorem keys_applyChoice (inherited : List (String × SettingValue)) (choice : String × PyValue)
    {chosen : List (String × SettingValue)} (h : (chosen.map Prod.fst).Nodup) :
    ((applyChoice inherited chosen choice).map Prod.fst).Nodup ∧
      ∀ path ∈ (applyChoice inherited chosen choice).map Prod.fst,
        path ∈ chosen.map Prod.fst ∨ path = choice.1 := by
  have hassign : ((assign choice.1 { value := choice.2, source := .tui } chosen).map Prod.fst).Nodup ∧
      ∀ path ∈ (assign choice.1 { value := choice.2, source := .tui } chosen).map Prod.fst,
        path ∈ chosen.map Prod.fst ∨ path = choice.1 :=
    ⟨nodup_keys_assign h, fun path hpath => mem_keys_assign.mp hpath⟩
  rw [applyChoice]
  split
  · exact hassign
  · split
    · exact ⟨h, fun _ => .inl⟩
    · exact hassign

theorem lookup_foldl_applyChoice {inherited chosen : List (String × SettingValue)}
    {choices : List (String × PyValue)} (hnodup : (choices.map Prod.fst).Nodup) (path : String)
    (hchosen : chosen.lookup path = inherited.lookup path) :
    (choices.foldl (applyChoice inherited) chosen).lookup path =
      match choices.lookup path with
      | some choice => some (chosenValue (inherited.lookup path) choice)
      | none => inherited.lookup path := by
  induction choices generalizing chosen with
  | nil => exact hchosen
  | cons entry choices ih =>
    obtain ⟨settingPath, choice⟩ := entry
    rw [List.map_cons, List.nodup_cons] at hnodup
    rw [List.foldl_cons, List.lookup_cons]
    by_cases hpath : path = settingPath
    · subst hpath
      -- the later choices are for other settings
      have rest_eq : ∀ (choices : List (String × PyValue)) chosen, path ∉ choices.map Prod.fst →
          (choices.foldl (applyChoice inherited) chosen).lookup path = chosen.lookup path := by
        intro choices
        induction choices with
        | nil => exact fun _ _ => rfl
        | cons entry choices ih =>
          intro chosen hmem
          rw [List.map_cons, List.mem_cons, not_or] at hmem
          rw [List.foldl_cons, ih _ hmem.2, lookup_applyChoice_of_ne hmem.1]
      rw [rest_eq _ _ hnodup.1, applyChoice]
      simp only [beq_self_eq_true, chosenValue]
      cases hlookup : inherited.lookup path with
      | none => simp
      | some previous =>
        by_cases heq : previous.value.eq choice
        · simp [heq, hchosen, hlookup]
        · simp [heq]
    · rw [beq_false_of_ne hpath]
      exact ih hnodup.2 ((lookup_applyChoice_of_ne hpath).trans hchosen)

theorem keys_foldl_applyChoice (inherited : List (String × SettingValue))
    (choices : List (String × PyValue)) {chosen : List (String × SettingValue)} (h : (chosen.map Prod.fst).Nodup) :
    ((choices.foldl (applyChoice inherited) chosen).map Prod.fst).Nodup ∧
      ∀ path ∈ (choices.foldl (applyChoice inherited) chosen).map Prod.fst,
        path ∈ chosen.map Prod.fst ∨ path ∈ choices.map Prod.fst := by
  induction choices generalizing chosen with
  | nil => exact ⟨h, fun _ => .inl⟩
  | cons entry choices ih =>
    have hstep := keys_applyChoice inherited entry h
    refine ⟨(ih hstep.1).1, fun path hpath => ?_⟩
    rcases (ih hstep.1).2 path hpath with hmem | hmem
    · rcases hstep.2 path hmem with hmem | rfl
      · exact .inl hmem
      · exact .inr List.mem_cons_self
    · exact .inr (List.mem_cons_of_mem _ hmem)

/-! ## The assembled values -/

section

variable (environment file choices : List (String × PyValue))

def valuesBySource : ValueSource → List (String × PyValue)
  | .environment => environment
  | .configFile => file
  | .tui => []

/-- The values that `assemble_installer_config` builds from. -/
def assembledValues : List (String × PyValue) :=
  plainValues (applyTuiChoices (inheritSettingValues (valuesBySource environment file)) choices)

def inheritedValue (path : String) : Option PyValue := (environment.lookup path).or (file.lookup path)

/-- The value of the source with the highest priority that has one. -/
def prevailingValue (path : String) : Option PyValue :=
  (choices.lookup path).or (inheritedValue environment file path)

end

variable {environment file choices : List (String × PyValue)}

theorem lookup_plainValues {settingValues : List (String × SettingValue)} {path : String} :
    (plainValues settingValues).lookup path = (settingValues.lookup path).map SettingValue.value := by
  induction settingValues with
  | nil => rfl
  | cons entry settingValues ih =>
    obtain ⟨name, setting⟩ := entry
    rw [plainValues, List.map_cons, List.lookup_cons, List.lookup_cons]
    split
    · rfl
    · exact ih

theorem lookup_inheritSettingValues (valuesBySource : ValueSource → List (String × PyValue))
    (path : String) : ((inheritSettingValues valuesBySource).lookup path).map SettingValue.value =
      inheritedValue (valuesBySource .environment) (valuesBySource .configFile) path := by
  rw [inheritSettingValues, inheritanceOrder, List.foldl_cons, List.foldl_cons, List.foldl_nil,
    lookup_foldl_setDefault, lookup_foldl_setDefault, inheritedValue]
  cases (valuesBySource .environment).lookup path <;>
    cases (valuesBySource .configFile).lookup path <;> rfl

theorem lookup_assembledValues (hnodup : (choices.map Prod.fst).Nodup) (path : String) :
    (assembledValues environment file choices).lookup path =
      match choices.lookup path, inheritedValue environment file path with
      | some choice, some inherited => if inherited.eq choice then some inherited else some choice
      | some choice, none => some choice
      | none, inherited => inherited := by
  rw [assembledValues, lookup_plainValues, applyTuiChoices_eq, lookup_foldl_applyChoice hnodup _ rfl]
  have hinherited : _ = inheritedValue environment file path :=
    lookup_inheritSettingValues (valuesBySource environment file) path
  rw [← hinherited]
  cases choices.lookup path with
  | none => rfl
  | some choice =>
    cases List.lookup path _ with
    | none => rfl
    | some previous =>
      simp only [Option.map_some, chosenValue]
      split <;> rfl

theorem keys_assembledValues : ((assembledValues environment file choices).map Prod.fst).Nodup ∧
    ∀ path ∈ (assembledValues environment file choices).map Prod.fst,
      path ∈ environment.map Prod.fst ∨ path ∈ file.map Prod.fst ∨ path ∈ choices.map Prod.fst := by
  have henvironment := keys_foldl_setDefault environment .environment [] List.nodup_nil
  have hfile := keys_foldl_setDefault file .configFile _ henvironment.1
  have hchoices := keys_foldl_applyChoice (inheritSettingValues (valuesBySource environment file))
    choices hfile.1
  have hkeys : (assembledValues environment file choices).map Prod.fst =
      (applyTuiChoices (inheritSettingValues (valuesBySource environment file)) choices).map
        Prod.fst := by
    rw [assembledValues, plainValues, List.map_map]
    rfl
  rw [hkeys]
  refine ⟨hchoices.1, fun path hpath => ?_⟩
  rcases hchoices.2 path hpath with hmem | hmem
  · rcases hfile.2 path hmem with hmem | hmem
    · rcases henvironment.2 path hmem with hmem | hmem
      · cases hmem
      · exact .inl hmem
    · exact .inr (.inl hmem)
  · exact .inr (.inr hmem)

theorem bySetting_assembledValues (henvironment : BySetting InstallerConfig.fields environment)
    (hfile : BySetting InstallerConfig.fields file)
    (hchoices : BySetting InstallerConfig.fields choices) :
    BySetting InstallerConfig.fields (assembledValues environment file choices) := by
  have of_key : ∀ {values : List (String × PyValue)} {path : String},
      BySetting InstallerConfig.fields values → path ∈ values.map Prod.fst →
      ∃ type, ∃ setting : Setting InstallerConfig.fields type, path = setting.path := by
    intro values path h hmem
    obtain ⟨entry, hentry, rfl⟩ := List.mem_map.mp hmem
    exact h.settings entry hentry
  refine ⟨fun entry hentry => ?_, keys_assembledValues.1⟩
  rcases keys_assembledValues.2 _ (List.mem_map_of_mem hentry) with hmem | hmem | hmem
  · exact of_key henvironment hmem
  · exact of_key hfile hmem
  · exact of_key hchoices hmem

/-- There is a section's value with each setting's value as wanted. -/
theorem Fields.exists_built {declared : Fields}
    {wanted : ∀ type, Setting declared type → type.Value → Prop}
    (h : ∀ type setting, ∃ value, wanted type setting value) :
    ∃ built : declared.Value, ∀ type (setting : Setting declared type),
      wanted type setting (setting.get built) := by
  induction declared using Fields.induction with
  | nil => exact ⟨(), fun _ setting => nomatch setting⟩
  | leaf name type rest hleaf ih =>
    obtain ⟨value, hvalue⟩ := h type (.here hleaf)
    obtain ⟨built, hbuilt⟩ := ih (fun type' setting => h type' (.later setting))
    refine ⟨(value, built), fun type' setting => ?_⟩
    cases setting with
    | here => exact hvalue
    | within => cases hleaf
    | later setting => exact hbuilt type' setting
  | group name inner rest ihinner ih =>
    obtain ⟨value, hvalue⟩ := ihinner (fun type' setting => h type' (.within setting))
    obtain ⟨built, hbuilt⟩ := ih (fun type' setting => h type' (.later setting))
    refine ⟨(value, built), fun type' setting => ?_⟩
    cases setting with
    | here leaf => cases leaf
    | within setting => exact hvalue type' setting
    | later setting => exact hbuilt type' setting

/-! ## The order of the sources -/

/-- The builder accepts the value for the setting, and converts it to this. -/
def BuildsTo (type : FieldType) (path : String) (value : PyValue) (converted : type.Value) : Prop :=
  (convert type value path).run [] = .ok (some converted, [])

/-- Every required setting has a source; the credentials are not required. -/
def EverySettingHasSource (environment file choices : List (String × PyValue)) : Prop :=
  ∀ type (setting : Setting InstallerConfig.fields type), setting.path ∉ credentialPaths →
    prevailingValue environment file choices setting.path ≠ none

/-- The configuration is built, and each setting is the conversion of its prevailing value. -/
def SourcesWin (environment file choices : List (String × PyValue)) : Prop :=
  EverySettingHasSource environment file choices →
    ∃ config, buildInstallerConfig (assembledValues environment file choices) = .ok config ∧
      ∀ type (setting : Setting InstallerConfig.fields type) value,
        prevailingValue environment file choices setting.path = some value →
          BuildsTo type setting.path value (setting.get (InstallerConfig.equiv.symm config))

/-- A choice that is `==` to its inherited value has one that the builder accepts. -/
def EqualValuesAccepted (environment file choices : List (String × PyValue)) : Prop :=
  ∀ type (setting : Setting InstallerConfig.fields type) choice inherited,
    choices.lookup setting.path = some choice →
    inheritedValue environment file setting.path = some inherited → inherited.eq choice →
      ∃ converted, BuildsTo type setting.path inherited converted

theorem equalValuesAccepted_of_builds (henvironment : BySetting InstallerConfig.fields environment)
    (hfile : BySetting InstallerConfig.fields file)
    (hchoices : BySetting InstallerConfig.fields choices) {config : InstallerConfig}
    (hbuild : buildInstallerConfig (assembledValues environment file choices) = .ok config) :
    EqualValuesAccepted environment file choices := by
  have hvalues := bySetting_assembledValues henvironment hfile hchoices
  intro type setting choice inherited hchoice hinherited heq
  obtain ⟨value, hlookup, hreads⟩ := hvalues.buildInstallerConfig_eq_ok_iff.mp hbuild type setting
  rw [hvalues.lookup_withCredentials, lookup_assembledValues hchoices.nodup, hchoice, hinherited] at hlookup
  simp only [heq, if_true, Option.some_or] at hlookup
  cases hlookup
  exact ⟨_, FieldType.reads_iff.mp hreads⟩

theorem builds_of_equalValuesAccepted (henvironment : BySetting InstallerConfig.fields environment)
    (hfile : BySetting InstallerConfig.fields file)
    (hchoices : BySetting InstallerConfig.fields choices)
    (haccepted : ∀ type (setting : Setting InstallerConfig.fields type) value,
      prevailingValue environment file choices setting.path = some value →
        ∃ converted, BuildsTo type setting.path value converted)
    (hevery : EverySettingHasSource environment file choices)
    (hequal : EqualValuesAccepted environment file choices) :
    ∃ config, buildInstallerConfig (assembledValues environment file choices) = .ok config ∧
      ∀ type (setting : Setting InstallerConfig.fields type) value,
        prevailingValue environment file choices setting.path = some value →
          BuildsTo type setting.path value (setting.get (InstallerConfig.equiv.symm config)) := by
  have hvalues := bySetting_assembledValues henvironment hfile hchoices
  -- what the builder finds for a setting is read as the prevailing value is
  have hreads : ∀ type (setting : Setting InstallerConfig.fields type), ∃ converted : type.Value,
      (∃ value, (withCredentials (assembledValues environment file choices)).lookup setting.path =
        some value ∧ type.Reads value converted) ∧
      ∀ value, prevailingValue environment file choices setting.path = some value →
        type.Reads value converted := by
    intro type setting
    have hprevailing := haccepted type setting
    rw [hvalues.lookup_withCredentials, lookup_assembledValues hchoices.nodup]
    rw [prevailingValue] at hprevailing ⊢
    cases hchoice : choices.lookup setting.path with
    | some choice =>
      obtain ⟨converted, hconverted⟩ := hprevailing choice (by rw [hchoice, Option.some_or])
      have hread := FieldType.reads_iff.mpr hconverted
      refine ⟨converted, ?_, fun value hvalue => ?_⟩
      · cases hinherited : inheritedValue environment file setting.path with
        | none => exact ⟨choice, rfl, hread⟩
        | some inherited =>
          by_cases heq : inherited.eq choice
          · obtain ⟨converted', hconverted'⟩ := hequal type setting choice inherited hchoice hinherited heq
            have hread' := FieldType.reads_iff.mpr hconverted'
            obtain rfl := hread'.eq_of_eq heq hread
            exact ⟨inherited, by simp [heq], hread'⟩
          · exact ⟨choice, by simp [heq], hread⟩
      · cases hvalue
        exact hread
    | none =>
      cases hinherited : inheritedValue environment file setting.path with
      | some inherited =>
        obtain ⟨converted, hconverted⟩ := hprevailing inherited (by rw [hchoice, hinherited]; rfl)
        have hread := FieldType.reads_iff.mpr hconverted
        exact ⟨converted, ⟨inherited, rfl, hread⟩, fun value hvalue => by cases hvalue; exact hread⟩
      | none =>
        have hcredential : setting.path ∈ credentialPaths := by
          by_contra hrequired
          exact hevery type setting hrequired (by rw [prevailingValue, hchoice, hinherited]; rfl)
        obtain rfl : type = .str := BySetting.type_of_credential hcredential
        refine ⟨"", ⟨.str "", by rw [if_pos hcredential]; rfl, ?_⟩, nofun⟩
        exact FieldType.reads_iff.mpr (rfl : (convert .str (.str "") "").run [] = _)
  obtain ⟨built, hbuilt⟩ := Fields.exists_built hreads
  refine ⟨InstallerConfig.equiv built, hvalues.buildInstallerConfig_eq_ok_iff.mpr ?_, ?_⟩
  · intro type setting
    rw [Equiv.symm_apply_apply]
    exact (hbuilt type setting).1
  · intro type setting value hvalue
    rw [Equiv.symm_apply_apply]
    exact FieldType.reads_iff.mp ((hbuilt type setting).2 value hvalue)

/-- A configuration file with a value for every setting. -/
def sampleFile : List (String × PyValue) :=
  InstallerConfig.fields.entries "" (InstallerConfig.equiv.symm sampleConfig)

theorem bySetting_sampleFile : BySetting InstallerConfig.fields sampleFile :=
  Fields.bySetting_entries BySetting.installerFields_wellFormed _

theorem bySetting_nil : BySetting InstallerConfig.fields [] := ⟨nofun, List.nodup_nil⟩

theorem lookup_sampleFile {type : FieldType} (setting : Setting InstallerConfig.fields type) :
    ∃ value converted, sampleFile.lookup setting.path = some value ∧
      BuildsTo type setting.path value converted := by
  have hformed := BySetting.installerFields_wellFormed
  have hmem := setting.mem_entries "" (InstallerConfig.equiv.symm sampleConfig)
  rw [String.empty_append] at hmem
  exact ⟨_, _, lookup_of_mem bySetting_sampleFile.nodup hmem,
    convert_plain type (setting.wellFormed hformed) _ _ _⟩

/-- `docker.enabled`. -/
def dockerEnabled : Setting InstallerConfig.fields .bool :=
  .later <| .later <| .later <| .later <| .later <| .later <| .later <| .within <| .here rfl

theorem path_dockerEnabled : dockerEnabled.path = "docker.enabled" := by decide

/-- The file says `enabled: 1` of docker, and the TUI `True`. -/
def numberFile : List (String × PyValue) := assign "docker.enabled" (.int 1) sampleFile

theorem bySetting_dockerEnabled {value : PyValue} :
    BySetting InstallerConfig.fields [("docker.enabled", value)] := by
  refine ⟨fun entry hentry => ?_, List.nodup_singleton _⟩
  rw [List.mem_singleton.mp hentry]
  exact ⟨.bool, dockerEnabled, path_dockerEnabled.symm⟩

theorem bySetting_numberFile : BySetting InstallerConfig.fields numberFile := by
  refine ⟨fun entry hentry => ?_, nodup_keys_assign bySetting_sampleFile.nodup⟩
  rcases mem_keys_assign.mp (List.mem_map_of_mem hentry) with hmem | hkey
  · obtain ⟨entry', hentry', hkey⟩ := List.mem_map.mp hmem
    rw [← hkey]
    exact bySetting_sampleFile.settings entry' hentry'
  · exact ⟨.bool, dockerEnabled, hkey.trans path_dockerEnabled.symm⟩

end ArchInstaller
