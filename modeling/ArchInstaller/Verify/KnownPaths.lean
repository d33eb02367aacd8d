import ArchInstaller.Config.ConfigFile
import ArchInstaller.Verify.Precedence

/-! # Values at the paths of settings and sections

The file's values stand at paths of settings, and at the path of a section where something else
than a mapping is given for it. Nothing is built from such a value. -/

namespace ArchInstaller

open PyData PyText

/-- A section with a setting in it. -/
def IsSection (declared : Fields) (names : List String) : Prop :=
  names ≠ [] ∧ ∃ type, ∃ setting : Setting declared type, ∃ rest, rest ≠ [] ∧
    setting.names = names ++ rest

/-- Every value is a setting's, or stands for a section and is no mapping. -/
structure KnownPaths (declared : Fields) (values : List (String × PyValue)) : Prop where
  known : ∀ entry ∈ values, (∃ type, ∃ setting : Setting declared type, entry.1 = setting.path) ∨
    (IsSection declared (split "." entry.1) ∧ ∀ entries, entry.2 ≠ .dict entries)
  nodup : (values.map Prod.fst).Nodup

theorem BySetting.knownPaths {declared : Fields} {values : List (String × PyValue)}
    (h : BySetting declared values) : KnownPaths declared values :=
  ⟨fun entry hentry => .inl (h.settings entry hentry), h.nodup⟩

/-! ## Values for sections stay -/

theorem viewOf_insertAt {settingPath : String} {value : PyValue} {names : List String}
    {entries entries' : List (String × PyValue)} (hne : names ≠ [])
    (h : insertAt settingPath value names entries = .ok entries') :
    viewOf (.dict entries') = (viewOf (.dict entries)).place names value := by
  rcases @insertAt_cases settingPath value names entries hne with
    ⟨entries'', hinsert, hview, -⟩ | ⟨error, _, _, _, herror, -⟩
  · rw [hinsert] at h
    cases h
    exact hview
  · rw [herror] at h
    cases h

/-- A leaf stays, unless a value is put there or above. -/
theorem leaf_place {value leaf : PyValue} {names path : List String} {view : View}
    (hnames : ¬ names <+: path) (hleaf : view path = some (.leaf leaf)) :
    view.place names value path = some (.leaf leaf) := by
  rw [View.place_of_not_prefix hnames, hleaf, Option.some_or]

section

variable {declared : Fields} {values : List (String × PyValue)}

/-- A value that stands for a section is found at some section of what is nested. -/
theorem exists_leaf_of_nested (hformed : declared.wellFormed)
    (hknown : ∀ entry ∈ values, (∃ type, ∃ setting : Setting declared type, entry.1 = setting.path) ∨
      (IsSection declared (split "." entry.1) ∧ ∀ entries, entry.2 ≠ .dict entries))
    {entries : List (String × PyValue)} (h : nested values = .ok entries) :
    (∀ entry ∈ values, ∃ type, ∃ setting : Setting declared type, entry.1 = setting.path) ∨
      ∃ names leaf, IsSection declared names ∧ viewOf (.dict entries) names = some (.leaf leaf) := by
  induction values using List.reverseRecOn generalizing entries with
  | nil => exact .inl nofun
  | append_singleton values entry ih =>
    obtain ⟨settingPath, value⟩ := entry
    rw [nested_append] at h
    cases hnested : nested values with
    | error error =>
      rw [hnested] at h
      cases h
    | ok entries₀ =>
      rw [hnested] at h
      have hinsert : insertAt settingPath value (split "." settingPath) entries₀ = .ok entries := h
      rcases hknown _ (List.mem_append_right _ (List.mem_singleton_self _)) with
        ⟨type, setting, hpath⟩ | ⟨hsection, hvalue⟩
      · rcases ih (fun entry hentry => hknown entry (List.mem_append_left _ hentry)) hnested with
          hall | ⟨names, leaf, hsection, hleaf⟩
        · refine .inl fun entry hentry => ?_
          rcases List.mem_append.mp hentry with hentry | hentry
          · exact hall entry hentry
          · rw [List.mem_singleton.mp hentry]
            exact ⟨type, setting, hpath⟩
        · refine .inr ⟨names, leaf, hsection, ?_⟩
          rw [viewOf_insertAt split_ne_nil hinsert]
          refine leaf_place ?_ hleaf
          rintro ⟨rest, hrest⟩
          obtain ⟨-, type', setting', rest', hne, hnames⟩ := hsection
          simp only at hpath
          rw [hpath, setting.split_path hformed] at hrest
          rw [← hrest, List.append_assoc] at hnames
          cases setting'.prefix_free setting hformed hnames
          exact hne (List.append_eq_nil_iff.mp (List.append_right_eq_self.mp hnames.symm)).2
      · refine .inr ⟨_, value, hsection, ?_⟩
        rw [viewOf_insertAt split_ne_nil hinsert, View.place_self]
        cases value with
        | dict inner => exact absurd rfl (hvalue inner)
        | _ => rfl

/-- What is built is built from settings' values only. -/
theorem KnownPaths.bySetting (hformed : declared.wellFormed) (h : KnownPaths declared values)
    {built : declared.Value} (hbuild : buildRoot declared values = .ok built) :
    BySetting declared values := by
  refine ⟨?_, h.nodup⟩
  rw [buildRoot] at hbuild
  cases hnested : nested values with
  | error error =>
    rw [hnested] at hbuild
    cases hbuild
  | ok entries =>
    rw [hnested, Building.ok_bind] at hbuild
    rcases exists_leaf_of_nested hformed h.known hnested with
      hall | ⟨names, leaf, ⟨-, type, setting, rest, hne, hnames⟩, hleaf⟩
    · exact hall
    · have hmeets := convert_meets (.dataclass declared) (.dict entries) ""
      by_cases hfits : (FieldType.dataclass declared).Fits (viewOf (.dict entries))
      · by_cases habsent : declared.absent (viewOf (.dict entries)) "" = []
        · have hsome := (Fields.absent_setting habsent setting).1
          rw [hnames] at hsome
          exact absurd (hfits.below_leaf _ hne hleaf) hsome
        · rw [hmeets.incomplete hfits habsent] at hbuild
          cases hbuild
      · obtain ⟨error, herror, -⟩ := hmeets.fails hfits []
        rw [herror] at hbuild
        cases hbuild

end

/-! ## What the sources give -/

/-- The start of the paths below some names. -/
def dottedPrefix (names : List String) : String :=
  names.foldr (fun name rest => name ++ "." ++ rest) ""

theorem dottedPrefix_append_singleton {names : List String} {name : String} :
    dottedPrefix (names ++ [name]) = dottedPrefix names ++ name ++ "." := by
  induction names with
  | nil => simp [dottedPrefix]
  | cons name' names ih =>
    have hcons : ∀ names, dottedPrefix (name' :: names) = name' ++ "." ++ dottedPrefix names :=
      fun _ => rfl
    rw [List.cons_append, hcons, hcons, ih, ← String.append_assoc, ← String.append_assoc]

theorem join_append_singleton {names : List String} {name : String} :
    join "." (names ++ [name]) = dottedPrefix names ++ name := by
  induction names with
  | nil => simp [join, dottedPrefix]
  | cons name' names ih =>
    rw [List.cons_append, join, ih, ← String.append_assoc]
    · rfl
    · simp

theorem Fields.setting_of_typeOf {declared : Fields} {name : String} {type : FieldType}
    (h : declared.typeOf name = some type) :
    (type.isSection = false → ∃ setting : Setting declared type, setting.names = [name]) ∧
      ∀ inner, type = .dataclass inner → ∀ type' (setting : Setting inner type'),
        ∃ setting' : Setting declared type', setting'.names = name :: setting.names := by
  induction declared using Fields.induction with
  | nil => cases h
  | leaf name' type' rest hleaf ih | group name' inner rest _ ih =>
    rw [typeOf] at h
    split at h
    · next hname =>
      cases h
      subst hname
      refine ⟨fun hleaf => ⟨.here hleaf, rfl⟩, fun inner heq type' setting => ?_⟩
      cases heq
      exact ⟨.within setting, rfl⟩
    · refine ⟨fun hleaf => ?_, fun inner heq type' setting => ?_⟩
      · obtain ⟨setting, hnames⟩ := (ih h).1 hleaf
        exact ⟨.later setting, hnames⟩
      · obtain ⟨setting', hnames⟩ := (ih h).2 inner heq type' setting
        exact ⟨.later setting', hnames⟩

theorem Fields.wellFormed_typeOf {declared : Fields} {name : String} {type : FieldType}
    (hformed : declared.wellFormed) (h : declared.typeOf name = some type) :
    type.wellFormed ∧ isPlainName name := by
  induction declared using Fields.induction with
  | nil => cases h
  | leaf name' type' rest hleaf ih | group name' inner rest _ ih =>
    simp only [Fields.wellFormed, Bool.and_eq_true] at hformed
    rw [typeOf] at h
    split at h
    · next hname =>
      cases h
      exact ⟨hformed.1.2, hname ▸ hformed.1.1.1⟩
    · exact ih hformed.2 h

theorem Fields.setting_of_discard (name : String) (declared : Fields) :
    ∀ type (setting : Setting (declared.discard name) type),
      ∃ setting' : Setting declared type, setting'.names = setting.names := by
  induction declared using Fields.induction with
  | nil => exact fun _ setting => (nomatch setting)
  | leaf name' first rest _ ih | group name' inner rest _ ih =>
    rw [discard]
    by_cases hname : name' = name
    · rw [if_pos hname]
      intro type setting
      obtain ⟨setting', hnames⟩ := ih type setting
      exact ⟨.later setting', hnames⟩
    · rw [if_neg hname]
      intro type setting
      cases setting with
      | here leaf => exact ⟨.here leaf, rfl⟩
      | within setting => exact ⟨.within setting, rfl⟩
      | later setting =>
        obtain ⟨setting', hnames⟩ := ih type setting
        exact ⟨.later setting', hnames⟩

/-- The fields' settings are settings of the whole, under some names. -/
structure Fields.Under (declared whole : Fields) (names : List String) : Prop where
  formed : declared.wellFormed
  plain : ∀ name ∈ names, isPlainName name
  settings : ∀ type (setting : Setting declared type), ∃ setting' : Setting whole type,
    setting'.names = names ++ setting.names

theorem Fields.Under.inner {declared whole inner : Fields} {names : List String} {name : String}
    (h : declared.Under whole names) (htype : declared.typeOf name = some (.dataclass inner)) :
    inner.Under whole (names ++ [name]) ∧ inner.names ≠ [] := by
  obtain ⟨hformed, hname⟩ := Fields.wellFormed_typeOf h.formed htype
  rw [FieldType.wellFormed, Bool.and_eq_true] at hformed
  refine ⟨⟨hformed.2, ?_, fun type setting => ?_⟩, by simpa using hformed.1⟩
  · intro name' hname'
    rcases List.mem_append.mp hname' with hname' | hname'
    · exact h.plain name' hname'
    · rwa [List.mem_singleton.mp hname']
  · obtain ⟨setting', hnames'⟩ := (Fields.setting_of_typeOf htype).2 inner rfl type setting
    obtain ⟨setting'', hnames''⟩ := h.settings type setting'
    exact ⟨setting'', by rw [hnames'', hnames', List.append_assoc]; rfl⟩

/-- What one entry of a section gives. -/
theorem ok_flattenEntries_cons {name dotted : String} {value : PyValue} {declared : Fields}
    {entries values : List (String × PyValue)}
    (h : flattenEntries ((name, value) :: entries) declared dotted = .ok values) :
    ∃ first rest, values = first ++ rest ∧ flattenEntries entries declared dotted = .ok rest ∧
      ((∃ inner, declared.typeOf name = some (.dataclass inner) ∧
          flatten value inner (dotted ++ name ++ ".") = .ok first) ∨
        (first = [(dotted ++ name, value)] ∧
          ∀ inner, declared.typeOf name = some (.dataclass inner) → ∀ entries, value ≠ .dict entries)) := by
  rw [flattenEntries.eq_def] at h
  simp only at h
  split at h
  · next inner inside htype =>
    cases hfirst : flatten (.dict inside) inner (dotted ++ name ++ ".") with
    | error error =>
      rw [hfirst] at h
      cases h
    | ok first =>
      rw [hfirst] at h
      cases hrest : flattenEntries entries declared dotted with
      | error error =>
        rw [hrest] at h
        cases h
      | ok rest =>
        rw [hrest] at h
        cases h
        exact ⟨first, rest, rfl, rfl, .inl ⟨inner, htype, hfirst⟩⟩
  · next hother =>
    cases hrest : flattenEntries entries declared dotted with
    | error error =>
      rw [hrest] at h
      cases h
    | ok rest =>
      rw [hrest] at h
      cases h
      exact ⟨_, rest, rfl, rfl, .inr ⟨rfl, fun inner htype inside heq => hother inner inside htype heq⟩⟩

mutual

theorem known_flatten : ∀ (value : PyValue) {declared whole : Fields} {names : List String}
    {values : List (String × PyValue)}, declared.Under whole names →
      flatten value declared (dottedPrefix names) = .ok values → ∀ entry ∈ values,
        (∃ type, ∃ setting : Setting whole type, entry.1 = setting.path) ∨
          (IsSection whole (split "." entry.1) ∧ ∀ entries, entry.2 ≠ .dict entries)
  | .dict entries, declared, whole, names, values, hunder, h, entry, hentry => by
    rw [flatten] at h
    split at h
    · next hnone =>
      rw [sorted_eq_nil_iff, List.filter_eq_nil_iff] at hnone
      refine known_flattenEntries entries hunder (fun name hname => ?_) h entry hentry
      simpa using hnone name hname
    · cases h
  | .none, _, _, _, _, _, h, _, _ | .bool _, _, _, _, _, _, h, _, _ | .int _, _, _, _, _, _, h, _, _
  | .float _, _, _, _, _, _, h, _, _ | .str _, _, _, _, _, _, h, _, _
  | .member _, _, _, _, _, _, h, _, _ | .list _, _, _, _, _, _, h, _, _
  | .tuple _, _, _, _, _, _, h, _, _ | .other _, _, _, _, _, _, h, _, _ => nomatch h

theorem known_flattenEntries : ∀ (entries : List (String × PyValue)) {declared whole : Fields}
    {names : List String} {values : List (String × PyValue)}, declared.Under whole names →
      (∀ name ∈ entries.map Prod.fst, name ∈ declared.names) →
      flattenEntries entries declared (dottedPrefix names) = .ok values → ∀ entry ∈ values,
        (∃ type, ∃ setting : Setting whole type, entry.1 = setting.path) ∨
          (IsSection whole (split "." entry.1) ∧ ∀ entries, entry.2 ≠ .dict entries)
  | [], _, _, _, _, _, _, h, entry, hentry => by
    cases h
    cases hentry
  | (name, value) :: entries, declared, whole, names, values, hunder, hnames, h, entry, hentry => by
    rw [List.map_cons, List.forall_mem_cons] at hnames
    obtain ⟨type, htype⟩ := Option.ne_none_iff_exists'.mp
      (fun hnone => Fields.typeOf_eq_none_iff.mp hnone hnames.1)
    obtain ⟨first, rest, rfl, hrest, hfirst⟩ := ok_flattenEntries_cons h
    rcases List.mem_append.mp hentry with hentry | hentry
    · rcases hfirst with ⟨inner, hinner, hflatten⟩ | ⟨rfl, hvalue⟩
      · rw [← dottedPrefix_append_singleton] at hflatten
        exact known_flatten value (hunder.inner hinner).1 hflatten entry hentry
      · rw [List.mem_singleton.mp hentry, ← join_append_singleton]
        by_cases hleaf : type.isSection = false
        · obtain ⟨setting, hsetting⟩ := (Fields.setting_of_typeOf htype).1 hleaf
          obtain ⟨setting', hsetting'⟩ := hunder.settings type setting
          exact .inl ⟨type, setting', by rw [Setting.path, hsetting', hsetting]⟩
        · cases type with
          | dataclass inner =>
            obtain ⟨hunder', hne⟩ := hunder.inner htype
            obtain ⟨type', ⟨setting⟩⟩ := Fields.exists_setting hunder'.formed hne
            obtain ⟨setting', hsetting'⟩ := hunder'.settings type' setting
            refine .inr ⟨?_, hvalue inner htype⟩
            have hsplit := split_join '.' (List.append_ne_nil_of_right_ne_nil names
              (List.cons_ne_nil name [])) fun name' hname' => dot_not_mem (hunder'.plain name' hname')
            rw [show (String.singleton '.') = "." from rfl] at hsplit
            rw [hsplit]
            exact ⟨by simp, type', setting', setting.names, setting.names_ne_nil, hsetting'⟩
          | _ => exact absurd rfl hleaf
    · exact known_flattenEntries entries hunder hnames.2 hrest entry hentry

end

theorem fileFields_under :
    (InstallerConfig.fields.discard "credentials").Under InstallerConfig.fields [] where
  formed := by decide +kernel
  plain := nofun
  settings := InstallerConfig.fields.setting_of_discard "credentials"

theorem knownPaths_inheritSettingValues {environment file : List (String × PyValue)}
    (henvironment : BySetting InstallerConfig.fields environment)
    (hfile : ∀ entry ∈ file,
      (∃ type, ∃ setting : Setting InstallerConfig.fields type, entry.1 = setting.path) ∨
        (IsSection InstallerConfig.fields (split "." entry.1) ∧ ∀ entries, entry.2 ≠ .dict entries)) :
    KnownPaths InstallerConfig.fields
      (plainValues (inheritSettingValues (valuesBySource environment file))) := by
  have hnodup := (@keys_assembledValues environment file []).1
  refine ⟨fun entry hentry => ?_, hnodup⟩
  have hlookup := lookup_of_mem hnodup hentry
  change (plainValues (inheritSettingValues (valuesBySource environment file))).lookup entry.1 = _ at hlookup
  rw [lookup_plainValues, lookup_inheritSettingValues, inheritedValue] at hlookup
  rcases Option.or_eq_some_iff.mp hlookup with henv | ⟨-, hvalue⟩
  · exact .inl (henvironment.settings _ (mem_of_lookup henv))
  · exact hfile _ (mem_of_lookup hvalue)

/-- **The inherited values' paths are known**, where the environment's are those of settings. -/
theorem knownPaths_inherited {environment file : List (String × PyValue)} {raw : PyValue}
    (henvironment : BySetting InstallerConfig.fields environment)
    (hfile : configFileSettingValues raw = .ok file) : KnownPaths InstallerConfig.fields
      (plainValues (inheritSettingValues (valuesBySource environment file))) :=
  knownPaths_inheritSettingValues henvironment (known_flatten raw fileFields_under hfile)

theorem KnownPaths.withCredentials {values : List (String × PyValue)}
    (h : KnownPaths InstallerConfig.fields values) :
    KnownPaths InstallerConfig.fields (withCredentials values) := by
  have hnodup : ((ArchInstaller.withCredentials values).map Prod.fst).Nodup :=
    nodup_keys_merge (by decide)
  refine ⟨fun entry hentry => ?_, hnodup⟩
  have hlookup := lookup_of_mem hnodup hentry
  rw [ArchInstaller.withCredentials, lookup_merge h.nodup] at hlookup
  rcases Option.or_eq_some_iff.mp hlookup with hvalue | ⟨-, hcredential⟩
  · exact h.known _ (mem_of_lookup hvalue)
  · obtain ⟨settingPath, hmem, heq⟩ := List.mem_map.mp (mem_of_lookup hcredential)
    obtain ⟨setting, hpath⟩ := BySetting.credentialPaths_settings hmem
    exact .inl ⟨_, setting, (Prod.ext_iff.mp heq).1.symm.trans hpath⟩

theorem buildRoot_of_build {values : List (String × PyValue)} {config : InstallerConfig}
    (h : buildInstallerConfig values = .ok config) :
    buildRoot InstallerConfig.fields (withCredentials values) =
      .ok (InstallerConfig.equiv.symm config) := by
  rw [buildInstallerConfig] at h
  cases hroot : buildRoot InstallerConfig.fields (withCredentials values) with
  | error error =>
    rw [hroot] at h
    cases h
  | ok built =>
    rw [hroot] at h
    cases h
    rw [Equiv.symm_apply_apply]

/-- A configuration is built from settings' values only. -/
theorem KnownPaths.bySetting_of_build {values : List (String × PyValue)}
    (h : KnownPaths InstallerConfig.fields values) {config : InstallerConfig}
    (hbuild : buildInstallerConfig values = .ok config) : BySetting InstallerConfig.fields values := by
  have hwhole := h.withCredentials.bySetting BySetting.installerFields_wellFormed
    (buildRoot_of_build hbuild)
  refine ⟨fun entry hentry => ?_, h.nodup⟩
  obtain ⟨entry', hentry', hkey⟩ := List.mem_map.mp
    (mem_keys_merge.mpr (.inr (List.mem_map_of_mem hentry)))
  rw [← hkey]
  exact hwhole.settings entry' hentry'

/-- What the builder returns has read the value of every setting. -/
theorem KnownPaths.reads {values : List (String × PyValue)}
    (h : KnownPaths InstallerConfig.fields values) {config : InstallerConfig}
    (hbuild : buildInstallerConfig values = .ok config) {type : FieldType}
    (setting : Setting InstallerConfig.fields type) :
    ∃ value, (ArchInstaller.withCredentials values).lookup setting.path = some value ∧
      type.Reads value (setting.get (InstallerConfig.equiv.symm config)) := by
  have hformed := BySetting.installerFields_wellFormed
  have hroot := buildRoot_of_build hbuild
  exact (h.withCredentials.bySetting hformed hroot).reads_of_buildRoot hformed
    (withCredentials_ne_nil values) hroot setting

/-- Choices for settings leave the paths known. -/
theorem KnownPaths.applyTuiChoices {inherited : List (String × SettingValue)}
    (h : KnownPaths InstallerConfig.fields (plainValues inherited))
    {choices : List (String × PyValue)} (hnodup : (choices.map Prod.fst).Nodup)
    (hchoices : ∀ path ∈ choices.map Prod.fst,
      ∃ type, ∃ setting : Setting InstallerConfig.fields type, path = setting.path) :
    KnownPaths InstallerConfig.fields (plainValues (applyTuiChoices inherited choices)) := by
  have hkeys : ∀ values, (plainValues values).map Prod.fst = values.map Prod.fst := by
    intro values
    rw [plainValues, List.map_map]
    rfl
  have hinherited := h.nodup
  rw [hkeys] at hinherited
  have hnodup' : ((plainValues (ArchInstaller.applyTuiChoices inherited choices)).map Prod.fst).Nodup := by
    rw [hkeys, applyTuiChoices_eq]
    exact (keys_foldl_applyChoice inherited choices hinherited).1
  refine ⟨fun entry hentry => ?_, hnodup'⟩
  have hlookup := lookup_of_mem hnodup' hentry
  rw [lookup_plainValues, applyTuiChoices_eq, lookup_foldl_applyChoice hnodup _ rfl] at hlookup
  cases hchoice : choices.lookup entry.1 with
  | some choice => exact .inl (hchoices _ (List.mem_map.mpr ⟨_, mem_of_lookup hchoice, rfl⟩))
  | none =>
    rw [hchoice, ← lookup_plainValues] at hlookup
    exact h.known _ (mem_of_lookup hlookup)

end ArchInstaller
