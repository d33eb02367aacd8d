import ArchInstaller.Verify.Building
import ArchInstaller.Verify.SettingPaths

/-! # The builder is sound and complete where its entries are kept

`_nested` refuses an entry below a value, and lets an entry replace what earlier ones say at its
path and below. -/

namespace ArchInstaller

open PyData PyText

/-! ## Values that fit do not overlap -/

theorem isLeaf_below_leaf {view : View} {property : PyValue → Prop} (h : view.IsLeaf property)
    {path rest : List String} {value : PyValue} (hrest : rest ≠ [])
    (hleaf : view path = some (.leaf value)) : view (path ++ rest) = none := by
  cases path with
  | nil =>
    obtain ⟨name, names, rfl⟩ := List.exists_cons_of_ne_nil hrest
    exact h.2 name names
  | cons name path =>
    rw [h.2 name path] at hleaf
    cases hleaf

mutual

theorem FieldType.Fits.below_leaf : ∀ (type : FieldType) {view : View}, type.Fits view →
    ∀ {path rest : List String} {value : PyValue}, rest ≠ [] →
      view path = some (.leaf value) → view (path ++ rest) = none
  | .str, _, h, _, _, _, hrest, hleaf | .int, _, h, _, _, _, hrest, hleaf
  | .bool, _, h, _, _, _, hrest, hleaf | .enum _, _, h, _, _, _, hrest, hleaf
  | .tuple _, _, h, _, _, _, hrest, hleaf => isLeaf_below_leaf h hrest hleaf
  | .optional inner, _, h, _, _, _, hrest, hleaf => by
    rcases h with h | h
    · exact isLeaf_below_leaf h hrest hleaf
    · exact h.below_leaf inner hrest hleaf
  | .dataclass declared, view, ⟨hroot, hdeclared, hfields⟩, path, rest, value, hrest, hleaf => by
    cases path with
    | nil => exact nomatch hroot _ hleaf
    | cons name path =>
      by_cases hname : name ∈ declared.names
      · exact hfields.below_leaf declared hname hrest hleaf
      · rw [hdeclared name path hname] at hleaf
        cases hleaf

theorem Fields.Fits.below_leaf : ∀ (declared : Fields) {view : View}, declared.Fits view →
    ∀ {name : String} {path rest : List String} {value : PyValue}, name ∈ declared.names →
      rest ≠ [] → view (name :: path) = some (.leaf value) → view (name :: path ++ rest) = none
  | .nil, _, _, _, _, _, _, hname, _, _ => nomatch hname
  | .cons name type rest, view, ⟨hfirst, hfields⟩, name', path, rest', value, hname, hrest, hleaf => by
    rcases List.mem_cons.mp hname with rfl | hname
    · exact hfirst.below_leaf type hrest hleaf
    · exact hfields.below_leaf rest hname hrest hleaf

end

/-! ## One configuration -/

theorem ReadsText.unique {value : PyValue} {text text' : String} (h : ReadsText value text)
    (h' : ReadsText value text') : text = text' := by
  rw [← readText_eq_some_iff] at h h'
  rw [h] at h'
  exact Option.some.inj h'

mutual

theorem FieldType.Denotes.unique : ∀ (type : FieldType) {view : View} {converted converted' : type.Value},
    type.Denotes view converted → type.Denotes view converted' → converted = converted'
  | .str, _, _, _, ⟨_, hleaf, h⟩, ⟨_, hleaf', h'⟩ => by
    rw [hleaf] at hleaf'
    cases hleaf'
    exact h.unique h'
  | .int, view, converted, converted', h, h' => by
    rw [FieldType.Denotes] at h h'
    rw [h] at h'
    cases h'
    rfl
  | .bool, view, converted, converted', h, h' => by
    rw [FieldType.Denotes] at h h'
    rw [h] at h'
    cases h'
    rfl
  | .enum type, _, _, _, ⟨_, hleaf, h⟩, ⟨_, hleaf', h'⟩ => by
    rw [hleaf] at hleaf'
    cases hleaf'
    exact type.injective _ _ (h.unique h')
  | .tuple item, _, converted, converted', ⟨value, hleaf, h⟩, ⟨value', hleaf', h'⟩ => by
    rw [hleaf] at hleaf'
    cases hleaf'
    rcases h with ⟨rfl, rfl⟩ | ⟨items, hitems, h⟩
    · rcases h' with ⟨-, rfl⟩ | ⟨items, hitems, -⟩
      · rfl
      · cases hitems
    · rcases h' with ⟨rfl, -⟩ | ⟨items', hitems', h'⟩
      · cases hitems
      · rw [hitems] at hitems'
        cases hitems'
        have unique := @FieldType.Denotes.unique item
        clear hitems hleaf
        induction h generalizing converted' with
        | nil => cases h'; rfl
        | cons hfirst _ ih =>
          cases h' with
          | cons hfirst' hrest' => rw [unique hfirst hfirst', ih _ hrest']
  | .optional inner, _, _, _, h, h' => by
    rcases h with ⟨hnone, rfl⟩ | ⟨hsome, value, rfl, h⟩
    · rcases h' with ⟨-, rfl⟩ | ⟨hsome, -⟩
      · rfl
      · exact absurd hnone hsome
    · rcases h' with ⟨hnone, -⟩ | ⟨-, value', rfl, h'⟩
      · exact absurd hnone hsome
      · rw [h.unique inner h']
  | .dataclass declared, _, _, _, h, h' => Fields.Denotes.unique declared h h'

theorem Fields.Denotes.unique : ∀ (declared : Fields) {view : View}
    {converted converted' : declared.Value},
    declared.Denotes view converted → declared.Denotes view converted' → converted = converted'
  | .nil, _, _, _, _, _ => rfl
  | .cons _ type rest, _, _, _, ⟨hfirst, hrest⟩, ⟨hfirst', hrest'⟩ =>
    Prod.ext (hfirst.unique type hfirst') (hrest.unique rest hrest')

end

/-! ## The whole configuration -/

theorem ofEntries_nil_path {values : List (String × PyValue)} (hvalues : values ≠ []) :
    View.ofEntries (splitEntries values) [] = some .mapping := by
  obtain ⟨⟨settingPath, value⟩, values, rfl⟩ := List.exists_cons_of_ne_nil hvalues
  obtain ⟨name, names, hsplit⟩ :=
    List.exists_cons_of_ne_nil (l := split "." settingPath) split_ne_nil
  rw [splitEntries, List.map_cons, View.ofEntries, List.findSome?_cons]
  simp only [hsplit, provides_cons_nil]

/-- What becomes of values that are nested, by what is found in the mapping. -/
theorem buildRoot_of_nested (declared : Fields) {values entries : List (String × PyValue)} {view : View}
    (hnested : nested values = .ok entries) (hview : viewOf (.dict entries) = view) :
    (¬ (FieldType.dataclass declared).Fits view ∧
      ∃ error, buildRoot declared values = .error error ∧ error.IsRefusal) ∨
    ((FieldType.dataclass declared).Fits view ∧ declared.absent view "" = [] ∧
      ∃ built, declared.Denotes view built ∧ buildRoot declared values = .ok built) ∨
    ((FieldType.dataclass declared).Fits view ∧ declared.absent view "" ≠ [] ∧
      buildRoot declared values = .error (.missingSettings (declared.absent view ""))) := by
  have hmeets := convert_meets (.dataclass declared) (.dict entries) ""
  rw [hview] at hmeets
  by_cases hfits : (FieldType.dataclass declared).Fits view
  · by_cases habsent : declared.absent view "" = []
    · obtain ⟨built, hdenotes, hrun⟩ := hmeets.whole hfits habsent
      refine .inr (.inl ⟨hfits, habsent, built, hdenotes, ?_⟩)
      rw [buildRoot, hnested, Building.ok_bind, hrun]
      rfl
    · have hrun := hmeets.incomplete hfits habsent []
      refine .inr (.inr ⟨hfits, habsent, ?_⟩)
      rw [buildRoot, hnested, Building.ok_bind, hrun]
      rfl
  · obtain ⟨error, hrun, hrefusal⟩ := hmeets.fails hfits []
    refine .inl ⟨hfits, error, ?_, hrefusal⟩
    rw [buildRoot, hnested, Building.ok_bind, hrun, Building.error_bind]

/-- A nested mapping is itself a mapping, and so is what entries provide. -/
theorem viewOf_nested {entries : List (String × PyValue)} {view : View}
    (hroot : view [] = some .mapping)
    (hentries : ∀ path, path ≠ [] → viewOf (.dict entries) path = view path) :
    viewOf (.dict entries) = view := by
  funext path
  by_cases hpath : path = []
  · rw [hpath, hroot]
    rfl
  · exact hentries path hpath

/-- What becomes of entries that are kept. -/
theorem buildRoot_cases (declared : Fields) {values : List (String × PyValue)} (hvalues : values ≠ [])
    (hkeeps : KeepsEntries (splitEntries values)) (view : View)
    (hview : view = View.ofEntries (splitEntries values)) :
    (¬ (FieldType.dataclass declared).Fits view ∧
      ∃ error, buildRoot declared values = .error error ∧ error.IsRefusal) ∨
    ((FieldType.dataclass declared).Fits view ∧ declared.absent view "" = [] ∧
      ∃ built, declared.Denotes view built ∧ buildRoot declared values = .ok built) ∨
    ((FieldType.dataclass declared).Fits view ∧ declared.absent view "" ≠ [] ∧
      buildRoot declared values = .error (.missingSettings (declared.absent view ""))) := by
  rcases nested_cases hkeeps with ⟨entries, hnested, hentries⟩ |
    ⟨error, hnested, hrefusal, above, below, value, hbelow, hleaf, hsome⟩
  · rw [← hview] at hentries
    exact buildRoot_of_nested declared hnested
      (viewOf_nested (hview ▸ ofEntries_nil_path hvalues) hentries)
  · refine .inl ⟨fun hfits => ?_, error, ?_, hrefusal⟩
    · rw [hview] at hfits
      exact hsome (hfits.below_leaf _ hbelow hleaf)
    · rw [buildRoot, hnested, Building.error_bind]

/-- What the values provide, the credentials being empty texts unless they are given. -/
def provided (values : List (String × PyValue)) : View :=
  View.ofEntries (splitEntries (withCredentials values))

/-- Whatever the values provide is declared and has the declared type. -/
def ValuesFit (values : List (String × PyValue)) : Prop :=
  (FieldType.dataclass InstallerConfig.fields).Fits (provided values)

/-- The settings that the values leave out. -/
def absentSettings (values : List (String × PyValue)) : List String :=
  InstallerConfig.fields.absent (provided values) ""

/-- Every field of the configuration is what the values provide for it. -/
def ValuesDenote (values : List (String × PyValue)) (config : InstallerConfig) : Prop :=
  InstallerConfig.fields.Denotes (provided values) (InstallerConfig.equiv.symm config)

theorem withCredentials_ne_nil (values : List (String × PyValue)) : withCredentials values ≠ [] := by
  intro hnil
  have hmem : "credentials.luks_password" ∈ (withCredentials values).map Prod.fst :=
    mem_keys_merge.mpr (.inl (by simp [credentialPaths]))
  rw [hnil] at hmem
  cases hmem

theorem buildInstallerConfig_cases {values : List (String × PyValue)}
    (hkeeps : KeepsEntries (splitEntries (withCredentials values))) :
    (¬ ValuesFit values ∧
      ∃ error, buildInstallerConfig values = .error error ∧ error.IsRefusal) ∨
    (ValuesFit values ∧ absentSettings values = [] ∧
      ∃ config, ValuesDenote values config ∧ buildInstallerConfig values = .ok config) ∨
    (ValuesFit values ∧ absentSettings values ≠ [] ∧
      buildInstallerConfig values = .error (.missingSettings (absentSettings values))) := by
  rcases buildRoot_cases InstallerConfig.fields (withCredentials_ne_nil values) hkeeps _ rfl with
    ⟨hfits, error, herror, hrefusal⟩ | ⟨hfits, habsent, built, hdenotes, hok⟩ |
    ⟨hfits, habsent, herror⟩
  · exact .inl ⟨hfits, error, by rw [buildInstallerConfig, herror, Building.map_error], hrefusal⟩
  · refine .inr (.inl ⟨hfits, habsent, InstallerConfig.equiv built, ?_, ?_⟩)
    · rw [ValuesDenote, Equiv.symm_apply_apply]
      exact hdenotes
    · rw [buildInstallerConfig, hok, Building.map_ok]
  · exact .inr (.inr ⟨hfits, habsent, by rw [buildInstallerConfig, herror, Building.map_error]; rfl⟩)

/-- The builder returns a configuration exactly when the values fit and leave nothing out, it is
the one that they denote, and values that fit and leave something out are reported as missing just
these settings, each once. -/
structure BuildsWhatIsProvided (values : List (String × PyValue)) : Prop where
  returns_iff : (∃ config, buildInstallerConfig values = .ok config) ↔
    ValuesFit values ∧ absentSettings values = []
  denotes : ∀ config, buildInstallerConfig values = .ok config → ValuesDenote values config
  missing : ValuesFit values → absentSettings values ≠ [] →
    buildInstallerConfig values = .error (.missingSettings (absentSettings values))
  once : (absentSettings values).Nodup

/-- The paths of a `MissingSettingsError`. -/
def reportedMissing (values : List (String × PyValue)) : List String :=
  match buildInstallerConfig values with
  | .error (.missingSettings settingPaths) => settingPaths
  | _ => []

/-- `docker.enabled`, and then a mapping with nothing in it for all of `docker`. -/
def overwrittenEntry : List (String × PyValue) :=
  [("docker.enabled", .bool true), ("docker", .dict [])]

theorem provided_overwrittenEntry : provided overwrittenEntry = provided overwrittenEntry.reverse := by
  have hdefaults : ∀ values, values = overwrittenEntry ∨ values = overwrittenEntry.reverse →
      withCredentials values = withCredentials [] ++ values := by
    rintro values (rfl | rfl) <;> rfl
  rw [provided, provided, hdefaults _ (.inl rfl), hdefaults _ (.inr rfl)]
  funext path
  simp only [splitEntries, List.map_append, View.ofEntries_append]
  congr 1
  have hpaths : split "." "docker.enabled" = ["docker", "enabled"] ∧ split "." "docker" = ["docker"] := by
    decide
  rcases path with _ | ⟨name, _ | ⟨name', path⟩⟩
  · simp [overwrittenEntry, View.ofEntries, List.findSome?_cons, hpaths]
  · by_cases hname : name = "docker" <;>
      simp [overwrittenEntry, View.ofEntries, hpaths, provides_cons_cons, hname, Node.of]
  · by_cases hname : name = "docker" <;> by_cases hname' : name' = "enabled" <;>
      simp [overwrittenEntry, View.ofEntries, List.findSome?_cons, hpaths, provides_cons_cons, hname,
        hname', viewOf_dict_nil_cons]

end ArchInstaller
