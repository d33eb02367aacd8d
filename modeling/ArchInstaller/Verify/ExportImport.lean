import ArchInstaller.Config.ConfigFile
import ArchInstaller.Verify.Settings

/-! # Export and import of the configuration

The plain data of a value is read as that value, and flattening the plain data of a section gives
one entry for each of its settings. -/

namespace ArchInstaller

open PyData PyText

mutual

/-- The plain data of a value. -/
def FieldType.plain : (type : FieldType) → type.Value → PyValue
  | .str, text => .str text
  | .int, number => .int number
  | .bool, truth => .bool truth
  | .enum type, member => .str (type.value member)
  | .tuple item, items => .list (items.map item.plain)
  | .optional _, none => .none
  | .optional inner, some value => inner.plain value
  | .dataclass declared, built => .dict (declared.plain built)

def Fields.plain : (declared : Fields) → declared.Value → List (String × PyValue)
  | .nil, _ => []
  | .cons name type rest, (value, built) => (name, type.plain value) :: rest.plain built

end

theorem FieldType.plain_ne_none : ∀ (type : FieldType) (value : type.Value), type.isOptional = false →
    type.plain value ≠ .none
  | .str, _, _ | .int, _, _ | .bool, _, _ | .enum _, _, _ | .tuple _, _, _ | .dataclass _, _, _ => nofun
  | .optional _, _, h => nomatch h

theorem Fields.keys_plain : ∀ (declared : Fields) (built : declared.Value),
    (declared.plain built).map Prod.fst = declared.names
  | .nil, _ => rfl
  | .cons name _ rest, (_, built) => congrArg (name :: ·) (rest.keys_plain built)

theorem Fields.nodup_names : ∀ {declared : Fields}, declared.wellFormed → declared.names.Nodup
  | .nil, _ => List.nodup_nil
  | .cons name type rest, hformed => by
    simp only [Fields.wellFormed, Bool.and_eq_true] at hformed
    exact List.nodup_cons.mpr ⟨by simpa using hformed.1.1.2, Fields.nodup_names hformed.2⟩

theorem convertItems_map {item : FieldType} {data : item.Value → PyValue}
    (h : ∀ value path missing, (convert item (data value) path).run missing =
      .ok (some value, missing)) (path : String) (items : List item.Value) (index : Nat)
    (missing : List String) :
    (convertItems (convert item) path (items.map data) index).run missing =
      .ok (some items, missing) := by
  induction items generalizing index missing with
  | nil => rfl
  | cons value items ih =>
    rw [List.map_cons, convertItems]
    simp [h, ih]

mutual

/-- **Plain data is read back.** -/
theorem convert_plain : ∀ (type : FieldType), type.wellFormed → ∀ (value : type.Value) (path : String)
    (missing : List String),
    (convert type (type.plain value) path).run missing = .ok (some value, missing)
  | .str, _, _, _, _ | .int, _, _, _, _ | .bool, _, _, _, _ => rfl
  | .enum type, _, member, path, missing => by
    rw [FieldType.plain, convert, convertEnum_eq_ok_iff.mpr (.inr rfl)]
    rfl
  | .tuple item, hformed, items, path, missing =>
    convertItems_map (convert_plain item hformed) path items 0 missing
  | .optional _, _, none, _, _ => rfl
  | .optional inner, hformed, some value, path, missing => by
    simp only [FieldType.wellFormed, Bool.and_eq_true, Bool.not_eq_true'] at hformed
    have hne := inner.plain_ne_none value hformed.1
    have hrun := convert_plain inner hformed.2 value path missing
    rw [FieldType.plain, convert]
    · simp [hrun]
    · exact hne
  | .dataclass declared, hformed, built, path, missing => by
    simp only [FieldType.wellFormed, Bool.and_eq_true] at hformed
    rw [FieldType.plain, convert, if_pos]
    · refine buildFields_plain declared hformed.2 built path missing fun entry hentry => ?_
      refine lookup_of_mem ?_ hentry
      rw [Fields.keys_plain]
      exact Fields.nodup_names hformed.2
    · rw [Fields.keys_plain, List.filter_eq_nil_iff.mpr (by simp)]
      rfl

theorem buildFields_plain : ∀ (declared : Fields), declared.wellFormed → ∀ (built : declared.Value)
    (path : String) (missing : List String) {raw : List (String × PyValue)},
    (∀ entry ∈ declared.plain built, raw.lookup entry.1 = some entry.2) →
    (buildFields declared raw path).run missing = .ok (some built, missing)
  | .nil, _, _, _, _, _, _ => rfl
  | .cons name type rest, hformed, (value, built), path, missing, raw, hraw => by
    simp only [Fields.wellFormed, Bool.and_eq_true] at hformed
    rw [Fields.plain, List.forall_mem_cons] at hraw
    have hfirst := convert_plain type hformed.1.2 value (fieldPath path name)
    have hrest := fun missing => buildFields_plain rest hformed.2 built path missing hraw.2
    rw [buildFields, hraw.1]
    simp [hfirst, hrest]

end

theorem FieldType.reads_plain {type : FieldType} (hformed : type.wellFormed) (value : type.Value) :
    type.Reads (type.plain value) value :=
  FieldType.reads_iff.mpr (convert_plain type hformed value "" [])

/-! ## Flattening -/

/-- One entry for each setting, with its plain data. -/
def Fields.entries : (declared : Fields) → (dotted : String) → declared.Value →
    List (String × PyValue)
  | .nil, _, _ => []
  | .cons name (.dataclass inner) rest, dotted, (value, built) =>
    inner.entries (dotted ++ name ++ ".") value ++ rest.entries dotted built
  | .cons name type rest, dotted, (value, built) =>
    (dotted ++ name, type.plain value) :: rest.entries dotted built

theorem Fields.entries_leaf {name : String} {type : FieldType} {rest : Fields} {dotted : String}
    {value : type.Value} {built : rest.Value} (hleaf : type.isSection = false) :
    (Fields.cons name type rest).entries dotted (value, built) =
      (dotted ++ name, type.plain value) :: rest.entries dotted built := by
  cases type with
  | dataclass => cases hleaf
  | _ => rfl

/-- The fields are declared with these types. -/
def Fields.DeclaredIn (declared : Fields) : Fields → Prop
  | .nil => True
  | .cons name type rest => declared.typeOf name = some type ∧ declared.DeclaredIn rest

theorem Fields.DeclaredIn.cons {name : String} {type : FieldType} {declared : Fields} :
    ∀ {fields : Fields}, name ∉ fields.names → declared.DeclaredIn fields →
      (Fields.cons name type declared).DeclaredIn fields
  | .nil, _, _ => trivial
  | .cons name' type' rest, hname, h => by
    rw [Fields.names, List.mem_cons, not_or] at hname
    exact ⟨by rw [Fields.typeOf, if_neg hname.1, h.1], Fields.DeclaredIn.cons hname.2 h.2⟩

theorem Fields.declaredIn_self : ∀ {declared : Fields}, declared.wellFormed → declared.DeclaredIn declared
  | .nil, _ => trivial
  | .cons name type rest, hformed => by
    simp only [Fields.wellFormed, Bool.and_eq_true] at hformed
    exact ⟨by rw [Fields.typeOf, if_pos rfl],
      (Fields.declaredIn_self hformed.2).cons (by simpa using hformed.1.1.2)⟩

/-- Flattening the plain data of fields gives their entries. -/
theorem flattenEntries_plain {fields declared : Fields} (hformed : fields.wellFormed)
    (hdeclared : declared.DeclaredIn fields) (built : fields.Value) (dotted : String) :
    flattenEntries (fields.plain built) declared dotted = .ok (fields.entries dotted built) := by
  induction fields using Fields.induction generalizing declared dotted with
  | nil => rfl
  | leaf name type rest hleaf ih =>
    obtain ⟨value, built⟩ := built
    simp only [Fields.wellFormed, Bool.and_eq_true] at hformed
    have hrest := ih hformed.2 hdeclared.2 built dotted
    rw [Fields.plain, flattenEntries.eq_def, Fields.entries_leaf hleaf]
    simp only [hdeclared.1, hrest]
    cases type with
    | dataclass => cases hleaf
    | _ => rfl
  | group name inner rest ihinner ih =>
    obtain ⟨value, built⟩ := built
    simp only [Fields.wellFormed, FieldType.wellFormed, Bool.and_eq_true] at hformed
    have hinner := ihinner hformed.1.2.2 (Fields.declaredIn_self hformed.1.2.2) value
      (dotted ++ name ++ ".")
    have hkeys : sorted (((inner.plain value).map Prod.fst).filter (· ∉ inner.names)) = [] := by
      rw [Fields.keys_plain, List.filter_eq_nil_iff.mpr (by simp)]
      rfl
    have hrest := ih hformed.2 hdeclared.2 built dotted
    rw [Fields.plain, flattenEntries.eq_def, Fields.entries]
    simp only [hdeclared.1, hrest, FieldType.plain, flatten, hkeys, hinner, if_true]
    rfl

/-- An entry's path is its setting's. -/
theorem Fields.mem_entries {declared : Fields} {dotted : String} {built : declared.Value}
    {entry : String × PyValue} (h : entry ∈ declared.entries dotted built) :
    ∃ type, ∃ setting : Setting declared type, entry.1 = dotted ++ setting.path := by
  induction declared using Fields.induction generalizing dotted with
  | nil => cases h
  | leaf name type rest hleaf ih =>
    obtain ⟨value, built⟩ := built
    rw [Fields.entries_leaf hleaf, List.mem_cons] at h
    rcases h with rfl | h
    · exact ⟨type, .here hleaf, rfl⟩
    · obtain ⟨type', setting, hpath⟩ := ih h
      exact ⟨type', .later setting, hpath⟩
  | group name inner rest ihinner ih =>
    obtain ⟨value, built⟩ := built
    rw [Fields.entries, List.mem_append] at h
    rcases h with h | h
    · obtain ⟨type', setting, hpath⟩ := ihinner h
      exact ⟨type', .within setting, by rw [hpath, Setting.path_within]; simp [String.append_assoc]⟩
    · obtain ⟨type', setting, hpath⟩ := ih h
      exact ⟨type', .later setting, hpath⟩

/-- Every setting has its entry. -/
theorem Setting.mem_entries {declared : Fields} {type : FieldType} (setting : Setting declared type)
    (dotted : String) (built : declared.Value) :
    (dotted ++ setting.path, type.plain (setting.get built)) ∈ declared.entries dotted built := by
  induction setting generalizing dotted with
  | here leaf =>
    obtain ⟨value, built⟩ := built
    rw [Fields.entries_leaf leaf]
    exact List.mem_cons_self
  | @within name inner rest type setting ih =>
    obtain ⟨value, built⟩ := built
    have hmem := ih (dotted ++ name ++ ".") value
    rw [Fields.entries, Setting.path_within]
    have hpath : dotted ++ (name ++ "." ++ setting.path) = dotted ++ name ++ "." ++ setting.path := by
      simp [String.append_assoc]
    rw [hpath]
    exact List.mem_append_left _ hmem
  | @later name first rest type setting ih =>
    obtain ⟨value, built⟩ := built
    have hmem := ih dotted built
    by_cases hleaf : first.isSection = false
    · rw [Fields.entries_leaf hleaf]
      exact List.mem_cons_of_mem _ hmem
    · cases first with
      | dataclass inner => exact List.mem_append_right _ hmem
      | _ => exact absurd rfl hleaf

/-- The first field's settings and the later ones have different paths. -/
theorem Setting.path_ne_later {name : String} {first type type' : FieldType} {rest : Fields}
    (hformed : (Fields.cons name first rest).wellFormed) (dotted : String)
    (setting : Setting (.cons name first rest) type) (hfirst : setting.names.head? = some name)
    (setting' : Setting rest type') : dotted ++ setting.path ≠ dotted ++ setting'.path := by
  intro heq
  have hpath : setting.path = (Setting.later setting' : Setting (.cons name first rest) type').path :=
    (String.append_right_inj _).mp heq
  have hnames := congrArg (split ".") hpath
  rw [setting.split_path hformed, Setting.split_path _ hformed] at hnames
  obtain ⟨names, hcons⟩ := List.head?_eq_some_iff.mp hfirst
  rw [hcons] at hnames
  exact setting'.names_append_ne_cons hformed ((List.append_nil _).trans hnames.symm)

theorem Fields.nodup_entries {declared : Fields} (hformed : declared.wellFormed) (dotted : String)
    (built : declared.Value) : ((declared.entries dotted built).map Prod.fst).Nodup := by
  induction declared using Fields.induction generalizing dotted with
  | nil => exact List.nodup_nil
  | leaf name type rest hleaf ih =>
    obtain ⟨value, built⟩ := built
    have hrest := hformed
    simp only [Fields.wellFormed, Bool.and_eq_true] at hrest
    rw [Fields.entries_leaf hleaf, List.map_cons, List.nodup_cons]
    refine ⟨fun hmem => ?_, ih hrest.2 dotted built⟩
    obtain ⟨entry, hentry, hkey⟩ := List.mem_map.mp hmem
    obtain ⟨type', setting', hpath⟩ := Fields.mem_entries hentry
    exact Setting.path_ne_later hformed dotted (.here hleaf) rfl setting' (hkey.symm.trans hpath)
  | group name inner rest ihinner ih =>
    obtain ⟨value, built⟩ := built
    have hrest := hformed
    simp only [Fields.wellFormed, FieldType.wellFormed, Bool.and_eq_true] at hrest
    rw [Fields.entries, List.map_append, List.nodup_append]
    refine ⟨ihinner hrest.1.2.2 _ value, ih hrest.2 dotted built, fun path hmem path' hmem' heq => ?_⟩
    obtain ⟨entry, hentry, rfl⟩ := List.mem_map.mp hmem
    obtain ⟨entry', hentry', rfl⟩ := List.mem_map.mp hmem'
    obtain ⟨type, setting, hpath⟩ := Fields.mem_entries hentry
    obtain ⟨type', setting', hpath'⟩ := Fields.mem_entries hentry'
    refine Setting.path_ne_later hformed dotted (.within setting) rfl setting' ?_
    rw [← hpath', ← heq, hpath, Setting.path_within]
    simp [String.append_assoc]

theorem Fields.bySetting_entries {declared : Fields} (hformed : declared.wellFormed)
    (built : declared.Value) : BySetting declared (declared.entries "" built) := by
  refine ⟨fun entry hentry => ?_, declared.nodup_entries hformed "" built⟩
  obtain ⟨type, setting, hpath⟩ := declared.mem_entries hentry
  exact ⟨type, setting, by rw [hpath, String.empty_append]⟩

theorem Setting.wellFormed {declared : Fields} {type : FieldType} (setting : Setting declared type)
    (hformed : declared.wellFormed) : type.wellFormed := by
  induction setting with
  | here =>
    simp only [Fields.wellFormed, Bool.and_eq_true] at hformed
    exact hformed.1.2
  | within _ ih =>
    simp only [Fields.wellFormed, FieldType.wellFormed, Bool.and_eq_true] at hformed
    exact ih hformed.1.2.2
  | later _ ih =>
    simp only [Fields.wellFormed, Bool.and_eq_true] at hformed
    exact ih hformed.2

/-- The entries of a configuration build it. -/
theorem buildInstallerConfig_entries (config : InstallerConfig) :
    buildInstallerConfig (InstallerConfig.fields.entries "" (InstallerConfig.equiv.symm config)) =
      .ok config := by
  have hformed := BySetting.installerFields_wellFormed
  have hentries := Fields.bySetting_entries hformed (InstallerConfig.equiv.symm config)
  refine hentries.buildInstallerConfig_eq_ok_iff.mpr fun type setting => ?_
  have hmem := setting.mem_entries "" (InstallerConfig.equiv.symm config)
  rw [String.empty_append] at hmem
  refine ⟨_, ?_, type.reads_plain (setting.wellFormed hformed) _⟩
  rw [hentries.lookup_withCredentials, lookup_of_mem hentries.nodup hmem, Option.some_or]

/-! ## The exported configuration -/

@[reducible] def exportedFields : Fields := .of
  [("system", .dataclass SystemConfig.fields), ("packages", .dataclass PackagesConfig.fields),
    ("storage", .dataclass StorageConfig.fields), ("boot", .dataclass BootConfig.fields),
    ("gpu", .dataclass GpuConfig.fields), ("snapper", .dataclass SnapperConfig.fields),
    ("firewall", .dataclass FirewallConfig.fields), ("docker", .dataclass DockerConfig.fields),
    ("notifications", .dataclass NotificationsConfig.fields),
    ("sync", .dataclass SyncConfig.fields), ("migration", .dataclass MigrationConfig.fields),
    ("usb_boot", .dataclass UsbBootConfig.fields)]

def InstallerConfig.exported (config : InstallerConfig) : exportedFields.Value :=
  (SystemConfig.equiv.symm config.system, PackagesConfig.equiv.symm config.packages,
    StorageConfig.equiv.symm config.storage, BootConfig.equiv.symm config.boot,
    GpuConfig.equiv.symm config.gpu, SnapperConfig.equiv.symm config.snapper,
    FirewallConfig.equiv.symm config.firewall, DockerConfig.equiv.symm config.docker,
    NotificationsConfig.equiv.symm config.notifications, SyncConfig.equiv.symm config.sync,
    MigrationConfig.equiv.symm config.migration, UsbBootConfig.equiv.symm config.usbBoot, ())

theorem PlainValue.loadedItems_eq_map : ∀ items : List PlainValue,
    PlainValue.loaded.loadedItems items = items.map PlainValue.loaded
  | [] => rfl
  | item :: items => congrArg (item.loaded :: ·) (loadedItems_eq_map items)

theorem PlainValue.loaded_texts (values : List String) :
    (PlainValue.texts values).loaded = (FieldType.tuple .str).plain values := by
  rw [texts, loaded, loadedItems_eq_map, List.map_map]
  rfl

theorem PlainValue.loaded_members (type : EnumType) (members : List type.Member) :
    (PlainValue.texts (members.map type.value)).loaded =
      (FieldType.tuple (.enum type)).plain members := by
  rw [loaded_texts, FieldType.plain, FieldType.plain, List.map_map]
  rfl

theorem PlainValue.loaded_sections {α : Type} (item : FieldType) (equiv : item.Value ≃ α)
    (plain : α → PlainValue) (h : ∀ value, (plain value).loaded = item.plain (equiv.symm value))
    (values : List α) : (PlainValue.sequence (values.map plain)).loaded =
      (FieldType.tuple item).plain ((Equiv.listEquivOfEquiv equiv).symm values) := by
  have hvalues : (Equiv.listEquivOfEquiv equiv).symm values = values.map equiv.symm := rfl
  rw [loaded, loadedItems_eq_map, List.map_map, hvalues, FieldType.plain, List.map_map]
  exact congrArg _ (List.map_congr_left fun value _ => h value)

theorem PlainValue.loaded_mapping (entries : List (String × PlainValue)) :
    (PlainValue.mapping entries).loaded =
      .dict (entries.map fun entry => (entry.1, entry.2.loaded)) := by
  have hentries : ∀ entries, PlainValue.loaded.loadedEntries entries =
      entries.map fun entry => (entry.1, entry.2.loaded) := by
    intro entries
    induction entries with
    | nil => rfl
    | cons entry entries ih => rw [loaded.loadedEntries, ih, List.map_cons]
  rw [loaded, hentries]

/-! `X.plain`, loaded again, is the plain data of the section's value. -/

theorem LocaleConfig.loaded_plain (locale : LocaleConfig) : locale.plain.loaded =
    (FieldType.dataclass LocaleConfig.fields).plain (LocaleConfig.equiv.symm locale) := rfl

theorem SystemConfig.loaded_plain (system : SystemConfig) : system.plain.loaded =
    (FieldType.dataclass SystemConfig.fields).plain (SystemConfig.equiv.symm system) := by
  simp only [SystemConfig.plain, PlainValue.loaded_mapping, List.map_cons, List.map_nil, PlainValue.loaded_texts]
  rfl

theorem PackagesConfig.loaded_plain (packages : PackagesConfig) : packages.plain.loaded =
    (FieldType.dataclass PackagesConfig.fields).plain (PackagesConfig.equiv.symm packages) := by
  have desktops := PlainValue.loaded_members Desktop.enumType packages.selectedDesktops
  simp only [PackagesConfig.plain, PlainValue.loaded_mapping, List.map_cons, List.map_nil, desktops, PlainValue.loaded_texts]
  rfl

theorem LuksConfig.loaded_plain (luks : LuksConfig) : luks.plain.loaded =
    (FieldType.dataclass LuksConfig.fields).plain (LuksConfig.equiv.symm luks) := rfl

theorem SubvolumeConfig.loaded_plain (subvolume : SubvolumeConfig) : subvolume.plain.loaded =
    (FieldType.dataclass SubvolumeConfig.fields).plain (SubvolumeConfig.equiv.symm subvolume) := rfl

theorem StorageConfig.loaded_plain (storage : StorageConfig) : storage.plain.loaded =
    (FieldType.dataclass StorageConfig.fields).plain (StorageConfig.equiv.symm storage) := by
  simp only [StorageConfig.plain, PlainValue.loaded_mapping, List.map_cons, List.map_nil,
    PlainValue.loaded_sections (.dataclass SubvolumeConfig.fields) SubvolumeConfig.equiv
      SubvolumeConfig.plain SubvolumeConfig.loaded_plain]
  rfl

theorem BootConfig.loaded_plain (boot : BootConfig) : boot.plain.loaded =
    (FieldType.dataclass BootConfig.fields).plain (BootConfig.equiv.symm boot) := by
  have kernels := PlainValue.loaded_sections (.dataclass KernelConfig.fields) KernelConfig.equiv
    (fun kernel => .mapping [("name", .text kernel.name), ("package", .text kernel.package)])
    (fun _ => rfl) boot.kernels
  have variants := PlainValue.loaded_sections (.dataclass UkiVariantConfig.fields) UkiVariantConfig.equiv
    (fun variant => .mapping [("suffix", .text variant.suffix), ("params", .text variant.params)])
    (fun _ => rfl) boot.variants
  simp only [BootConfig.plain, PlainValue.loaded_mapping, List.map_cons, List.map_nil, kernels, variants, PlainValue.loaded_texts]
  rfl

theorem GpuConfig.loaded_plain (gpu : GpuConfig) : gpu.plain.loaded =
    (FieldType.dataclass GpuConfig.fields).plain (GpuConfig.equiv.symm gpu) := by
  simp only [GpuConfig.plain, PlainValue.loaded_mapping, List.map_cons, List.map_nil, PlainValue.loaded_texts]
  rfl

theorem SnapperVolumeConfig.loaded_plain (volume : SnapperVolumeConfig) : volume.plain.loaded =
    (FieldType.dataclass SnapperVolumeConfig.fields).plain (SnapperVolumeConfig.equiv.symm volume) := rfl

theorem SnapperConfig.loaded_plain (snapper : SnapperConfig) : snapper.plain.loaded =
    (FieldType.dataclass SnapperConfig.fields).plain (SnapperConfig.equiv.symm snapper) := by
  obtain ⟨enabled, allowGroups, root, home, snapPac, count⟩ := snapper
  simp only [SnapperConfig.plain, PlainValue.loaded_mapping, List.map_cons, List.map_nil,
    PlainValue.loaded_texts]
  cases root <;> cases home <;> rfl

theorem FirewallConfig.loaded_plain (firewall : FirewallConfig) : firewall.plain.loaded =
    (FieldType.dataclass FirewallConfig.fields).plain (FirewallConfig.equiv.symm firewall) := by
  have rules := PlainValue.loaded_sections (.dataclass FirewallAllowRule.fields) FirewallAllowRule.equiv
    (fun rule => .mapping [("port", .int rule.port), ("protocol", .text rule.protocol)])
    (fun _ => rfl) firewall.allowRules
  simp only [FirewallConfig.plain, PlainValue.loaded_mapping, List.map_cons, List.map_nil, rules]
  rfl

theorem DockerConfig.loaded_plain (docker : DockerConfig) : docker.plain.loaded =
    (FieldType.dataclass DockerConfig.fields).plain (DockerConfig.equiv.symm docker) := rfl

theorem SyncConfig.loaded_plain (sync : SyncConfig) : sync.plain.loaded =
    (FieldType.dataclass SyncConfig.fields).plain (SyncConfig.equiv.symm sync) := by
  have items := PlainValue.loaded_sections (.dataclass BackupItemConfig.fields) BackupItemConfig.equiv
    (fun item => .mapping
      [("name", .text item.name), ("source_path", .text item.sourcePath),
        ("description", .text item.description)])
    (fun _ => rfl) sync.backupItems
  have categories := PlainValue.loaded_members BackupCategory.enumType sync.backupCategories
  simp only [SyncConfig.plain, PlainValue.loaded_mapping, List.map_cons, List.map_nil, items, categories]
  rfl

theorem MigrationConfig.loaded_plain (migration : MigrationConfig) : migration.plain.loaded =
    (FieldType.dataclass MigrationConfig.fields).plain (MigrationConfig.equiv.symm migration) := by
  simp only [MigrationConfig.plain, PlainValue.loaded_mapping, List.map_cons, List.map_nil, PlainValue.loaded_texts]
  rfl

theorem UsbBootConfig.loaded_plain (usbBoot : UsbBootConfig) : usbBoot.plain.loaded =
    (FieldType.dataclass UsbBootConfig.fields).plain (UsbBootConfig.equiv.symm usbBoot) := rfl

theorem loaded_exportableConfig (config : InstallerConfig) : (exportableConfig config).loaded =
    .dict (exportedFields.plain config.exported) := by
  simp only [exportableConfig, PlainValue.loaded_mapping, List.map_cons, List.map_nil,
    SystemConfig.loaded_plain, PackagesConfig.loaded_plain, StorageConfig.loaded_plain,
    BootConfig.loaded_plain, GpuConfig.loaded_plain, SnapperConfig.loaded_plain,
    FirewallConfig.loaded_plain, DockerConfig.loaded_plain, SyncConfig.loaded_plain,
    MigrationConfig.loaded_plain, UsbBootConfig.loaded_plain]
  rfl

theorem exportedFields_wellFormed : exportedFields.wellFormed := by decide +kernel

theorem exportedFields_declaredIn :
    (InstallerConfig.fields.discard "credentials").DeclaredIn exportedFields := by
  simp [Fields.DeclaredIn, Fields.discard, Fields.typeOf]

/-- The values that the exported configuration leaves out, under their paths. -/
def InstallerConfig.secretValues (config : InstallerConfig) : List (String × PyValue) :=
  [("secrets.luks_password_encrypted", .str config.secrets.luksPasswordEncrypted),
    ("secrets.user_password_encrypted", .str config.secrets.userPasswordEncrypted),
    ("credentials.luks_password", .str config.credentials.luksPassword),
    ("credentials.user_password", .str config.credentials.userPassword),
    ("credentials.source_luks_password", .str config.credentials.sourceLuksPassword)]

/-- The exported configuration as a configuration file. -/
theorem configFileSettingValues_exportableConfig (config : InstallerConfig) :
    configFileSettingValues (exportableConfig config).loaded =
      .ok (exportedFields.entries "" config.exported) := by
  have hkeys : sorted (((exportedFields.plain config.exported).map Prod.fst).filter
      (· ∉ (InstallerConfig.fields.discard "credentials").names)) = [] := by
    rw [Fields.keys_plain]
    decide
  rw [configFileSettingValues, loaded_exportableConfig, flatten]
  simp only [hkeys, if_true]
  exact flattenEntries_plain exportedFields_wellFormed exportedFields_declaredIn _ ""

theorem entries_eq_append (config : InstallerConfig) :
    InstallerConfig.fields.entries "" (InstallerConfig.equiv.symm config) =
      exportedFields.entries "" config.exported ++ config.secretValues := by
  rfl

/-- **Export and import are inverse**, once the secrets and the credentials are added, and the
export tells nothing about these. -/
theorem import_export (config : InstallerConfig) :
    (∃ values, configFileSettingValues (exportableConfig config).loaded = .ok values ∧
      buildInstallerConfig (values ++ config.secretValues) = .ok config) ∧
    ∀ secrets credentials,
      exportableConfig { config with secrets, credentials } = exportableConfig config := by
  refine ⟨⟨_, configFileSettingValues_exportableConfig config, ?_⟩, fun _ _ => rfl⟩
  rw [← entries_eq_append]
  exact buildInstallerConfig_entries config

end ArchInstaller
