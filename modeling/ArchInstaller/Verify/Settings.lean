import ArchInstaller.Config.Settings
import ArchInstaller.Verify.SoundBuilder

/-! # Values given setting by setting

Entries at the paths of distinct settings never meet, so the builder takes each setting from its own
entry. -/

namespace ArchInstaller

open PyData PyText

theorem dot_not_mem {name : String} (h : isPlainName name) : '.' ∉ name.toList := by
  intro hmem
  rw [isPlainName, Bool.and_eq_true, List.all_eq_true] at h
  exact absurd (h.2 '.' hmem) (by decide)

namespace Setting

variable {declared : Fields} {type type' : FieldType}

theorem names_ne_nil : ∀ {declared : Fields} {type : FieldType} (setting : Setting declared type),
    setting.names ≠ []
  | _, _, here _ => List.cons_ne_nil _ _
  | _, _, within _ => List.cons_ne_nil _ _
  | _, _, later setting => names_ne_nil setting

theorem head_mem : ∀ {declared : Fields} {type : FieldType} (setting : Setting declared type)
    {name : String} {rest : List String}, setting.names = name :: rest → name ∈ declared.names
  | _, _, here _, _, _, h => by
    cases h
    exact List.mem_cons_self
  | _, _, within _, _, _, h => by
    cases h
    exact List.mem_cons_self
  | _, _, later setting, _, _, h => List.mem_cons_of_mem _ (head_mem setting h)

theorem names_plain : ∀ {declared : Fields} {type : FieldType} (setting : Setting declared type),
    declared.wellFormed → ∀ name ∈ setting.names, isPlainName name
  | .cons _ _ _, _, here _, hformed => by
    simp only [Fields.wellFormed, Bool.and_eq_true] at hformed
    simpa [names] using hformed.1.1.1
  | .cons _ _ _, _, within setting, hformed => by
    simp only [Fields.wellFormed, FieldType.wellFormed, Bool.and_eq_true] at hformed
    simpa [names] using ⟨hformed.1.1.1, names_plain setting hformed.1.2.2⟩
  | .cons _ _ _, _, later setting, hformed => by
    simp only [Fields.wellFormed, Bool.and_eq_true] at hformed
    exact names_plain setting hformed.2

theorem split_path (setting : Setting declared type) (hformed : declared.wellFormed) :
    split "." setting.path = setting.names :=
  split_join '.' setting.names_ne_nil fun name hname =>
    dot_not_mem (setting.names_plain hformed name hname)

theorem path_within {name : String} {inner rest : Fields} (setting : Setting inner type) :
    (within setting : Setting (.cons name (.dataclass inner) rest) type).path =
      name ++ "." ++ setting.path := by
  obtain ⟨name', names, hnames⟩ := List.exists_cons_of_ne_nil setting.names_ne_nil
  rw [path, path, Setting.names, hnames, join]
  simp

/-- The settings of later fields are not under an earlier field's name. -/
theorem names_append_ne_cons {name : String} {first : FieldType} {rest : Fields}
    (hformed : (Fields.cons name first rest).wellFormed) (setting : Setting rest type)
    {names path : List String} : setting.names ++ path ≠ name :: names := by
  intro h
  obtain ⟨name', names', hnames⟩ := List.exists_cons_of_ne_nil setting.names_ne_nil
  rw [hnames] at h
  obtain rfl : name' = name := (List.cons.inj h).1
  have hmem := setting.head_mem hnames
  simp [Fields.wellFormed, hmem] at hformed

/-- No setting's path goes through another setting. -/
theorem prefix_free : ∀ {declared : Fields} {type type' : FieldType} (setting : Setting declared type)
    (setting' : Setting declared type'), declared.wellFormed → ∀ {rest : List String},
      setting.names = setting'.names ++ rest →
        (⟨type, setting⟩ : Σ type, Setting declared type) = ⟨type', setting'⟩
  | .cons name _ _, _, _, here leaf, here leaf', _, _, _ => rfl
  | .cons name _ _, _, _, here leaf, within setting', _, _, _ => nomatch leaf
  | .cons name _ _, _, _, within setting, here leaf', _, _, _ => nomatch leaf'
  | .cons name _ _, _, _, within setting, within setting', hformed, rest, h => by
    simp only [Fields.wellFormed, FieldType.wellFormed, Bool.and_eq_true] at hformed
    have heq := prefix_free setting setting' hformed.1.2.2 (List.cons.inj h).2
    cases heq
    rfl
  | .cons name _ _, _, _, later setting, later setting', hformed, rest, h => by
    simp only [Fields.wellFormed, Bool.and_eq_true] at hformed
    have heq := prefix_free setting setting' hformed.2 h
    cases heq
    rfl
  | .cons name _ _, _, _, here _, later setting', hformed, rest, h
  | .cons name _ _, _, _, within _, later setting', hformed, rest, h =>
    absurd h.symm (names_append_ne_cons hformed setting')
  | .cons name _ _, _, _, later setting, here _, hformed, rest, h
  | .cons name _ _, _, _, later setting, within _, hformed, rest, h =>
    absurd ((List.append_nil _).trans h) (names_append_ne_cons hformed setting)

/-- Settings with one path are one setting. -/
theorem eq_of_names_eq {setting : Setting declared type} {setting' : Setting declared type'}
    (hformed : declared.wellFormed) (h : setting.names = setting'.names) :
    (⟨type, setting⟩ : Σ type, Setting declared type) = ⟨type', setting'⟩ :=
  prefix_free setting setting' hformed (h.trans (List.append_nil _).symm)

end Setting

/-! ## What the settings make of the sections -/

theorem Fields.denotes_iff {declared : Fields} {view : View} {built : declared.Value} :
    declared.Denotes view built ↔ ∀ type (setting : Setting declared type),
      type.Denotes (view.below setting.names) (setting.get built) := by
  induction declared using Fields.induction generalizing view with
  | nil => exact ⟨fun _ _ setting => (nomatch setting), fun _ => trivial⟩
  | leaf name type rest hleaf ih =>
    obtain ⟨value, built⟩ := built
    rw [Fields.Denotes, ih]
    constructor
    · rintro ⟨hfirst, hrest⟩ type' setting
      cases setting with
      | here => exact hfirst
      | within => cases hleaf
      | later setting => exact hrest type' setting
    · intro h
      exact ⟨h type (.here hleaf), fun type' setting => h type' (.later setting)⟩
  | group name inner rest ihinner ih =>
    obtain ⟨value, built⟩ := built
    rw [Fields.Denotes, ih, FieldType.Denotes, ihinner]
    constructor
    · rintro ⟨hfirst, hrest⟩ type' setting
      cases setting with
      | here leaf => cases leaf
      | within setting => exact hfirst type' setting
      | later setting => exact hrest type' setting
    · intro h
      exact ⟨fun type' setting => h type' (.within setting), fun type' setting => h type' (.later setting)⟩

/-- The path lies at, below or above a setting, and above it the node is a mapping. -/
def Meeting (declared : Fields) (path : List String) (node : Node) : Prop :=
  ∃ type, ∃ setting : Setting declared type, (∃ rest, path = setting.names ++ rest) ∨
    (node = .mapping ∧ ∃ rest, rest ≠ [] ∧ setting.names = path ++ rest)

/-- What stands under the declared names stands at, below or above settings. -/
def Covers (declared : Fields) (view : View) : Prop :=
  ∀ name ∈ declared.names, ∀ path node, view (name :: path) = some node →
    Meeting declared (name :: path) node

theorem Meeting.name_mem {declared : Fields} {name : String} {path : List String} {node : Node}
    (h : Meeting declared (name :: path) node) : name ∈ declared.names := by
  obtain ⟨type, setting, hsetting⟩ := h
  obtain ⟨name', names, hnames⟩ := List.exists_cons_of_ne_nil setting.names_ne_nil
  have hmem := setting.head_mem hnames
  rw [hnames] at hsetting
  rcases hsetting with ⟨rest, hrest⟩ | ⟨-, rest, -, hrest⟩
  · exact (List.cons.inj hrest).1 ▸ hmem
  · exact (List.cons.inj hrest).1 ▸ hmem

theorem Meeting.mapping {declared : Fields} {node : Node} (h : Meeting declared [] node) :
    node = .mapping := by
  obtain ⟨type, setting, ⟨path, hpath⟩ | ⟨hmapping, -⟩⟩ := h
  · exact absurd (List.append_eq_nil_iff.mp hpath.symm).1 setting.names_ne_nil
  · exact hmapping

theorem Covers.later {name : String} {first : FieldType} {rest : Fields} {view : View}
    (hformed : (Fields.cons name first rest).wellFormed) (h : Covers (.cons name first rest) view) :
    Covers rest view := by
  intro name' hname' path node hnode
  have hne : name' ≠ name := by
    rintro rfl
    simp [Fields.wellFormed, hname'] at hformed
  obtain ⟨type, setting, hsetting⟩ := h name' (List.mem_cons_of_mem _ hname') path node hnode
  cases setting with
  | later setting => exact ⟨type, setting, hsetting⟩
  | here =>
    rcases hsetting with ⟨rest, hrest⟩ | ⟨-, rest, -, hrest⟩
    · exact absurd (List.cons.inj hrest).1 hne
    · exact absurd (List.cons.inj hrest).1.symm hne
  | within =>
    rcases hsetting with ⟨rest, hrest⟩ | ⟨-, rest, -, hrest⟩
    · exact absurd (List.cons.inj hrest).1 hne
    · exact absurd (List.cons.inj hrest).1.symm hne

/-- What stands under a section's name stands at, below or above the section's settings. -/
theorem Covers.within {name : String} {inner rest : Fields} {view : View}
    (hformed : (Fields.cons name (.dataclass inner) rest).wellFormed)
    (h : Covers (.cons name (.dataclass inner) rest) view) (path : List String) (node : Node)
    (hnode : view (name :: path) = some node) : Meeting inner path node := by
  obtain ⟨type, setting, hsetting⟩ := h name List.mem_cons_self path node hnode
  cases setting with
  | here leaf => cases leaf
  | within setting =>
    rcases hsetting with ⟨rest, hrest⟩ | ⟨hnode, rest, hne, hrest⟩
    · exact ⟨type, setting, .inl ⟨rest, (List.cons.inj hrest).2⟩⟩
    · exact ⟨type, setting, .inr ⟨hnode, rest, hne, (List.cons.inj hrest).2⟩⟩
  | later setting =>
    rcases hsetting with ⟨rest, hrest⟩ | ⟨-, rest, -, hrest⟩
    · exact absurd hrest.symm (setting.names_append_ne_cons hformed)
    · exact absurd ((List.append_nil _).trans hrest) (setting.names_append_ne_cons hformed)

theorem dataclass_fits {declared : Fields} {view : View}
    (hmeeting : ∀ path node, view path = some node → Meeting declared path node)
    (hfields : declared.Fits view) : (FieldType.dataclass declared).Fits view := by
  refine ⟨fun node hnode => (hmeeting [] node hnode).mapping, fun name path hname => ?_, hfields⟩
  by_contra hsome
  obtain ⟨node, hnode⟩ := Option.ne_none_iff_exists'.mp hsome
  exact hname (hmeeting _ _ hnode).name_mem

theorem Fields.fits_of_settings {declared : Fields} {view : View} (hformed : declared.wellFormed)
    (hcovers : Covers declared view)
    (h : ∀ type (setting : Setting declared type), type.Fits (view.below setting.names)) :
    declared.Fits view := by
  induction declared using Fields.induction generalizing view with
  | nil => trivial
  | leaf name type rest hleaf ih =>
    have hrest := hformed
    simp only [Fields.wellFormed, Bool.and_eq_true] at hrest
    exact ⟨h type (.here hleaf),
      ih hrest.2 (hcovers.later hformed) fun type' setting => h type' (.later setting)⟩
  | group name inner rest ihinner ih =>
    have hrest := hformed
    simp only [Fields.wellFormed, FieldType.wellFormed, Bool.and_eq_true] at hrest
    have hinner := hcovers.within hformed
    refine ⟨dataclass_fits hinner (ihinner hrest.1.2.2 (fun name' _ path => hinner (name' :: path))
      fun type' setting => h type' (.within setting)), ih hrest.2 (hcovers.later hformed)
      fun type' setting => h type' (.later setting)⟩

theorem Fields.exists_setting {declared : Fields} (hformed : declared.wellFormed)
    (hne : declared.names ≠ []) : ∃ type, Nonempty (Setting declared type) := by
  induction declared using Fields.induction with
  | nil => exact absurd rfl hne
  | leaf name type rest hleaf => exact ⟨type, ⟨.here hleaf⟩⟩
  | group name inner rest ihinner =>
    simp only [Fields.wellFormed, FieldType.wellFormed, Bool.and_eq_true] at hformed
    obtain ⟨type, ⟨setting⟩⟩ := ihinner hformed.1.2.2 (by simpa using hformed.1.2.1)
    exact ⟨type, ⟨.within setting⟩⟩

/-- Where something stands, something stands above. -/
def Upward (view : View) : Prop := ∀ path rest, view (path ++ rest) ≠ none → view path ≠ none

theorem Fields.absent_eq_nil {declared : Fields} {view : View} {path : String}
    (hformed : declared.wellFormed) (hupward : Upward view)
    (h : ∀ type (setting : Setting declared type), view setting.names ≠ none ∧
      ∀ path, type.absent (view.below setting.names) path = []) :
    declared.absent view path = [] := by
  induction declared using Fields.induction generalizing view path with
  | nil => rfl
  | leaf name type rest hleaf ih =>
    simp only [Fields.wellFormed, Bool.and_eq_true] at hformed
    obtain ⟨hname, habsent⟩ := h type (.here hleaf)
    obtain ⟨node, hnode⟩ := Option.ne_none_iff_exists'.mp hname
    rw [Fields.absent, ih hformed.2 hupward fun type' setting => h type' (.later setting)]
    simp only [Setting.names] at hnode
    rw [hnode, List.append_nil]
    exact habsent _
  | group name inner rest ihinner ih =>
    simp only [Fields.wellFormed, FieldType.wellFormed, Bool.and_eq_true] at hformed
    obtain ⟨type, ⟨setting⟩⟩ := Fields.exists_setting hformed.1.2.2 (by simpa using hformed.1.2.1)
    have hname : view [name] ≠ none := hupward [name] setting.names (h type (.within setting)).1
    obtain ⟨node, hnode⟩ := Option.ne_none_iff_exists'.mp hname
    rw [Fields.absent, hnode, ih hformed.2 hupward fun type' setting => h type' (.later setting)]
    rw [List.append_nil, FieldType.absent]
    exact ihinner hformed.1.2.2 (fun path' rest' => hupward (name :: path') rest')
      fun type' setting => h type' (.within setting)

/-! ## Values that are read -/

/-- The value is accepted for a setting of the type, and is converted to this. -/
structure FieldType.Reads (type : FieldType) (value : PyValue) (converted : type.Value) : Prop where
  fits : type.Fits (viewOf value)
  whole : ∀ path, type.absent (viewOf value) path = []
  denotes : type.Denotes (viewOf value) converted

mutual

/-- Whether something is absent does not depend on the path it is reported under. -/
theorem FieldType.absent_eq_nil_of : ∀ (type : FieldType) {view : View} {path path' : String},
    type.absent view path = [] → type.absent view path' = []
  | .tuple item, view, path, path', h => by
    rw [FieldType.absent] at h ⊢
    split at h
    · split at h
      · rw [List.flatMap_eq_nil_iff] at h ⊢
        exact fun entry hentry => item.absent_eq_nil_of (h entry hentry)
      · rfl
    · rfl
  | .optional inner, view, path, path', h => by
    rw [FieldType.absent] at h ⊢
    split at h
    · rfl
    · exact inner.absent_eq_nil_of h
  | .dataclass declared, _, _, _, h => declared.absent_eq_nil_of h
  | .str, _, _, _, _ | .int, _, _, _, _ | .bool, _, _, _, _ | .enum _, _, _, _, _ => rfl

theorem Fields.absent_eq_nil_of : ∀ (declared : Fields) {view : View} {path path' : String},
    declared.absent view path = [] → declared.absent view path' = []
  | .nil, _, _, _, _ => rfl
  | .cons name type rest, view, path, path', h => by
    rw [Fields.absent, List.append_eq_nil_iff] at h ⊢
    refine ⟨?_, rest.absent_eq_nil_of h.2⟩
    have hfirst := h.1
    split at hfirst
    · cases hfirst
    · exact type.absent_eq_nil_of hfirst

end

theorem FieldType.reads_iff {type : FieldType} {value : PyValue} {converted : type.Value}
    {path : String} : type.Reads value converted ↔
      (convert type value path).run [] = .ok (some converted, []) := by
  have hmeets := convert_meets type value path
  constructor
  · intro h
    obtain ⟨converted', hdenotes, hrun⟩ := hmeets.whole h.fits (h.whole path)
    rw [hrun, h.denotes.unique type hdenotes]
  · intro hrun
    by_cases hfits : type.Fits (viewOf value)
    · by_cases habsent : type.absent (viewOf value) path = []
      · obtain ⟨converted', hdenotes, hrun'⟩ := hmeets.whole hfits habsent
        have heq := hrun' []
        rw [hrun] at heq
        cases heq
        exact ⟨hfits, fun _ => type.absent_eq_nil_of habsent, hdenotes⟩
      · rw [hmeets.incomplete hfits habsent] at hrun
        cases hrun
    · obtain ⟨error, herror, -⟩ := hmeets.fails hfits []
      rw [hrun] at herror
      cases herror

theorem FieldType.Reads.unique {type : FieldType} {value : PyValue} {converted converted' : type.Value}
    (h : type.Reads value converted) (h' : type.Reads value converted') : converted = converted' :=
  h.denotes.unique type h'.denotes

theorem Fields.Fits.setting {declared : Fields} {view : View} (h : declared.Fits view)
    {type : FieldType} (setting : Setting declared type) : type.Fits (view.below setting.names) := by
  induction setting generalizing view with
  | here => exact h.1
  | within _ ih => exact ih h.1.2.2
  | later _ ih => exact ih h.2

theorem Fields.absent_setting {declared : Fields} {view : View} {path : String}
    (h : declared.absent view path = []) {type : FieldType} (setting : Setting declared type) :
    view setting.names ≠ none ∧ ∀ path, type.absent (view.below setting.names) path = [] := by
  induction setting generalizing view path with
  | @here name type rest _ =>
    rw [Fields.absent, List.append_eq_nil_iff] at h
    have hfirst := h.1
    split at hfirst
    · cases hfirst
    · next node hnode =>
      exact ⟨by simp [Setting.names, hnode], fun _ => type.absent_eq_nil_of hfirst⟩
  | @within name inner rest type setting ih =>
    rw [Fields.absent, List.append_eq_nil_iff] at h
    have hfirst := h.1
    split at hfirst
    · cases hfirst
    · exact ih hfirst
  | later _ ih =>
    rw [Fields.absent, List.append_eq_nil_iff] at h
    exact ih h.2

/-! ## One entry for each setting -/

/-- Every entry is for a setting, and no two for the same one. -/
structure BySetting (declared : Fields) (values : List (String × PyValue)) : Prop where
  settings : ∀ entry ∈ values, ∃ type, ∃ setting : Setting declared type, entry.1 = setting.path
  nodup : (values.map Prod.fst).Nodup

theorem mem_splitEntries {values : List (String × PyValue)} {entry : List String × PyValue}
    (h : entry ∈ splitEntries values) : ∃ settingPath, (settingPath, entry.2) ∈ values ∧
      entry.1 = split "." settingPath := by
  obtain ⟨⟨settingPath, value⟩, hmem, rfl⟩ := List.mem_map.mp h
  exact ⟨settingPath, hmem, rfl⟩

theorem upward_ofEntries {entries : List (List String × PyValue)} :
    Upward (View.ofEntries entries) := by
  intro path rest hsome hnone
  rw [View.ofEntries_eq_none] at hnone
  exact hsome (View.ofEntries_eq_none.mpr fun entry hentry =>
    provides_append_eq_none (hnone entry hentry))

namespace BySetting

variable {declared : Fields} {values : List (String × PyValue)}

/-- An entry that says something at or below a setting is the setting's own. -/
theorem eq_of_provides (hformed : declared.wellFormed) {type type' : FieldType}
    {setting : Setting declared type} {setting' : Setting declared type'} {value : PyValue}
    {rest : List String} (h : provides (setting'.names, value) (setting.names ++ rest) ≠ none) :
    (⟨type', setting'⟩ : Σ type, Setting declared type) = ⟨type, setting⟩ := by
  obtain ⟨node, hnode⟩ := Option.ne_none_iff_exists'.mp h
  rcases prefix_of_provides hnode with ⟨rest', hrest⟩ | ⟨-, rest', -, hrest⟩
  · rcases List.append_eq_append_iff.mp hrest with ⟨more, hmore, -⟩ | ⟨more, hmore, -⟩
    · exact setting'.prefix_free setting hformed hmore
    · exact (setting.prefix_free setting' hformed hmore).symm
  · rw [List.append_assoc] at hrest
    exact setting'.prefix_free setting hformed hrest

theorem keepsEntries (hformed : declared.wellFormed) (h : BySetting declared values) :
    KeepsEntries (splitEntries values) := by
  rw [KeepsEntries, splitEntries, List.pairwise_map]
  refine (List.pairwise_map.mp h.nodup).imp_of_mem fun {entry entry'} hmem hmem' hne => ?_
  obtain ⟨type, setting, hpath⟩ := h.settings entry hmem
  obtain ⟨type', setting', hpath'⟩ := h.settings entry' hmem'
  by_contra hsome
  rw [hpath, hpath', setting.split_path hformed, setting'.split_path hformed,
    ← List.append_nil setting'.names] at hsome
  cases eq_of_provides hformed hsome
  exact hne (hpath.trans hpath'.symm)

/-- At and below a setting stands what its entry's value says. -/
theorem view_setting (hformed : declared.wellFormed) (h : BySetting declared values)
    {type : FieldType} (setting : Setting declared type) :
    (View.ofEntries (splitEntries values)).below setting.names =
      match values.lookup setting.path with
      | some value => viewOf value
      | none => fun _ => none := by
  funext rest
  have own : ∀ {entry}, entry ∈ splitEntries values → provides entry (setting.names ++ rest) ≠ none →
      entry.1 = setting.names ∧ (setting.path, entry.2) ∈ values := by
    intro entry hentry hsome
    obtain ⟨settingPath, hmem, hsplit⟩ := mem_splitEntries hentry
    obtain ⟨type', setting', hpath⟩ := h.settings _ hmem
    obtain ⟨names, value⟩ := entry
    obtain rfl : names = setting'.names := by
      rw [← setting'.split_path hformed, ← hpath]
      exact hsplit
    cases eq_of_provides hformed hsome
    rw [← hpath]
    exact ⟨rfl, hmem⟩
  cases hlookup : values.lookup setting.path with
  | none =>
    refine View.ofEntries_eq_none.mpr fun entry hentry => ?_
    by_contra hsome
    have := List.lookup_eq_none_iff.mp hlookup _ (own hentry hsome).2
    simp at this
  | some value =>
    have hown : (setting.names, value) ∈ splitEntries values := by
      rw [← setting.split_path hformed]
      exact List.mem_map_of_mem (mem_of_lookup hlookup)
    show View.ofEntries (splitEntries values) (setting.names ++ rest) = viewOf value rest
    cases hview : View.ofEntries (splitEntries values) (setting.names ++ rest) with
    | none => rw [← View.ofEntries_eq_none.mp hview _ hown, provides_append]
    | some node =>
      obtain ⟨⟨names, value'⟩, hentry, hnode⟩ := List.exists_of_findSome?_eq_some hview
      obtain ⟨rfl, hmem⟩ := own hentry (by rw [hnode]; exact Option.some_ne_none _)
      have hvalue : value' = value := eq_of_mem_of_lookup h.nodup hmem hlookup
      rw [provides_append, hvalue] at hnode
      exact hnode.symm

theorem meeting (hformed : declared.wellFormed) (h : BySetting declared values) {path : List String}
    {node : Node} (hnode : View.ofEntries (splitEntries values) path = some node) :
    Meeting declared path node := by
  obtain ⟨entry, hentry, hprovides⟩ := List.exists_of_findSome?_eq_some hnode
  obtain ⟨settingPath, hmem, hsplit⟩ := mem_splitEntries hentry
  obtain ⟨type, setting, hpath⟩ := h.settings _ hmem
  have hnames : entry.1 = setting.names := by
    rw [hsplit, ← setting.split_path hformed, ← hpath]
  refine ⟨type, setting, ?_⟩
  rw [← hnames]
  exact prefix_of_provides hprovides

/-- Where every setting has an entry that is read, the builder returns what is read. -/
theorem buildRoot_eq_ok (hformed : (FieldType.dataclass declared).wellFormed)
    (h : BySetting declared values) {built : declared.Value}
    (hreads : ∀ type (setting : Setting declared type),
      ∃ value, values.lookup setting.path = some value ∧ type.Reads value (setting.get built)) :
    buildRoot declared values = .ok built := by
  rw [FieldType.wellFormed, Bool.and_eq_true] at hformed
  obtain ⟨hne, hformed⟩ := hformed
  obtain ⟨type, ⟨setting⟩⟩ := Fields.exists_setting hformed (by simpa using hne)
  have hvalues : values ≠ [] := by
    rintro rfl
    obtain ⟨value, hlookup, -⟩ := hreads type setting
    cases hlookup
  have hview : ∀ type (setting : Setting declared type), ∃ value,
      (View.ofEntries (splitEntries values)).below setting.names = viewOf value ∧
        type.Reads value (setting.get built) := by
    intro type setting
    obtain ⟨value, hlookup, hread⟩ := hreads type setting
    refine ⟨value, ?_, hread⟩
    rw [h.view_setting hformed setting, hlookup]
  have hfits : declared.Fits (View.ofEntries (splitEntries values)) := by
    refine Fields.fits_of_settings hformed (fun _ _ _ _ => h.meeting hformed) fun type setting => ?_
    obtain ⟨value, hvalue, hread⟩ := hview type setting
    rw [hvalue]
    exact hread.fits
  have habsent : declared.absent (View.ofEntries (splitEntries values)) "" = [] := by
    refine Fields.absent_eq_nil hformed upward_ofEntries fun type setting => ?_
    obtain ⟨value, hvalue, hread⟩ := hview type setting
    constructor
    · have hroot := congrFun hvalue []
      rw [View.below, List.append_nil] at hroot
      rw [hroot]
      exact Option.some_ne_none _
    · rw [hvalue]
      exact hread.whole
  have hdenotes : declared.Denotes (View.ofEntries (splitEntries values)) built := by
    refine Fields.denotes_iff.mpr fun type setting => ?_
    obtain ⟨value, hvalue, hread⟩ := hview type setting
    rw [hvalue]
    exact hread.denotes
  have hfits := dataclass_fits (fun _ _ => h.meeting hformed) hfits
  rcases buildRoot_cases declared hvalues (h.keepsEntries hformed) _ rfl with
    ⟨hnot, -⟩ | ⟨-, -, built', hdenotes', hok⟩ | ⟨-, hsome, -⟩
  · exact absurd hfits hnot
  · rw [hok, hdenotes.unique declared hdenotes']
  · exact absurd habsent hsome

/-- What the builder returns has read every setting's entry. -/
theorem reads_of_buildRoot (hformed : declared.wellFormed) (h : BySetting declared values)
    (hvalues : values ≠ []) {built : declared.Value} (hbuild : buildRoot declared values = .ok built)
    {type : FieldType} (setting : Setting declared type) :
    ∃ value, values.lookup setting.path = some value ∧ type.Reads value (setting.get built) := by
  rcases buildRoot_cases declared hvalues (h.keepsEntries hformed) _ rfl with
    ⟨-, error, herror, -⟩ | ⟨hfits, habsent, built', hdenotes, hok⟩ | ⟨-, -, herror⟩
  · rw [hbuild] at herror
    cases herror
  · rw [hbuild] at hok
    cases hok
    have hview := h.view_setting hformed setting
    obtain ⟨hsome, hwhole⟩ := Fields.absent_setting habsent setting
    have hfits := hfits.2.2.setting setting
    have hdenotes := Fields.denotes_iff.mp hdenotes type setting
    cases hlookup : values.lookup setting.path with
    | none =>
      rw [hlookup] at hview
      have hroot := congrFun hview []
      rw [View.below, List.append_nil] at hroot
      exact absurd hroot hsome
    | some value =>
      rw [hlookup] at hview
      rw [hview] at hfits hwhole hdenotes
      exact ⟨value, rfl, hfits, hwhole, hdenotes⟩
  · rw [hbuild] at herror
    cases herror

/-! ### The configuration -/

theorem installerFields_wellFormed : InstallerConfig.fields.wellFormed := by
  have hformed := installerConfig_wellFormed
  rw [FieldType.wellFormed, Bool.and_eq_true] at hformed
  exact hformed.2

theorem credentialPaths_settings {settingPath : String} (h : settingPath ∈ credentialPaths) :
    ∃ setting : Setting InstallerConfig.fields .str, settingPath = setting.path := by
  rw [credentialPaths, List.mem_cons, List.mem_cons, List.mem_singleton] at h
  rcases h with rfl | rfl | rfl
  · exact ⟨.inCredentials (.here rfl), by decide⟩
  · exact ⟨.inCredentials (.later (.here rfl)), by decide⟩
  · exact ⟨.inCredentials (.later (.later (.here rfl))), by decide⟩

theorem type_of_credential {type : FieldType} {setting : Setting InstallerConfig.fields type}
    (h : setting.path ∈ credentialPaths) : type = .str := by
  have hformed := installerFields_wellFormed
  obtain ⟨setting', hpath⟩ := credentialPaths_settings h
  have hnames : setting.names = setting'.names := by
    rw [← setting.split_path hformed, hpath, setting'.split_path hformed]
  exact congrArg Sigma.fst (Setting.eq_of_names_eq hformed hnames)

theorem withCredentials {values : List (String × PyValue)}
    (h : BySetting InstallerConfig.fields values) :
    BySetting InstallerConfig.fields (withCredentials values) := by
  refine ⟨fun entry hentry => ?_, nodup_keys_merge (by decide)⟩
  rcases mem_keys_merge.mp (List.mem_map_of_mem hentry) with hkey | hkey
  · obtain ⟨setting, hpath⟩ := credentialPaths_settings (by simpa [credentialPaths] using hkey)
    exact ⟨_, setting, hpath⟩
  · obtain ⟨entry', hentry', hkey⟩ := List.mem_map.mp hkey
    rw [← hkey]
    exact h.settings entry' hentry'

theorem lookup_withCredentials {values : List (String × PyValue)}
    (h : BySetting InstallerConfig.fields values) (settingPath : String) :
    (ArchInstaller.withCredentials values).lookup settingPath =
      (values.lookup settingPath).or
        (if settingPath ∈ credentialPaths then some (.str "") else none) := by
  rw [ArchInstaller.withCredentials, lookup_merge h.nodup]
  congr 1
  simp only [credentialPaths, List.map_cons, List.map_nil, List.lookup_cons, List.lookup_nil]
  grind

/-- The builder returns what it reads for each setting. -/
theorem buildInstallerConfig_eq_ok_iff {values : List (String × PyValue)}
    (h : BySetting InstallerConfig.fields values) {config : InstallerConfig} :
    buildInstallerConfig values = .ok config ↔
      ∀ type (setting : Setting InstallerConfig.fields type), ∃ value,
        (ArchInstaller.withCredentials values).lookup setting.path = some value ∧
          type.Reads value (setting.get (InstallerConfig.equiv.symm config)) := by
  have hformed := installerConfig_wellFormed
  constructor
  · intro hbuild type setting
    rw [buildInstallerConfig] at hbuild
    cases hroot : buildRoot InstallerConfig.fields (ArchInstaller.withCredentials values) with
    | error error =>
      rw [hroot] at hbuild
      cases hbuild
    | ok built =>
      rw [hroot] at hbuild
      cases hbuild
      rw [Equiv.symm_apply_apply]
      rw [FieldType.wellFormed, Bool.and_eq_true] at hformed
      exact h.withCredentials.reads_of_buildRoot hformed.2 (withCredentials_ne_nil values) hroot setting
  · intro hreads
    rw [buildInstallerConfig, h.withCredentials.buildRoot_eq_ok hformed hreads, Building.map_ok,
      Equiv.apply_symm_apply]

end BySetting

end ArchInstaller
