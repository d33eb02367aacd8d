import ArchInstaller.Config.Provided

/-! # The builder against what its values provide

Nesting keeps what the entries provide as long as no entry stands at or above something an earlier
one says, and a conversion meets what its declared type says of the provided values. -/

namespace ArchInstaller

open PyData PyText

/-- The error is about a value or a key that is there. -/
def BuildError.IsRefusal (error : BuildError) : Prop :=
  ∀ settingPaths, error ≠ .missingSettings settingPaths

/-! ## Nesting -/

theorem viewOf_of_subsection {name : String} {entries inner : List (String × PyValue)}
    (h : subsection name entries = some inner) {path : List String} (hpath : path ≠ []) :
    viewOf (.dict entries) (name :: path) = viewOf (.dict inner) path := by
  obtain ⟨name', path, rfl⟩ := List.exists_cons_of_ne_nil hpath
  rw [subsection] at h
  rw [viewOf_dict_cons]
  split at h
  · next hlookup =>
    cases h
    rw [hlookup]
    rfl
  · next hlookup =>
    cases h
    rw [hlookup]
    rfl
  · cases h

theorem subsection_ne_none_iff {name : String} {entries : List (String × PyValue)} :
    subsection name entries = none ↔ ∃ value, viewOf (.dict entries) [name] = some (.leaf value) := by
  rw [subsection, viewOf_dict_cons]
  cases entries.lookup name with
  | none => simp
  | some value => cases value <;> simp [Node.of]

theorem viewOf_assign {name name' : String} {value : PyValue} {entries : List (String × PyValue)}
    {path : List String} : viewOf (.dict (assign name value entries)) (name' :: path) =
      if name' = name then viewOf value path else viewOf (.dict entries) (name' :: path) := by
  rw [viewOf_dict_cons]
  split
  · next hname =>
    rw [hname, lookup_assign_self]
    rfl
  · next hname => rw [lookup_assign_of_ne hname, viewOf_dict_cons]

/-- An entry is inserted, or there is a value on the way to it. -/
theorem insertAt_cases (settingPath : String) (value : PyValue) {names : List String}
    {entries : List (String × PyValue)} (hne : names ≠ []) :
    (∃ entries', insertAt settingPath value names entries = .ok entries' ∧
      viewOf (.dict entries') = (viewOf (.dict entries)).place names value ∧
      ∀ above below, names = above ++ below → below ≠ [] → ∀ value',
        viewOf (.dict entries) above ≠ some (.leaf value')) ∨
    (∃ error above below value', insertAt settingPath value names entries = .error error ∧
      error.IsRefusal ∧ names = above ++ below ∧ below ≠ [] ∧
      viewOf (.dict entries) above = some (.leaf value')) := by
  induction names generalizing entries with
  | nil => exact absurd rfl hne
  | cons name names ih =>
    cases names with
    | nil =>
      refine .inl ⟨_, rfl, funext fun path => ?_, fun above below hnames hbelow value' hleaf => ?_⟩
      · cases path with
        | nil => rfl
        | cons name' path => rw [viewOf_assign, View.place_cons_cons, View.place_nil]
      · rcases List.cons_eq_append_iff.mp hnames with ⟨rfl, -⟩ | ⟨rest, -, hrest⟩
        · cases hleaf
        · exact hbelow (List.append_eq_nil_iff.mp hrest.symm).2
    | cons name₂ names =>
      rw [insertAt]
      · cases hsub : subsection name entries with
        | none =>
          obtain ⟨value', hvalue'⟩ := subsection_ne_none_iff.mp hsub
          exact .inr ⟨_, [name], name₂ :: names, value', rfl, nofun, rfl, List.cons_ne_nil _ _, hvalue'⟩
        | some inner =>
          have hinner : ∀ {path}, path ≠ [] →
              viewOf (.dict entries) (name :: path) = viewOf (.dict inner) path :=
            fun hpath => viewOf_of_subsection hsub hpath
          have hnoleaf : ∀ value', viewOf (.dict entries) [name] ≠ some (.leaf value') := by
            intro value' hvalue'
            rw [subsection_ne_none_iff.mpr ⟨value', hvalue'⟩] at hsub
            cases hsub
          rcases @ih inner (List.cons_ne_nil _ _) with
            ⟨inner', hinsert, hview, hway⟩ |
            ⟨error, above, below, value', herror, hrefusal, hnames, hbelow, hleaf⟩
          · refine .inl ⟨assign name (.dict inner') entries, by simp [hinsert],
              funext fun path => ?_, fun above below hnames hbelow value' hleaf => ?_⟩
            · cases path with
              | nil => rfl
              | cons name' path =>
                rw [viewOf_assign, View.place_cons_cons, hview]
                split
                · cases path with
                  | nil =>
                    rw [View.place_of_not_prefix (by simp), View.place_of_not_prefix (by simp),
                      View.under_apply, viewOf_nil]
                    cases hnode : viewOf (.dict entries) [name] with
                    | none => rfl
                    | some node =>
                      cases node with
                      | mapping => rfl
                      | leaf value' => exact absurd hnode (hnoleaf value')
                  | cons name'' path =>
                    have hunder : (viewOf (.dict entries)).under name (name'' :: path) =
                        viewOf (.dict inner) (name'' :: path) := hinner (List.cons_ne_nil _ _)
                    rw [View.place, View.place, hunder]
                · rfl
            · rcases List.cons_eq_append_iff.mp hnames with ⟨rfl, -⟩ | ⟨rest, rfl, hrest⟩
              · cases hleaf
              · cases rest with
                | nil => exact hnoleaf value' hleaf
                | cons name' rest =>
                  rw [hinner (List.cons_ne_nil _ _)] at hleaf
                  exact hway _ _ hrest hbelow value' hleaf
          · refine .inr ⟨error, name :: above, below, value', by simp [herror],
              hrefusal, by rw [hnames, List.cons_append], hbelow, ?_⟩
            cases above with
            | nil => simp [Node.of] at hleaf
            | cons => rw [hinner (List.cons_ne_nil _ _), hleaf]
      · simp

/-- The entries by the names of their paths. -/
def splitEntries (values : List (String × PyValue)) : List (List String × PyValue) :=
  values.map fun entry => (split "." entry.1, entry.2)

theorem nested_append {values : List (String × PyValue)} {settingPath : String} {value : PyValue} :
    nested (values ++ [(settingPath, value)]) = (do
      let entries ← nested values
      insertAt settingPath value (split "." settingPath) entries) := by
  simp [nested, List.foldlM_append]

/-- The nested mapping has what the entries provide, unless something stands below a value. -/
theorem nested_cases {values : List (String × PyValue)}
    (hkeeps : KeepsEntries (splitEntries values)) :
    (∃ entries, nested values = .ok entries ∧ ∀ path, path ≠ [] →
      viewOf (.dict entries) path = View.ofEntries (splitEntries values) path) ∨
    (∃ error, nested values = .error error ∧ error.IsRefusal ∧ ∃ above below value, below ≠ [] ∧
      View.ofEntries (splitEntries values) above = some (.leaf value) ∧
      View.ofEntries (splitEntries values) (above ++ below) ≠ none) := by
  induction values using List.reverseRecOn with
  | nil =>
    refine .inl ⟨[], rfl, fun path hpath => ?_⟩
    obtain ⟨name, path, rfl⟩ := List.exists_cons_of_ne_nil hpath
    rfl
  | append_singleton values entry ih =>
    obtain ⟨settingPath, value⟩ := entry
    have hsplit : splitEntries (values ++ [(settingPath, value)]) =
        splitEntries values ++ [(split "." settingPath, value)] := by simp [splitEntries]
    rw [hsplit, KeepsEntries, List.pairwise_append] at hkeeps
    obtain ⟨hkeeps, -, hlast⟩ := hkeeps
    rw [hsplit, nested_append]
    rcases ih hkeeps with ⟨entries, hnested, hview⟩ |
      ⟨error, hnested, hrefusal, above, below, u, hbelow, habove, hsome⟩
    · have hfree : ∀ rest, viewOf (.dict entries) (split "." settingPath ++ rest) = none := by
        intro rest
        rw [hview _ (by simp [split_ne_nil]), View.ofEntries_eq_none]
        exact fun entry hentry =>
          provides_append_eq_none (hlast entry hentry _ (List.mem_singleton_self _))
      rw [hnested]
      rcases insertAt_cases settingPath value split_ne_nil with
        ⟨entries', hinsert, hview', -⟩ |
        ⟨error, above, below, u, hinsert, hrefusal, hnames, hbelow, hleaf⟩
      · refine .inl ⟨entries', hinsert, fun path hpath => ?_⟩
        rw [hview', View.place_of_free hfree, hview path hpath, View.ofEntries_append,
          View.ofEntries_singleton]
      · refine .inr ⟨error, hinsert, hrefusal, above, below, u, hbelow, ?_, ?_⟩
        · have habove : above ≠ [] := by
            rintro rfl
            simp [Node.of] at hleaf
          rw [View.ofEntries_append, ← hview above habove, hleaf, Option.some_or]
        · rw [View.ofEntries_append, View.ofEntries_singleton, ← hnames, ne_eq,
            Option.or_eq_none_iff, not_and]
          intro _ hnone
          have := provides_prefix_isSome (split "." settingPath) [] value
          rw [List.append_nil, hnone] at this
          cases this
    · refine .inr ⟨error, by rw [hnested]; rfl, hrefusal, above, below, u, hbelow, ?_, ?_⟩
      · rw [View.ofEntries_append, habove, Option.some_or]
      · rw [View.ofEntries_append, ne_eq, Option.or_eq_none_iff]
        exact fun h => hsome h.1

/-! ## Conversions -/

@[simp] theorem Building.ok_bind {ε α β : Type} {x : α} {f : α → Except ε β} :
    (Except.ok x >>= f) = f x := rfl

@[simp] theorem Building.error_bind {ε α β : Type} {error : ε} {f : α → Except ε β} :
    (Except.error error >>= f) = .error error := rfl

@[simp] theorem Building.map_ok {ε α β : Type} {x : α} {f : α → β} :
    f <$> (Except.ok x : Except ε α) = .ok (f x) := rfl

@[simp] theorem Building.map_error {ε α β : Type} {error : ε} {f : α → β} :
    f <$> (Except.error error : Except ε α) = .error error := rfl

/-- The conversion is refused unless the value fits, and otherwise adds the absent settings; it has
a value when there are none. -/
structure Meets {α : Type} (building : Building (Option α)) (fits : Prop) (absent : List String)
    (denotes : α → Prop) : Prop where
  fails : ¬ fits → ∀ missing, ∃ error, building.run missing = .error error ∧ error.IsRefusal
  whole : fits → absent = [] →
    ∃ converted, denotes converted ∧ ∀ missing, building.run missing = .ok (some converted, missing)
  incomplete : fits → absent ≠ [] →
    ∀ missing, building.run missing = .ok (none, missing ++ absent)

namespace Meets

variable {α β γ : Type} {fits fits' : Prop} {absent absent' : List String} {denotes : α → Prop}
  {denotes' : β → Prop}

theorem pure {converted : α} (hfits : fits) (hdenotes : denotes converted) :
    Meets (Pure.pure (some converted)) fits [] denotes where
  fails h := absurd hfits h
  whole _ _ := ⟨converted, hdenotes, fun _ => rfl⟩
  incomplete _ h := absurd rfl h

theorem throw {error : BuildError} (herror : error.IsRefusal) (hfits : ¬ fits) :
    Meets (MonadExcept.throw error : Building (Option α)) fits absent denotes where
  fails _ _ := ⟨error, rfl, herror⟩
  whole h := absurd h hfits
  incomplete h := absurd h hfits

theorem lift {result : Except BuildError α} (hok : ∀ converted, result = .ok converted →
      fits ∧ denotes converted)
    (herror : ∀ error, result = .error error → error.IsRefusal ∧ ¬ fits) :
    Meets (some <$> (liftM result : Building α)) fits [] denotes := by
  cases result with
  | ok converted => exact Meets.pure (hok converted rfl).1 (hok converted rfl).2
  | error error => exact Meets.throw (herror error rfl).1 (herror error rfl).2

theorem missing {settingPath : String} (denotes : α → Prop) (hfits : fits) :
    Meets (Building.missing settingPath) fits [settingPath] denotes where
  fails h := absurd hfits h
  whole _ h := absurd h (List.cons_ne_nil _ _)
  incomplete _ _ _ := rfl

theorem map {building : Building (Option α)} {f : α → β} (h : Meets building fits absent denotes)
    (hdenotes : ∀ converted, denotes converted → denotes' (f converted)) :
    Meets (do return (← building).map f) fits absent denotes' where
  fails hfits missing := by
    obtain ⟨error, herror, hrefusal⟩ := h.fails hfits missing
    exact ⟨error, by simp [herror], hrefusal⟩
  whole hfits habsent := by
    obtain ⟨converted, hconverted, hrun⟩ := h.whole hfits habsent
    exact ⟨f converted, hdenotes converted hconverted, fun missing => by simp [hrun]⟩
  incomplete hfits habsent missing := by simp [h.incomplete hfits habsent missing]

theorem congr {building : Building (Option α)} {denotes' : α → Prop}
    (h : Meets building fits absent denotes) (hfits : fits' ↔ fits)
    (hdenotes : ∀ converted, denotes converted → denotes' converted) :
    Meets building fits' absent denotes' where
  fails hnot := h.fails fun hold => hnot (hfits.mpr hold)
  whole hnew habsent := by
    obtain ⟨converted, hconverted, hrun⟩ := h.whole (hfits.mp hnew) habsent
    exact ⟨converted, hdenotes converted hconverted, hrun⟩
  incomplete hnew := h.incomplete (hfits.mp hnew)

/-- Two conversions in turn. -/
theorem both {first : Building (Option α)} {second : Building (Option β)} {combine : α → β → γ}
    {denotes'' : γ → Prop} (h : Meets first fits absent denotes)
    (h' : Meets second fits' absent' denotes')
    (hdenotes : ∀ x y, denotes x → denotes' y → denotes'' (combine x y)) :
    Meets (do
      let x ← first
      let y ← second
      return do return combine (← x) (← y)) (fits ∧ fits') (absent ++ absent') denotes'' where
  fails hfits missing := by
    by_cases hfirst : fits
    · have hsecond : ¬ fits' := fun hsecond => hfits ⟨hfirst, hsecond⟩
      by_cases habsent : absent = []
      · obtain ⟨x, -, hx⟩ := h.whole hfirst habsent
        obtain ⟨error, herror, hrefusal⟩ := h'.fails hsecond missing
        exact ⟨error, by simp [hx, herror], hrefusal⟩
      · obtain ⟨error, herror, hrefusal⟩ := h'.fails hsecond (missing ++ absent)
        exact ⟨error, by simp [h.incomplete hfirst habsent, herror], hrefusal⟩
    · obtain ⟨error, herror, hrefusal⟩ := h.fails hfirst missing
      exact ⟨error, by simp [herror], hrefusal⟩
  whole hfits habsent := by
    obtain ⟨hnil, hnil'⟩ := List.append_eq_nil_iff.mp habsent
    obtain ⟨x, hx, hfirst⟩ := h.whole hfits.1 hnil
    obtain ⟨y, hy, hsecond⟩ := h'.whole hfits.2 hnil'
    exact ⟨combine x y, hdenotes x y hx hy, fun missing => by simp [hfirst, hsecond]⟩
  incomplete hfits habsent missing := by
    by_cases hfirst : absent = []
    · obtain ⟨x, -, hx⟩ := h.whole hfits.1 hfirst
      have hsecond : absent' ≠ [] := fun hnil => habsent (by rw [hfirst, hnil]; rfl)
      simp [hx, h'.incomplete hfits.2 hsecond, hfirst]
    · by_cases hsecond : absent' = []
      · obtain ⟨y, -, hy⟩ := h'.whole hfits.2 hsecond
        simp [h.incomplete hfits.1 hfirst, hy, hsecond]
      · simp [h.incomplete hfits.1 hfirst, h'.incomplete hfits.2 hsecond]

end Meets

/-! ## Each type -/

theorem isLeaf_viewOf_iff {value : PyValue} {property : PyValue → Prop} :
    (viewOf value).IsLeaf property ↔ (∀ entries, value ≠ .dict entries) ∧ property value := by
  constructor
  · rintro ⟨hleaf, -⟩
    obtain ⟨value', hvalue, hproperty⟩ := hleaf _ viewOf_nil
    obtain ⟨rfl, hdict⟩ := Node.of_eq_leaf_iff.mp hvalue
    exact ⟨hdict, hproperty⟩
  · rintro ⟨hdict, hproperty⟩
    refine ⟨fun node hnode => ?_, fun name path => viewOf_cons_eq_none hdict⟩
    cases hnode
    exact ⟨value, Node.of_eq_leaf_iff.mpr ⟨rfl, hdict⟩, hproperty⟩

theorem viewOf_nil_eq_leaf_iff {value value' : PyValue} :
    viewOf value [] = some (.leaf value') ↔ value = value' ∧ ∀ entries, value ≠ .dict entries := by
  rw [viewOf_nil, Option.some_inj, Node.of_eq_leaf_iff]

theorem isLeaf_none {property : PyValue → Prop} : View.IsLeaf (fun _ => none) property :=
  ⟨nofun, fun _ _ => rfl⟩

mutual

/-- What is not provided at all fits. -/
theorem FieldType.fits_none : ∀ type : FieldType, type.Fits fun _ => none
  | .str | .int | .bool | .enum _ | .tuple _ => isLeaf_none
  | .optional _ => .inl isLeaf_none
  | .dataclass declared => ⟨nofun, fun _ _ _ => rfl, declared.fits_none⟩

theorem Fields.fits_none : ∀ declared : Fields, declared.Fits fun _ => none
  | .nil => trivial
  | .cons _ type rest => ⟨type.fits_none, rest.fits_none⟩

end

theorem meets_leaf {α : Type} {result : Except BuildError α} {value : PyValue}
    {reads : PyValue → α → Prop} {denotes : α → Prop}
    (hok : ∀ converted, result = .ok converted ↔ reads value converted)
    (herror : ∀ error, result = .error error → error.IsRefusal)
    (hdict : ∀ entries converted, ¬ reads (.dict entries) converted)
    (hdenotes : ∀ converted, denotes converted ↔
      ∃ value', viewOf value [] = some (.leaf value') ∧ reads value' converted) :
    Meets (some <$> (liftM result : Building α))
      ((viewOf value).IsLeaf fun value' => ∃ converted, reads value' converted) [] denotes := by
  have hreads : ∀ converted, reads value converted → ∀ entries, value ≠ .dict entries := by
    rintro converted h entries rfl
    exact hdict entries converted h
  refine Meets.lift (fun converted hresult => ?_)
    fun error hresult => ⟨herror error hresult, fun hfits => ?_⟩
  · have h := (hok converted).mp hresult
    exact ⟨isLeaf_viewOf_iff.mpr ⟨hreads converted h, converted, h⟩, (hdenotes converted).mpr
      ⟨value, viewOf_nil_eq_leaf_iff.mpr ⟨rfl, hreads converted h⟩, h⟩⟩
  · obtain ⟨converted, h⟩ := (isLeaf_viewOf_iff.mp hfits).2
    rw [(hok converted).mpr h] at hresult
    cases hresult

theorem readText_eq_some_iff {value : PyValue} {text : String} :
    readText value = some text ↔ ReadsText value text := by
  cases value <;> simp [readText, ReadsText, PyValue.text, eq_comm]

theorem not_readsText_dict {entries : List (String × PyValue)} {text : String} :
    ¬ ReadsText (.dict entries) text := by
  simp [ReadsText, PyValue.text]

theorem convertStr_eq_ok_iff {value : PyValue} {path text : String} :
    convertStr value path = .ok text ↔ ReadsText value text := by
  rw [convertStr, ← readText_eq_some_iff]
  cases readText value <;> simp

theorem convertStr_isRefusal {value : PyValue} {path : String} {error : BuildError}
    (h : convertStr value path = .error error) : error.IsRefusal := by
  unfold convertStr at h
  split at h <;> cases h
  nofun

theorem convertInt_isRefusal {value : PyValue} {path : String} {error : BuildError}
    (h : convertInt value path = .error error) : error.IsRefusal := by
  unfold convertInt at h
  split at h <;> cases h
  nofun

theorem convertBool_isRefusal {value : PyValue} {path : String} {error : BuildError}
    (h : convertBool value path = .error error) : error.IsRefusal := by
  unfold convertBool at h
  split at h <;> cases h
  nofun

theorem convertEnum_isRefusal {type : EnumType} {value : PyValue} {path : String}
    {error : BuildError} (h : convertEnum type value path = .error error) : error.IsRefusal := by
  unfold convertEnum at h
  split at h <;> cases h
  nofun

theorem convertInt_eq_ok_iff {value : PyValue} {path : String} {number : Int} :
    convertInt value path = .ok number ↔ value = .int number := by
  cases value <;> simp [convertInt]

theorem convertBool_eq_ok_iff {value : PyValue} {path : String} {truth : Bool} :
    convertBool value path = .ok truth ↔ value = .bool truth := by
  cases value <;> simp [convertBool]

theorem EnumType.find_eq_some_iff {type : EnumType} {text : String} {member : type.Member} :
    (type.members.find? fun member => type.value member = text) = some member ↔
      type.value member = text := by
  constructor
  · intro h
    simpa using List.find?_some h
  · rintro rfl
    cases h : type.members.find? fun member' => type.value member' = type.value member with
    | none => simpa using List.find?_eq_none.mp h member (type.complete member)
    | some member' =>
      have hvalue : type.value member' = type.value member := by simpa using List.find?_some h
      rw [type.injective member' member hvalue]

theorem convertEnum_eq_ok_iff {type : EnumType} {value : PyValue} {path : String}
    {member : type.Member} :
    convertEnum type value path = .ok member ↔ ReadsText value (type.value member) := by
  have hmember : convertEnum type value path = .ok member ↔ type.member value = some member := by
    rw [convertEnum]
    cases type.member value <;> simp
  rw [hmember, EnumType.member, ← readText_eq_some_iff, Option.bind_eq_some_iff]
  constructor
  · rintro ⟨text, htext, hfind⟩
    rw [htext, EnumType.find_eq_some_iff.mp hfind]
  · intro htext
    exact ⟨_, htext, EnumType.find_eq_some_iff.mpr rfl⟩

/-! ## The conversion -/

theorem convertItems_meets {item : FieldType} {convertItem : PyValue → String → Building (Option item.Value)}
    (hitem : ∀ value path, Meets (convertItem value path) (item.Fits (viewOf value))
      (item.absent (viewOf value) path) (item.Denotes (viewOf value)))
    (path : String) (items : List PyValue) (index : Nat) :
    Meets (convertItems convertItem path items index) (∀ value ∈ items, item.Fits (viewOf value))
      ((items.zipIdx index).flatMap fun (value, index) => item.absent (viewOf value) (itemPath path index))
      (List.Forall₂ (fun value => item.Denotes (viewOf value)) items) := by
  induction items generalizing index with
  | nil => exact Meets.pure (by simp) .nil
  | cons value items ih =>
    rw [List.forall_mem_cons, List.zipIdx_cons, List.flatMap_cons]
    exact (hitem value _).both (ih (index + 1)) fun x y hx hy => .cons hx hy

theorem sorted_eq_nil_iff {texts : List String} : sorted texts = [] ↔ texts = [] := by
  rw [← List.length_eq_zero_iff, sorted, List.length_insertionSort, List.length_eq_zero_iff]

theorem keys_eq_nil_iff {raw : List (String × PyValue)} {names : List String} :
    sorted ((raw.map Prod.fst).filter (· ∉ names)) = [] ↔
      ∀ name path, name ∉ names → viewOf (.dict raw) (name :: path) = none := by
  rw [sorted_eq_nil_iff, List.filter_eq_nil_iff]
  constructor
  · intro h name path hname
    rw [viewOf_dict_cons, List.lookup_eq_none_iff.mpr]
    · rfl
    · rintro entry hentry
      have hkey := h entry.1 (List.mem_map_of_mem hentry)
      have hdeclared : entry.1 ∈ names := by simpa using hkey
      simpa using fun heq : name = entry.1 => hname (heq ▸ hdeclared)
  · intro h name hmem
    have hdeclared : name ∈ names := by
      by_contra hname
      have hnone := h name [] hname
      rw [viewOf_dict_cons] at hnone
      cases hlookup : raw.lookup name with
      | none =>
        obtain ⟨entry, hentry, rfl⟩ := List.mem_map.mp hmem
        have := List.lookup_eq_none_iff.mp hlookup entry hentry
        simp at this
      | some value =>
        rw [hlookup] at hnone
        cases hnone
    simpa using hdeclared

mutual

/-- **A conversion meets the declared type.** -/
theorem convert_meets : ∀ (type : FieldType) (value : PyValue) (path : String),
    Meets (convert type value path) (type.Fits (viewOf value)) (type.absent (viewOf value) path)
      (type.Denotes (viewOf value))
  | .str, value, path => by
    rw [convert, FieldType.Fits, FieldType.absent]
    exact meets_leaf (fun _ => convertStr_eq_ok_iff) (fun _ => convertStr_isRefusal) (fun _ _ => not_readsText_dict) fun _ => .rfl
  | .int, value, path => by
    rw [convert, FieldType.Fits, FieldType.absent]
    exact meets_leaf (fun _ => convertInt_eq_ok_iff) (fun _ => convertInt_isRefusal) (fun _ _ h => nomatch h) fun _ => by
      simp [FieldType.Denotes]
  | .bool, value, path => by
    rw [convert, FieldType.Fits, FieldType.absent]
    exact meets_leaf (fun _ => convertBool_eq_ok_iff) (fun _ => convertBool_isRefusal) (fun _ _ h => nomatch h) fun _ => by
      simp [FieldType.Denotes]
  | .enum type, value, path => by
    rw [convert, FieldType.Fits, FieldType.absent]
    exact meets_leaf (fun _ => convertEnum_eq_ok_iff) (fun _ => convertEnum_isRefusal) (fun _ _ => not_readsText_dict) fun _ => .rfl
  | .tuple item, value, path => by
    rw [FieldType.Fits, FieldType.absent, isLeaf_viewOf_iff, viewOf_nil]
    have denotes_iff : ∀ converted, (FieldType.tuple item).Denotes (viewOf value) converted ↔
        (∀ entries, value ≠ .dict entries) ∧ ((value = .none ∧ converted = []) ∨
          ∃ items, value.items = some items ∧
            List.Forall₂ (fun value' => item.Denotes (viewOf value')) items converted) := by
      intro converted
      simp only [FieldType.Denotes, viewOf_nil_eq_leaf_iff]
      grind
    have of_items : ∀ items, value.items = some items → value ≠ .none →
        (∀ entries, value ≠ .dict entries) →
        Meets (convertItems (convert item) path items 0)
          ((∀ entries, value ≠ .dict entries) ∧ (value = .none ∨ ∃ items,
            value.items = some items ∧ ∀ value' ∈ items, item.Fits (viewOf value')))
          (items.zipIdx.flatMap fun (value, index) => item.absent (viewOf value) (itemPath path index))
          ((FieldType.tuple item).Denotes (viewOf value)) := by
      intro items hitems hnone hdict
      refine (convertItems_meets (convert_meets item) path items 0).congr ?_ ?_
      · simp [hdict, hnone, hitems]
      · intro converted hconverted
        exact (denotes_iff converted).mpr ⟨hdict, .inr ⟨items, hitems, hconverted⟩⟩
    cases value with
    | none =>
      refine Meets.pure ⟨by simp, .inl rfl⟩ ((denotes_iff []).mpr ⟨by simp, .inl ⟨rfl, rfl⟩⟩)
    | list items | tuple items => exact of_items items rfl (by simp) (by simp)
    | _ => exact Meets.throw nofun (by simp [PyValue.items])
  | .optional inner, value, path => by
    have denotes_iff : ∀ converted, (FieldType.optional inner).Denotes (viewOf value) converted ↔
        (value = .none ∧ converted = none) ∨
          (value ≠ .none ∧ ∃ value', converted = some value' ∧ inner.Denotes (viewOf value) value') := by
      intro converted
      simp only [FieldType.Denotes, ne_eq, viewOf_nil_eq_leaf_iff]
      grind
    rw [FieldType.Fits, FieldType.absent, isLeaf_viewOf_iff, viewOf_nil]
    cases value with
    | none =>
      exact Meets.pure (.inl ⟨by simp, rfl⟩) ((denotes_iff none).mpr (.inl ⟨rfl, rfl⟩))
    | _ =>
      refine ((convert_meets inner _ path).map fun converted hconverted => ?_).congr ?_ fun _ h => h
      · exact (denotes_iff _).mpr (.inr ⟨by simp, converted, rfl, hconverted⟩)
      · simp
  | .dataclass declared, value, path => by
    cases value with
    | dict raw =>
      rw [convert, FieldType.Fits, FieldType.absent, ← keys_eq_nil_iff]
      split
      · next hknown =>
        refine (buildFields_meets declared raw path).congr ?_ fun _ h => h
        exact ⟨fun hfits => hfits.2.2, fun hfields => ⟨fun _ hnode => (Option.some.inj hnode).symm,
          hknown, hfields⟩⟩
      · next hunknown => exact Meets.throw nofun fun hfits => hunknown hfits.2.1
    | _ => exact Meets.throw nofun fun hfits => nomatch hfits.1 _ rfl

theorem buildFields_meets : ∀ (declared : Fields) (raw : List (String × PyValue)) (path : String),
    Meets (buildFields declared raw path) (declared.Fits (viewOf (.dict raw)))
      (declared.absent (viewOf (.dict raw)) path) (declared.Denotes (viewOf (.dict raw)))
  | .nil, raw, path => by
    rw [buildFields, Fields.Fits, Fields.absent]
    exact Meets.pure trivial trivial
  | .cons name type rest, raw, path => by
    rw [buildFields, Fields.Fits, Fields.absent]
    have hrest := buildFields_meets rest raw path
    rw [viewOf_dict_cons]
    cases hlookup : raw.lookup name with
    | none =>
      have hnone : (viewOf (.dict raw)).under name = fun _ => none := by
        funext path
        rw [View.under_apply, viewOf_dict_cons, hlookup]
        rfl
      rw [hnone]
      exact (Meets.missing (fun _ => False) type.fits_none).both hrest
        fun _ _ hx _ => hx.elim
    | some value =>
      have hunder := under_viewOf_dict hlookup
      rw [hunder]
      exact (convert_meets type value (fieldPath path name)).both hrest
        fun _ _ hx hy => ⟨hunder ▸ hx, hy⟩

end

end ArchInstaller
