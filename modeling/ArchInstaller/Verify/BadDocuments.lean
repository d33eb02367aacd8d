import ArchInstaller.Config.YamlDocument
import ArchInstaller.Verify.KnownPaths

/-! # Malformed documents

A document has faults, in the order in which the two walkers come to them, and the first one is
raised: as a `ConfigurationError`, unless a key that is no text has to be sorted, or an integer of
too many digits has to be shown. -/

namespace ArchInstaller.Yaml

open PyData PyText

/-! ## The claim -/

inductive Fault where
  | undeclared (path : String) (keys : List Key)
  | misfit (kind : Misfit) (path : String) (value : Value)
  | notMapping (path : String)
  | notList (path : String)

/-- What is raised when the fault is met. -/
def Fault.error : Fault → DocumentError
  | undeclared path keys => unknownKeysError path keys
  | misfit kind path value => misfitError kind path value
  | notMapping path => .notMapping path
  | notList path => .notList path

/-- An undeclared key is no text, or the value of the wrong type has an integer of too many digits. -/
def Fault.Slips : Fault → Prop
  | undeclared _ keys => ∃ key ∈ keys, key.name = none
  | misfit _ _ value => value.isPrintable = false
  | notMapping _ | notList _ => False

/-- The undeclared keys of a section. -/
def keyFaults (path : String) (declared : Fields) (entries : List (Key × Value)) : List Fault :=
  if undeclaredKeys declared entries = [] then []
  else [.undeclared path (undeclaredKeys declared entries)]

mutual

/-- What `_flatten` comes to. -/
def sectionFaults : Value → (declared : Fields) → (dotted : String) → List Fault
  | .dict entries, declared, dotted =>
    keyFaults (prefixPath dotted) declared entries ++ entryFaults entries declared dotted
  | _, _, dotted => [.notMapping (prefixPath dotted)]

def entryFaults : List (Key × Value) → (declared : Fields) → (dotted : String) → List Fault
  | [], _, _ => []
  | (key, value) :: entries, declared, dotted =>
    (match key.name, value with
    | some name, .dict _ =>
      match declared.typeOf name with
      | some (.dataclass inner) => sectionFaults value inner (dotted ++ name ++ ".")
      | _ => []
    | _, _ => []) ++ entryFaults entries declared dotted

end

mutual

/-- What `_convert` comes to. -/
def typeFaults : (type : FieldType) → Value → String → List Fault
  | .str, value, path => if (readText value).isSome then [] else [.misfit .notString path value]
  | .int, value, path =>
    match value with
    | .int _ => []
    | value => [.misfit .notInteger path value]
  | .bool, value, path =>
    match value with
    | .bool _ => []
    | value => [.misfit .notTrueOrFalse path value]
  | .enum type, value, path =>
    if ((readText value).bind fun text => type.members.find? fun member => type.value member = text).isSome
    then [] else [.misfit (.notOneOf (type.members.map type.value)) path value]
  | .tuple item, value, path =>
    match value with
    | .null => []
    | .list items | .tuple items => items.zipIdx.flatMap fun item' =>
      typeFaults item item'.1 (itemPath path item'.2)
    | _ => [.notList path]
  | .optional inner, value, path =>
    match value with
    | .null => []
    | value => typeFaults inner value path
  | .dataclass declared, value, path =>
    match value with
    | .dict raw => keyFaults path declared raw ++ fieldFaults declared raw path
    | _ => [.notMapping path]

def fieldFaults : (declared : Fields) → List (Key × Value) → String → List Fault
  | .nil, _, _ => []
  | .cons name type rest, raw, path =>
    (match raw.lookup (.text name) with
    | none => []
    | some value => typeFaults type value (fieldPath path name)) ++ fieldFaults rest raw path

end

/-- The faults of a document: those of its sections, key by key, and then those of the declared
fields, in order. -/
def Value.faults (document : Value) : List Fault :=
  sectionFaults document (InstallerConfig.fields.discard "credentials") "" ++
    typeFaults (.dataclass InstallerConfig.fields) document ""

/-- What is not accepted is refused with a `ConfigurationError`, and undeclared keys with the path of
their section unless something else comes first. -/
structure Value.IsRefusedWell (document : Value) : Prop where
  refused : ∀ error, loadDocument document = .error error → error.isConfigurationError
  reported : ∀ path keys, document.faults.head? = some (.undeclared path keys) →
    ∃ names, keys = names.map .text ∧
      loadDocument document = .error (.unknownKeys path (sorted names))
  accepted : ∀ config, loadDocument document = .ok config → document.faults = []

/-! ## The first fault -/

/-- The first fault is raised, and without a fault there is such a value. -/
def EndsAt {α : Type} (faults : List Fault) (property : α → Prop) (result : Except DocumentError α) :
    Prop :=
  match faults with
  | [] => ∃ value, result = .ok value ∧ property value
  | fault :: _ => result = .error fault.error

section

variable {α β : Type} {faults faults' : List Fault} {property : α → Prop} {property' : β → Prop}

theorem EndsAt.bind {result : Except DocumentError α} {f : α → Except DocumentError β}
    (h : EndsAt faults property result)
    (h' : ∀ value, property value → EndsAt faults' property' (f value)) :
    EndsAt (faults ++ faults') property' (result >>= f) := by
  cases faults with
  | nil =>
    obtain ⟨value, rfl, hvalue⟩ := h
    exact h' value hvalue
  | cons fault faults =>
    obtain rfl : result = .error fault.error := h
    exact (rfl : Except.error _ = _)

theorem EndsAt.map {result : Except DocumentError α} {f : α → β} (h : EndsAt faults property result)
    (h' : ∀ value, property value → property' (f value)) : EndsAt faults property' (f <$> result) := by
  cases faults with
  | nil =>
    obtain ⟨value, rfl, hvalue⟩ := h
    exact ⟨f value, rfl, h' value hvalue⟩
  | cons fault faults =>
    obtain rfl : result = .error fault.error := h
    exact (rfl : Except.error _ = _)

theorem endsAt_keyFaults {path : String} {declared : Fields} {entries : List (Key × Value)}
    {result : Except DocumentError α}
    (h : undeclaredKeys declared entries = [] → EndsAt faults property result) :
    EndsAt (keyFaults path declared entries ++ faults) property
      (if undeclaredKeys declared entries = [] then result
      else .error (unknownKeysError path (undeclaredKeys declared entries))) := by
  rw [keyFaults]
  split
  · next hnone => exact h hnone
  · exact (rfl : Except.error _ = _)

end

/-! ### Conversions -/

theorem endsAt_pure {α : Type} {value : α} {missing : List String} :
    EndsAt [] (fun _ => True) ((pure value : Building α).run missing) :=
  ⟨(value, missing), rfl, trivial⟩

theorem endsAt_throw {α : Type} {fault : Fault} {missing : List String} :
    EndsAt [fault] (fun _ => True) ((throw fault.error : Building α).run missing) :=
  (rfl : Except.error _ = _)

section

variable {α β : Type} {faults faults' : List Fault} {missing : List String}

theorem EndsAt.run_bind {building : Building α} {f : α → Building β}
    (h : EndsAt faults (fun _ => True) (building.run missing))
    (h' : ∀ value missing, EndsAt faults' (fun _ => True) ((f value).run missing)) :
    EndsAt (faults ++ faults') (fun _ => True) ((building >>= f).run missing) := by
  rw [StateT.run_bind]
  exact h.bind fun value _ => h' value.1 value.2

theorem EndsAt.run_map {building : Building α} {f : α → β}
    (h : EndsAt faults (fun _ => True) (building.run missing)) :
    EndsAt faults (fun _ => True) ((f <$> building).run missing) := by
  rw [StateT.run_map]
  exact h.map fun _ _ => trivial

end

theorem endsAt_convertItems {α : Type} {convertItem : Value → String → Building (Option α)}
    {itemFaults : Value → String → List Fault} {path : String}
    (h : ∀ value path missing,
      EndsAt (itemFaults value path) (fun _ => True) ((convertItem value path).run missing))
    (items : List Value) : ∀ (index : Nat) (missing : List String),
      EndsAt ((items.zipIdx index).flatMap fun item => itemFaults item.1 (itemPath path item.2))
        (fun _ => True) ((convertItems convertItem path items index).run missing) := by
  induction items with
  | nil => exact fun _ _ => endsAt_pure
  | cons item items ih =>
    intro index missing
    rw [List.zipIdx_cons, List.flatMap_cons, convertItems]
    refine (h item _ missing).run_bind fun first missing => ?_
    rw [← List.append_nil (List.flatMap _ _)]
    exact (ih _ missing).run_bind fun rest missing => endsAt_pure

mutual

/-- A conversion raises the first fault that it comes to. -/
theorem convert_endsAt : ∀ (type : FieldType) (value : Value) (path : String) (missing : List String),
    EndsAt (typeFaults type value path) (fun _ => True) ((convert type value path).run missing)
  | .str, value, path, missing => by
    rw [typeFaults, convert]
    cases readText value with
    | none => exact @endsAt_throw _ (.misfit .notString path value) _
    | some text => exact endsAt_pure
  | .int, value, path, missing => by
    cases value with
    | int number =>
      rw [typeFaults, convert]
      exact endsAt_pure
    | _ =>
      simp only [typeFaults, convert]
      exact @endsAt_throw _ (.misfit .notInteger path _) _
  | .bool, value, path, missing => by
    cases value with
    | bool truth =>
      rw [typeFaults, convert]
      exact endsAt_pure
    | _ =>
      simp only [typeFaults, convert]
      exact @endsAt_throw _ (.misfit .notTrueOrFalse path _) _
  | .enum type, value, path, missing => by
    rw [typeFaults, convert]
    cases (readText value).bind fun text => type.members.find? fun member => type.value member = text with
    | none => exact @endsAt_throw _ (.misfit (.notOneOf _) path value) _
    | some member => exact endsAt_pure
  | .tuple item, value, path, missing => by
    cases value with
    | null =>
      rw [typeFaults, convert]
      exact endsAt_pure
    | list items | tuple items =>
      rw [typeFaults, convert]
      exact endsAt_convertItems (convert_endsAt item) items 0 missing
    | _ =>
      simp only [typeFaults, convert]
      exact @endsAt_throw _ (.notList path) _
  | .optional inner, value, path, missing => by
    cases value with
    | null =>
      rw [typeFaults, convert]
      exact endsAt_pure
    | _ =>
      simp only [typeFaults, convert]
      rw [← List.append_nil (typeFaults _ _ _)]
      exact (convert_endsAt inner _ path missing).run_bind fun _ _ => endsAt_pure
  | .dataclass declared, value, path, missing => by
    cases value with
    | dict raw =>
      rw [typeFaults, convert, apply_ite (fun building => StateT.run building missing)]
      exact endsAt_keyFaults fun _ => buildFields_endsAt declared raw path missing
    | _ =>
      simp only [typeFaults, convert]
      exact @endsAt_throw _ (.notMapping path) _

theorem buildFields_endsAt : ∀ (declared : Fields) (raw : List (Key × Value)) (path : String)
    (missing : List String), EndsAt (fieldFaults declared raw path) (fun _ => True)
      ((buildFields declared raw path).run missing)
  | .nil, _, _, _ => by
    rw [fieldFaults, buildFields]
    exact endsAt_pure
  | .cons name type rest, raw, path, missing => by
    have hrest : ∀ (argument : Option type.Value) missing,
        EndsAt (fieldFaults rest raw path) (fun _ => True) ((do
          let arguments ← buildFields rest raw path
          return do return (← argument, ← arguments) :
            Building (Option (Fields.cons name type rest).Value)).run missing) := by
      intro argument missing
      rw [← List.append_nil (fieldFaults _ _ _)]
      exact (buildFields_endsAt rest raw path missing).run_bind fun _ _ => endsAt_pure
    rw [fieldFaults, buildFields]
    cases raw.lookup (.text name) with
    | none => exact EndsAt.run_bind ⟨_, rfl, trivial⟩ hrest
    | some value => exact (convert_endsAt type value _ missing).run_bind hrest

end

/-! ### The file's sections -/

/-- A value of the file, with the names of its path inside a section. -/
structure Leaf where
  path : String
  names : List String
  value : Value

def Leaf.within (name : String) (leaf : Leaf) : Leaf := { leaf with names := name :: leaf.names }

def Leaf.entry (leaf : Leaf) : String × Value := (leaf.path, leaf.value)

/-- The values of a section, and its entries but for the sections that have no value. -/
inductive Flattens :
    List (Key × Value) → Fields → String → List Leaf → List (Key × Value) → Prop
  | nil {declared : Fields} {dotted : String} : Flattens [] declared dotted [] []
  | value {name : String} {value : Value} {entries pruned : List (Key × Value)} {declared : Fields}
      {dotted : String} {leaves : List Leaf} (declares : name ∈ declared.names)
      (fresh : .text name ∉ entries.map Prod.fst)
      (isValue : ∀ inner inside, declared.typeOf name = some (.dataclass inner) → value ≠ .dict inside)
      (rest : Flattens entries declared dotted leaves pruned) :
      Flattens ((.text name, value) :: entries) declared dotted
        (⟨dotted ++ name, [name], value⟩ :: leaves) ((.text name, value) :: pruned)
  | group {name : String} {inside entries pruned pruned' : List (Key × Value)}
      {declared inner : Fields} {dotted : String} {leaves leaves' : List Leaf}
      (declares : declared.typeOf name = some (.dataclass inner))
      (fresh : .text name ∉ entries.map Prod.fst)
      (within : Flattens inside inner (dotted ++ name ++ ".") leaves' pruned')
      (rest : Flattens entries declared dotted leaves pruned) :
      Flattens ((.text name, .dict inside) :: entries) declared dotted
        (leaves'.map (Leaf.within name) ++ leaves)
        (if leaves'.isEmpty then pruned else (.text name, .dict pruned') :: pruned)

section

variable {name dotted : String} {value : Value} {inside entries : List (Key × Value)}
  {declared inner : Fields}

theorem entryFaults_group (h : declared.typeOf name = some (.dataclass inner)) :
    entryFaults ((.text name, .dict inside) :: entries) declared dotted =
      sectionFaults (.dict inside) inner (dotted ++ name ++ ".") ++ entryFaults entries declared dotted := by
  rw [entryFaults.eq_def]
  simp only [Key.name, h]

theorem entryFaults_value
    (h : ∀ inner inside, declared.typeOf name = some (.dataclass inner) → value ≠ .dict inside) :
    entryFaults ((.text name, value) :: entries) declared dotted = entryFaults entries declared dotted := by
  rw [entryFaults.eq_def]
  cases value with
  | dict inside =>
    simp only [Key.name]
    split
    · next inner htype => exact absurd rfl (h inner inside htype)
    · rfl
  | _ => rfl

theorem flattenEntries_group (h : declared.typeOf name = some (.dataclass inner)) :
    flattenEntries ((.text name, .dict inside) :: entries) declared dotted = (do
      let first ← flatten (.dict inside) inner (dotted ++ name ++ ".")
      let rest ← flattenEntries entries declared dotted
      return first ++ rest) := by
  rw [flattenEntries.eq_def]
  simp only [Key.name, h]

theorem flattenEntries_value
    (h : ∀ inner inside, declared.typeOf name = some (.dataclass inner) → value ≠ .dict inside) :
    flattenEntries ((.text name, value) :: entries) declared dotted =
      ((dotted ++ name, value) :: ·) <$> flattenEntries entries declared dotted := by
  rw [flattenEntries.eq_def]
  simp only [Key.name]
  cases flattenEntries entries declared dotted <;> rfl

theorem undeclaredKeys_eq_nil_iff : undeclaredKeys declared entries = [] ↔
    ∀ key ∈ entries.map Prod.fst, ∃ name, key = .text name ∧ name ∈ declared.names := by
  rw [undeclaredKeys, List.filter_eq_nil_iff]
  refine forall₂_congr fun key _ => ?_
  cases key <;> simp [Key.name]

theorem undeclaredKeys_cons_eq_nil {key : Key} :
    undeclaredKeys declared ((key, value) :: entries) = [] ↔
      (∃ name, key = .text name ∧ name ∈ declared.names) ∧ undeclaredKeys declared entries = [] := by
  rw [undeclaredKeys_eq_nil_iff, undeclaredKeys_eq_nil_iff, List.map_cons, List.forall_mem_cons]

end

mutual

/-- A section of the file is flattened, or its first fault is raised. -/
theorem flatten_endsAt : ∀ (value : Value) (declared : Fields) (dotted : String), value.namesDiffer →
    EndsAt (sectionFaults value declared dotted)
      (fun values => ∃ entries leaves pruned, value = .dict entries ∧
        Flattens entries declared dotted leaves pruned ∧ values = leaves.map Leaf.entry)
      (flatten value declared dotted)
  | .dict entries, declared, dotted, h => by
    rw [sectionFaults, flatten]
    refine endsAt_keyFaults fun hnone => ?_
    rw [Value.namesDiffer] at h
    rw [← id_map (flattenEntries entries declared dotted)]
    refine (flattenEntries_endsAt entries declared dotted hnone h).map ?_
    rintro values ⟨leaves, pruned, hflattens, hvalues⟩
    exact ⟨entries, leaves, pruned, rfl, hflattens, hvalues⟩
  | .null, _, _, _ | .bool _, _, _, _ | .int _, _, _, _ | .float _, _, _, _ | .str _, _, _, _
  | .list _, _, _, _ | .tuple _, _, _, _ | .other _, _, _, _ => by
    simp only [sectionFaults, flatten]
    exact (rfl : Except.error _ = _)

theorem flattenEntries_endsAt : ∀ (entries : List (Key × Value)) (declared : Fields)
    (dotted : String), undeclaredKeys declared entries = [] → entriesNamesDiffer entries →
      EndsAt (entryFaults entries declared dotted)
        (fun values => ∃ leaves pruned, Flattens entries declared dotted leaves pruned ∧
          values = leaves.map Leaf.entry) (flattenEntries entries declared dotted)
  | [], _, _, _, _ => by
    rw [entryFaults, flattenEntries]
    exact ⟨[], rfl, [], [], .nil, rfl⟩
  | (key, value) :: entries, declared, dotted, hunknown, hdiffer => by
    obtain ⟨⟨name, rfl, hname⟩, hnone⟩ := undeclaredKeys_cons_eq_nil.mp hunknown
    simp only [entriesNamesDiffer, Bool.and_eq_true, Key.name, Option.any_some, Bool.not_eq_true',
      List.contains_eq_mem, decide_eq_false_iff_not] at hdiffer
    obtain ⟨⟨hfresh, hdiffer⟩, hdiffers⟩ := hdiffer
    have hrest := flattenEntries_endsAt entries declared dotted hnone hdiffers
    by_cases hgroup : ∃ inner inside, declared.typeOf name = some (.dataclass inner) ∧
      value = .dict inside
    · obtain ⟨inner, inside, htype, rfl⟩ := hgroup
      rw [entryFaults_group htype, flattenEntries_group htype]
      refine (flatten_endsAt (.dict inside) inner (dotted ++ name ++ ".") hdiffer).bind ?_
      rintro _ ⟨_, leaves', pruned', heq, hinside, rfl⟩
      cases heq
      refine hrest.map ?_
      rintro _ ⟨leaves, pruned, hflattens, rfl⟩
      refine ⟨_, _, .group htype hfresh hinside hflattens, ?_⟩
      rw [List.map_append, List.map_map]
      rfl
    · have hvalue : ∀ inner inside, declared.typeOf name = some (.dataclass inner) →
          value ≠ .dict inside := fun inner inside htype heq => hgroup ⟨inner, inside, htype, heq⟩
      rw [entryFaults_value hvalue, flattenEntries_value hvalue]
      refine hrest.map ?_
      rintro _ ⟨leaves, pruned, hflattens, rfl⟩
      exact ⟨_, _, .value hname hfresh hvalue hflattens, rfl⟩

end

/-! ### Nesting again -/

/-- `_nested`'s loop over values of a section. -/
def nestLeaves (leaves : List Leaf) (entries : List (Key × Value)) :
    Except DocumentError (List (Key × Value)) :=
  leaves.foldlM (fun nested leaf => insertAt leaf.path leaf.value leaf.names nested) entries

section

variable {name : String} {value : Value} {entries : List (Key × Value)}

theorem setName_of_not_mem (h : .text name ∉ entries.map Prod.fst) :
    setName name value entries = entries ++ [(.text name, value)] := by
  induction entries with
  | nil => rfl
  | cons entry entries ih =>
    rw [List.map_cons, List.mem_cons, not_or] at h
    rw [setName, if_neg (Ne.symm h.1), ih h.2, List.cons_append]

theorem setName_append (h : .text name ∉ entries.map Prod.fst) {value' : Value} :
    setName name value' (entries ++ [(.text name, value)]) = entries ++ [(.text name, value')] := by
  induction entries with
  | nil => rw [List.nil_append, List.nil_append, setName, if_pos rfl]
  | cons entry entries ih =>
    rw [List.map_cons, List.mem_cons, not_or] at h
    rw [List.cons_append, List.cons_append, setName, if_neg (Ne.symm h.1), ih h.2]

theorem lookup_eq_none_of_not_mem {key : Key} (h : key ∉ entries.map Prod.fst) :
    entries.lookup key = none := by
  rw [List.lookup_eq_none_iff]
  intro entry hentry
  have hne : key ≠ entry.1 := by
    rintro rfl
    exact h (List.mem_map_of_mem hentry)
  simpa using hne

theorem subsection_append (h : .text name ∉ entries.map Prod.fst) {inner : List (Key × Value)} :
    subsection name (entries ++ [(.text name, .dict inner)]) = some inner := by
  have hlookup : (entries ++ [(Key.text name, Value.dict inner)]).lookup (.text name) =
      some (.dict inner) := by
    rw [List.lookup_append, lookup_eq_none_of_not_mem h]
    simp
  rw [subsection, hlookup]

theorem insertAt_of_subsection {inner : List (Key × Value)} (h : subsection name entries = some inner)
    {settingPath : String} {names : List String} (hnames : names ≠ []) :
    insertAt settingPath value (name :: names) entries =
      (fun inner => setName name (.dict inner) entries) <$> insertAt settingPath value names inner := by
  obtain ⟨name', names, rfl⟩ := List.exists_cons_of_ne_nil hnames
  rw [insertAt]
  · simp only [h]
    cases insertAt settingPath value (name' :: names) inner <;> rfl
  · simp

/-- Values of a section that is the last one so far. -/
theorem nestLeaves_within (h : .text name ∉ entries.map Prod.fst) {leaves : List Leaf}
    (hnames : ∀ leaf ∈ leaves, leaf.names ≠ []) : ∀ inner,
      nestLeaves (leaves.map (Leaf.within name)) (entries ++ [(.text name, .dict inner)]) =
        (fun inner => entries ++ [(.text name, .dict inner)]) <$> nestLeaves leaves inner := by
  induction leaves with
  | nil => exact fun _ => rfl
  | cons leaf leaves ih =>
    intro inner
    rw [List.forall_mem_cons] at hnames
    obtain ⟨hne, hnames⟩ := hnames
    have hinsert : insertAt leaf.path leaf.value (name :: leaf.names)
        (entries ++ [(.text name, .dict inner)]) =
          (fun inner => entries ++ [(.text name, .dict inner)]) <$>
            insertAt leaf.path leaf.value leaf.names inner := by
      rw [insertAt_of_subsection (subsection_append h) hne]
      exact congrArg (· <$> _) (funext fun inner' => setName_append h)
    rw [nestLeaves, List.map_cons, List.foldlM_cons, nestLeaves, List.foldlM_cons]
    change insertAt leaf.path leaf.value (name :: leaf.names) _ >>= nestLeaves (leaves.map _) =
      _ <$> (insertAt leaf.path leaf.value leaf.names inner >>= nestLeaves leaves)
    rw [hinsert]
    cases insertAt leaf.path leaf.value leaf.names inner with
    | error error => rfl
    | ok inner' => exact ih hnames inner'

/-- Values of a section that is not there yet. -/
theorem nestLeaves_within_new (h : .text name ∉ entries.map Prod.fst) {leaves : List Leaf}
    (hnames : ∀ leaf ∈ leaves, leaf.names ≠ []) {inner : List (Key × Value)}
    (hinner : nestLeaves leaves [] = .ok inner) :
    nestLeaves (leaves.map (Leaf.within name)) entries =
      .ok (if leaves.isEmpty then entries else entries ++ [(.text name, .dict inner)]) := by
  cases leaves with
  | nil => rfl
  | cons leaf leaves =>
    have hlast := nestLeaves_within h hnames []
    rw [hinner] at hlast
    rw [List.forall_mem_cons] at hnames
    refine Eq.trans ?_ hlast
    have hnew : subsection name entries = some [] := by rw [subsection, lookup_eq_none_of_not_mem h]
    rw [nestLeaves, List.map_cons, List.foldlM_cons, nestLeaves, List.foldlM_cons]
    refine congrArg (· >>= _) ?_
    change insertAt leaf.path leaf.value (name :: leaf.names) _ =
      insertAt leaf.path leaf.value (name :: leaf.names) _
    rw [insertAt_of_subsection hnew hnames.1, insertAt_of_subsection (subsection_append h) hnames.1]
    exact congrArg (· <$> _) (funext fun inner' =>
      (setName_of_not_mem h).trans (setName_append h).symm)

end

namespace Flattens

variable {entries pruned : List (Key × Value)} {declared : Fields} {dotted : String}
  {leaves : List Leaf}

/-- The first name of a value's path is a key. -/
theorem names (h : Flattens entries declared dotted leaves pruned) : ∀ leaf ∈ leaves,
    ∃ name rest, leaf.names = name :: rest ∧ .text name ∈ entries.map Prod.fst := by
  induction h with
  | nil => simp
  | value declares fresh isValue rest ih =>
    rw [List.forall_mem_cons]
    refine ⟨⟨_, _, rfl, List.mem_cons_self⟩, fun leaf hleaf => ?_⟩
    obtain ⟨name', names, hnames, hmem⟩ := ih leaf hleaf
    exact ⟨name', names, hnames, List.mem_cons_of_mem _ hmem⟩
  | group declares fresh within rest _ ih =>
    intro leaf hleaf
    rcases List.mem_append.mp hleaf with hleaf | hleaf
    · obtain ⟨leaf', -, rfl⟩ := List.mem_map.mp hleaf
      exact ⟨_, _, rfl, List.mem_cons_self⟩
    · obtain ⟨name', names, hnames, hmem⟩ := ih leaf hleaf
      exact ⟨name', names, hnames, List.mem_cons_of_mem _ hmem⟩

theorem names_ne_nil (h : Flattens entries declared dotted leaves pruned) :
    ∀ leaf ∈ leaves, leaf.names ≠ [] := by
  intro leaf hleaf
  obtain ⟨name, rest, hnames, -⟩ := h.names leaf hleaf
  rw [hnames]
  exact List.cons_ne_nil _ _

theorem apart_append {name : String} {value : Value} {before : List (Key × Value)}
    (h : ∀ key ∈ entries.map Prod.fst, key ∉ before.map Prod.fst)
    (hfresh : .text name ∉ entries.map Prod.fst) :
    ∀ key ∈ entries.map Prod.fst, key ∉ (before ++ [(Key.text name, value)]).map Prod.fst := by
  intro key hkey hmem
  rw [List.map_append, List.mem_append] at hmem
  rcases hmem with hmem | hmem
  · exact h key hkey hmem
  · rw [List.mem_singleton.mp hmem] at hkey
    exact hfresh hkey

/-- **Nesting gives the entries back**, but for the sections without values. -/
theorem nestLeaves (h : Flattens entries declared dotted leaves pruned) :
    ∀ {before : List (Key × Value)}, (∀ key ∈ entries.map Prod.fst, key ∉ before.map Prod.fst) →
      nestLeaves leaves before = .ok (before ++ pruned) := by
  induction h with
  | nil => exact fun _ => by rw [List.append_nil]; rfl
  | @value name value entries pruned declared dotted leaves declares fresh isValue rest ih =>
    intro before hbefore
    rw [List.map_cons, List.forall_mem_cons] at hbefore
    rw [Yaml.nestLeaves, List.foldlM_cons]
    change Except.ok (setName name value before) >>= Yaml.nestLeaves leaves = _
    rw [setName_of_not_mem hbefore.1]
    refine (ih (apart_append hbefore.2 fresh)).trans ?_
    rw [List.append_assoc]
    rfl
  | @group name inside entries pruned pruned' declared inner dotted leaves leaves' declares fresh within
      rest ihwithin ih =>
    intro before hbefore
    rw [List.map_cons, List.forall_mem_cons] at hbefore
    have hwithin := nestLeaves_within_new hbefore.1 within.names_ne_nil (ihwithin (by simp))
    rw [List.nil_append] at hwithin
    rw [Yaml.nestLeaves, List.foldlM_append]
    change Yaml.nestLeaves (leaves'.map (Leaf.within name)) before >>= Yaml.nestLeaves leaves = _
    rw [hwithin]
    cases leaves' with
    | nil => exact ih hbefore.2
    | cons leaf leaves' =>
      refine (ih (apart_append hbefore.2 fresh)).trans ?_
      rw [List.isEmpty_cons, if_neg Bool.false_ne_true, List.append_assoc]
      rfl

theorem undeclaredKeys_eq_nil (h : Flattens entries declared dotted leaves pruned) :
    undeclaredKeys declared entries = [] := by
  induction h with
  | nil => rfl
  | value declares _ _ _ ih => exact undeclaredKeys_cons_eq_nil.mpr ⟨⟨_, rfl, declares⟩, ih⟩
  | @group name _ _ _ _ declared inner _ _ _ declares _ _ _ _ ih =>
    refine undeclaredKeys_cons_eq_nil.mpr ⟨⟨name, rfl, ?_⟩, ih⟩
    by_contra hname
    rw [Fields.typeOf_eq_none_iff.mpr hname] at declares
    cases declares

/-! The paths -/

theorem split_path (h : Flattens entries declared dotted leaves pruned) : ∀ (names : List String),
    dotted = dottedPrefix names → (∀ name ∈ names, isPlainName name) → declared.wellFormed →
      ∀ leaf ∈ leaves, split "." leaf.path = names ++ leaf.names := by
  induction h with
  | nil => simp
  | @value name value _ _ declared _ _ declares _ _ _ ih =>
    rintro names rfl hplain hformed
    rw [List.forall_mem_cons]
    refine ⟨?_, ih names rfl hplain hformed⟩
    obtain ⟨type, htype⟩ := Option.ne_none_iff_exists'.mp
      (fun hnone => Fields.typeOf_eq_none_iff.mp hnone declares)
    have hname := (Fields.wellFormed_typeOf hformed htype).2
    rw [← join_append_singleton]
    refine split_join '.' (by simp) fun name' hname' => ?_
    rcases List.mem_append.mp hname' with hname' | hname'
    · exact dot_not_mem (hplain name' hname')
    · exact dot_not_mem (List.mem_singleton.mp hname' ▸ hname)
  | @group name _ _ _ _ declared inner _ _ _ declares _ within _ ihwithin ih =>
    rintro names rfl hplain hformed leaf hleaf
    rcases List.mem_append.mp hleaf with hleaf | hleaf
    · obtain ⟨leaf', hleaf', rfl⟩ := List.mem_map.mp hleaf
      obtain ⟨hinner, hname⟩ := Fields.wellFormed_typeOf hformed declares
      rw [FieldType.wellFormed, Bool.and_eq_true] at hinner
      have hsplit := ihwithin (names ++ [name]) dottedPrefix_append_singleton.symm
        (fun name' hname' => (List.mem_append.mp hname').elim (hplain name')
          fun hlast => List.mem_singleton.mp hlast ▸ hname) hinner.2 leaf' hleaf'
      rw [List.append_assoc] at hsplit
      exact hsplit
    · exact ih names rfl hplain hformed leaf hleaf

theorem nodup_names (h : Flattens entries declared dotted leaves pruned) :
    (leaves.map Leaf.names).Nodup := by
  have hfirst : ∀ {name : String} {entries pruned : List (Key × Value)} {declared : Fields}
      {dotted : String} {leaves : List Leaf}, Flattens entries declared dotted leaves pruned →
        .text name ∉ entries.map Prod.fst → ∀ names, name :: names ∉ leaves.map Leaf.names := by
    intro name entries pruned declared dotted leaves h hfresh names hmem
    obtain ⟨leaf, hleaf, hnames⟩ := List.mem_map.mp hmem
    obtain ⟨name', rest, hcons, hkey⟩ := h.names leaf hleaf
    rw [hnames] at hcons
    cases hcons
    exact hfresh hkey
  induction h with
  | nil => exact List.nodup_nil
  | value _ fresh _ rest ih => exact List.nodup_cons.mpr ⟨hfirst rest fresh [], ih⟩
  | @group name _ _ _ _ _ _ _ leaves leaves' _ fresh _ rest ihwithin ih =>
    have hmap : (leaves'.map (Leaf.within name)).map Leaf.names = (leaves'.map Leaf.names).map (name :: ·) := by
      rw [List.map_map, List.map_map]
      rfl
    rw [List.map_append, hmap, List.nodup_append]
    refine ⟨ihwithin.map fun _ _ heq => (List.cons.inj heq).2, ih, fun names hnames names' hnames' => ?_⟩
    obtain ⟨rest', -, rfl⟩ := List.mem_map.mp hnames
    rintro rfl
    exact hfirst rest fresh rest' hnames'

/-! The faults -/

theorem keys_subset (h : Flattens entries declared dotted leaves pruned) :
    ∀ key ∈ pruned.map Prod.fst, key ∈ entries.map Prod.fst := by
  induction h with
  | nil => simp
  | value _ _ _ _ ih =>
    simp only [List.map_cons, List.mem_cons]
    exact fun key hkey => hkey.imp id (ih key)
  | @group _ _ _ _ _ _ _ _ _ leaves' _ _ _ _ _ ih =>
    intro key hkey
    rw [List.map_cons, List.mem_cons]
    cases leaves' with
    | nil => exact .inr (ih key hkey)
    | cons leaf leaves' =>
      rw [List.isEmpty_cons, if_neg Bool.false_ne_true, List.map_cons, List.mem_cons] at hkey
      exact hkey.imp id (ih key)

theorem pruned_eq_nil (h : Flattens entries declared dotted leaves pruned) (hleaves : leaves = []) :
    pruned = [] := by
  induction h with
  | nil => rfl
  | value => cases hleaves
  | group _ _ _ _ _ ih =>
    obtain ⟨hwithin, hleaves⟩ := List.append_eq_nil_iff.mp hleaves
    rw [List.map_eq_nil_iff.mp hwithin]
    exact ih hleaves

end Flattens

/-- The faults of a field's value, if it is there. -/
def fieldFault (type : FieldType) (found : Option Value) (path : String) : List Fault :=
  match found with
  | none => []
  | some value => typeFaults type value path

theorem fieldFaults_congr {raw raw' : List (Key × Value)} {path : String} {declared : Fields}
    (hformed : declared.wellFormed)
    (h : ∀ name type, declared.typeOf name = some type → ∀ path,
      fieldFault type (raw.lookup (.text name)) path = fieldFault type (raw'.lookup (.text name)) path) :
    fieldFaults declared raw path = fieldFaults declared raw' path := by
  have hcons : ∀ {name : String} {type : FieldType} {rest : Fields},
      (Fields.cons name type rest).wellFormed →
      (∀ name' type', (Fields.cons name type rest).typeOf name' = some type' → ∀ path,
        fieldFault type' (raw.lookup (.text name')) path =
          fieldFault type' (raw'.lookup (.text name')) path) →
      (rest.wellFormed → (∀ name' type', rest.typeOf name' = some type' → ∀ path,
        fieldFault type' (raw.lookup (.text name')) path =
          fieldFault type' (raw'.lookup (.text name')) path) →
        fieldFaults rest raw path = fieldFaults rest raw' path) →
      fieldFaults (.cons name type rest) raw path = fieldFaults (.cons name type rest) raw' path := by
    intro name type rest hformed h ih
    simp only [Fields.wellFormed, Bool.and_eq_true, Bool.not_eq_true', List.contains_eq_mem,
      decide_eq_false_iff_not] at hformed
    rw [fieldFaults, fieldFaults]
    refine congr (congrArg _ (h name type (by rw [Fields.typeOf, if_pos rfl]) _))
      (ih hformed.2 fun name' type' htype => h name' type' ?_)
    have hne : name ≠ name' := by
      rintro rfl
      rw [Fields.typeOf_eq_none_iff.mpr hformed.1.1.2] at htype
      cases htype
    rw [Fields.typeOf, if_neg hne, htype]
  induction declared using Fields.induction with
  | nil => rw [fieldFaults, fieldFaults]
  | leaf name type rest _ ih => exact hcons hformed h ih
  | group name inner rest _ ih => exact hcons hformed h ih

theorem lookup_text_cons {name name' : String} {value : Value} {entries : List (Key × Value)} :
    ((.text name', value) :: entries).lookup (.text name) =
      if name = name' then some value else entries.lookup (.text name) := by
  by_cases hname : name = name'
  · simp [hname]
  · rw [List.lookup_cons, beq_false_of_ne (fun heq => hname (Key.text.inj heq)), if_neg hname]

/-- What was left out has no faults. -/
theorem Flattens.fieldFault {entries pruned : List (Key × Value)} {declared : Fields} {dotted : String}
    {leaves : List Leaf} (h : Flattens entries declared dotted leaves pruned) :
    declared.wellFormed → ∀ name type, declared.typeOf name = some type → ∀ path,
      fieldFault type (entries.lookup (.text name)) path =
        fieldFault type (pruned.lookup (.text name)) path := by
  induction h with
  | nil => exact fun _ _ _ _ _ => rfl
  | value _ _ _ _ ih =>
    intro hformed name type htype path
    rw [lookup_text_cons, lookup_text_cons]
    split
    · rfl
    · exact ih hformed name type htype path
  | @group name' inside entries pruned pruned' declared inner _ _ leaves' declares fresh within rest
      ihwithin ih =>
    intro hformed name type htype path
    have hinner := (Fields.wellFormed_typeOf hformed declares).1
    rw [FieldType.wellFormed, Bool.and_eq_true] at hinner
    have hinside : ∀ path, typeFaults (.dataclass inner) (.dict inside) path =
        fieldFaults inner pruned' path := by
      intro path
      rw [typeFaults, keyFaults, if_pos within.undeclaredKeys_eq_nil, List.nil_append]
      exact fieldFaults_congr hinner.2 (ihwithin hinner.2)
    rw [lookup_text_cons]
    cases leaves' with
    | nil =>
      rw [List.isEmpty_nil, if_pos rfl]
      split
      · next hname =>
        subst hname
        rw [declares] at htype
        cases htype
        have hfields : ∀ declared, fieldFaults declared [] path = [] := by
          intro declared
          induction declared using Fields.induction with
          | nil => rw [fieldFaults]
          | leaf _ _ _ _ ih | group _ _ _ _ ih =>
            rw [fieldFaults, ih]
            rfl
        rw [lookup_eq_none_of_not_mem fun hmem => fresh (rest.keys_subset _ hmem)]
        exact (hinside path).trans (within.pruned_eq_nil rfl ▸ hfields inner)
      · exact ih hformed name type htype path
    | cons leaf leaves' =>
      rw [List.isEmpty_cons, if_neg Bool.false_ne_true, lookup_text_cons]
      split
      · next hname =>
        subst hname
        rw [declares] at htype
        cases htype
        have hundeclared : undeclaredKeys inner pruned' = [] :=
          undeclaredKeys_eq_nil_iff.mpr fun key hkey =>
            undeclaredKeys_eq_nil_iff.mp within.undeclaredKeys_eq_nil key (within.keys_subset key hkey)
        refine (hinside path).trans ?_
        rw [Yaml.fieldFault, typeFaults, keyFaults, if_pos hundeclared, List.nil_append]
      · exact ih hformed name type htype path

/-! ## The document -/

theorem typeOf_discard {name name' : String} {declared : Fields} :
    (declared.discard name).typeOf name' = if name' = name then none else declared.typeOf name' := by
  have hcons : ∀ {first : String} {type : FieldType} {rest : Fields},
      (rest.discard name).typeOf name' = (if name' = name then none else rest.typeOf name') →
        ((Fields.cons first type rest).discard name).typeOf name' =
          if name' = name then none else (Fields.cons first type rest).typeOf name' := by
    intro first type rest ih
    rw [Fields.discard, Fields.typeOf]
    by_cases hfirst : first = name
    · subst hfirst
      rw [if_pos rfl, ih]
      by_cases hname : name' = first
      · rw [if_pos hname, if_pos hname]
      · rw [if_neg hname, if_neg hname, if_neg (Ne.symm hname)]
    · rw [if_neg hfirst, Fields.typeOf, ih]
      by_cases hname : first = name'
      · subst hname
        rw [if_pos rfl, if_pos rfl, if_neg hfirst]
      · rw [if_neg hname, if_neg hname]
  induction declared using Fields.induction with
  | nil => simp [Fields.discard, Fields.typeOf]
  | leaf first type rest _ ih => exact hcons ih
  | group first inner rest _ ih => exact hcons ih

theorem mem_names_discard {name name' : String} {declared : Fields} :
    name' ∈ (declared.discard name).names ↔ name' ≠ name ∧ name' ∈ declared.names := by
  have hnames : ∀ declared : Fields, name' ∈ declared.names ↔ declared.typeOf name' ≠ none := by
    intro declared
    rw [ne_eq, Fields.typeOf_eq_none_iff, not_not]
  rw [hnames, hnames, typeOf_discard]
  by_cases hname : name' = name
  · rw [if_pos hname]
    exact iff_of_false (fun hne => hne rfl) fun hne => hne.1 hname
  · rw [if_neg hname]
    exact ⟨fun hne => ⟨hname, hne⟩, And.right⟩

theorem merge_of_apart {α : Type} {values : List (String × α)} (hnodup : (values.map Prod.fst).Nodup) :
    ∀ {entries : List (String × α)}, (∀ name ∈ values.map Prod.fst, name ∉ entries.map Prod.fst) →
      merge entries values = entries ++ values := by
  induction values with
  | nil => exact fun _ => (List.append_nil _).symm
  | cons value values ih =>
    intro entries hapart
    rw [List.map_cons, List.nodup_cons] at hnodup
    rw [List.map_cons, List.forall_mem_cons] at hapart
    change merge (assign value.1 value.2 entries) values = _
    rw [assign_of_not_mem hapart.1, ih hnodup.2, List.append_assoc]
    · rfl
    · intro name hname hmem
      rw [List.map_append, List.mem_append] at hmem
      rcases hmem with hmem | hmem
      · exact hapart.2 name hname hmem
      · rw [List.mem_singleton.mp hmem] at hname
        exact hnodup.1 hname

/-- The credentials of a file without any. -/
def noCredentials : Value :=
  .dict [(.text "luks_password", .str ""), (.text "user_password", .str ""),
    (.text "source_luks_password", .str "")]

theorem nested_noCredentials :
    nested (credentialPaths.map ((·, .str ""))) = .ok [(.text "credentials", noCredentials)] := by
  have hsplit : credentialPaths.map (split ".") = [["credentials", "luks_password"],
      ["credentials", "user_password"], ["credentials", "source_luks_password"]] := by decide
  simp only [credentialPaths, List.map_cons, List.map_nil, List.cons.injEq] at hsplit
  obtain ⟨hluks, huser, hsource, -⟩ := hsplit
  simp only [nested, nestFrom, credentialPaths, List.map_cons, List.map_nil, List.foldlM_cons,
    List.foldlM_nil, hluks, huser, hsource]
  rfl

section

variable {entries pruned : List (Key × Value)} {leaves : List Leaf}

/-- What a flattened file is nested to. -/
theorem nested_withCredentials
    (h : Flattens entries (InstallerConfig.fields.discard "credentials") "" leaves pruned) :
    nested (withCredentials (leaves.map Leaf.entry)) =
      .ok ((.text "credentials", noCredentials) :: pruned) := by
  have hsplit : ∀ leaf ∈ leaves, split "." leaf.path = leaf.names := by
    intro leaf hleaf
    exact h.split_path [] rfl (by simp) fileFields_under.formed leaf hleaf
  have hcredentials : .text "credentials" ∉ entries.map Prod.fst := by
    intro hmem
    obtain ⟨name, hname, hdeclared⟩ := undeclaredKeys_eq_nil_iff.mp h.undeclaredKeys_eq_nil _ hmem
    rw [← Key.text.inj hname] at hdeclared
    exact absurd hdeclared (by decide)
  have hnodup : ((leaves.map Leaf.entry).map Prod.fst).Nodup := by
    refine List.Nodup.of_map (split ".") ?_
    have hnames : ((leaves.map Leaf.entry).map Prod.fst).map (split ".") = leaves.map Leaf.names := by
      rw [List.map_map, List.map_map]
      exact List.map_congr_left hsplit
    rw [hnames]
    exact h.nodup_names
  have hapart : ∀ path ∈ (leaves.map Leaf.entry).map Prod.fst,
      path ∉ (credentialPaths.map ((·, Value.str ""))).map Prod.fst := by
    intro path hpath hmem
    obtain ⟨_, hentry, rfl⟩ := List.mem_map.mp hpath
    obtain ⟨leaf, hleaf, rfl⟩ := List.mem_map.mp hentry
    obtain ⟨name, rest, hnames, hkey⟩ := h.names leaf hleaf
    obtain ⟨_, hcredential, heq⟩ := List.mem_map.mp hmem
    obtain ⟨path, hpath, rfl⟩ := List.mem_map.mp hcredential
    have hfirst : ∀ path ∈ credentialPaths, (split "." path).head? = some "credentials" :=
      forall_mem_of_all (by decide)
    have hhead := hfirst path hpath
    rw [show path = leaf.path from heq, hsplit leaf hleaf, hnames, List.head?_cons] at hhead
    rw [Option.some.inj hhead] at hkey
    exact hcredentials hkey
  have hnest : ∀ {leaves : List Leaf}, (∀ leaf ∈ leaves, split "." leaf.path = leaf.names) →
      ∀ entries, nestFrom (leaves.map Leaf.entry) entries = nestLeaves leaves entries := by
    intro leaves hsplit
    induction leaves with
    | nil => exact fun _ => rfl
    | cons leaf leaves ih =>
      intro entries
      rw [List.forall_mem_cons] at hsplit
      rw [nestLeaves, List.foldlM_cons, ← hsplit.1]
      exact congrArg (_ >>= ·) (funext (ih hsplit.2))
  have happend : nested (credentialPaths.map ((·, Value.str "")) ++ leaves.map Leaf.entry) =
      nested (credentialPaths.map ((·, Value.str ""))) >>= nestFrom (leaves.map Leaf.entry) :=
    List.foldlM_append
  rw [withCredentials, merge_of_apart hnodup hapart, happend, nested_noCredentials]
  refine (hnest hsplit _).trans (h.nestLeaves fun key hkey hmem => ?_)
  rw [List.mem_singleton.mp hmem] at hkey
  exact hcredentials hkey

/-- **A document without faults in its sections is rebuilt with the faults that it has.** -/
theorem typeFaults_rebuilt
    (h : Flattens entries (InstallerConfig.fields.discard "credentials") "" leaves pruned) :
    typeFaults (.dataclass InstallerConfig.fields) (.dict ((.text "credentials", noCredentials) :: pruned))
      "" = typeFaults (.dataclass InstallerConfig.fields) (.dict entries) "" := by
  have hdeclared : ∀ key ∈ entries.map Prod.fst,
      ∃ name, key = .text name ∧ name ≠ "credentials" ∧ name ∈ InstallerConfig.fields.names := by
    intro key hkey
    obtain ⟨name, rfl, hname⟩ := undeclaredKeys_eq_nil_iff.mp h.undeclaredKeys_eq_nil key hkey
    exact ⟨name, rfl, mem_names_discard.mp hname⟩
  have hnone : undeclaredKeys InstallerConfig.fields entries = [] :=
    undeclaredKeys_eq_nil_iff.mpr fun key hkey => by
      obtain ⟨name, hname, -, hmem⟩ := hdeclared key hkey
      exact ⟨name, hname, hmem⟩
  have hnone' : undeclaredKeys InstallerConfig.fields
      ((.text "credentials", noCredentials) :: pruned) = [] := by
    refine undeclaredKeys_cons_eq_nil.mpr ⟨⟨_, rfl, by decide⟩, ?_⟩
    exact undeclaredKeys_eq_nil_iff.mpr fun key hkey =>
      undeclaredKeys_eq_nil_iff.mp hnone key (h.keys_subset key hkey)
  rw [typeFaults, typeFaults, keyFaults, keyFaults, if_pos hnone, if_pos hnone']
  refine fieldFaults_congr BySetting.installerFields_wellFormed fun name type htype path => ?_
  rw [lookup_text_cons]
  split
  · next hname =>
    subst hname
    have hlookup : entries.lookup (.text "credentials") = none := by
      refine lookup_eq_none_of_not_mem fun hmem => ?_
      obtain ⟨name, heq, hne, -⟩ := hdeclared _ hmem
      exact hne (Key.text.inj heq).symm
    have hcredentials : InstallerConfig.fields.typeOf "credentials" = some (.dataclass Credentials.fields) :=
      rfl
    rw [hcredentials] at htype
    cases htype
    rw [hlookup]
    rfl
  · next hname =>
    refine (h.fieldFault fileFields_under.formed name type ?_ path).symm
    rw [typeOf_discard, if_neg hname, htype]

end

/-! ## The claim's proof -/

theorem name_eq_some_iff {key : Key} {name : String} : key.name = some name ↔ key = .text name := by
  cases key <;> simp [Key.name]

theorem mapM_name_eq_some_iff {keys : List Key} {names : List String} :
    keys.mapM Key.name = some names ↔ keys = names.map .text := by
  induction keys generalizing names with
  | nil =>
    rw [List.mapM_nil, eq_comm (a := []), List.map_eq_nil_iff]
    exact Option.some_inj.trans eq_comm
  | cons key keys ih =>
    simp only [List.mapM_cons, Option.pure_def, Option.bind_eq_bind, Option.bind_eq_some_iff, ih,
      name_eq_some_iff, Option.some.injEq]
    constructor
    · rintro ⟨name, rfl, names, rfl, rfl⟩
      rfl
    · intro heq
      cases names with
      | nil => cases heq
      | cons name names =>
        obtain ⟨rfl, rfl⟩ := List.cons.inj heq
        exact ⟨name, rfl, names, rfl, rfl⟩

theorem unknownKeysError_cases (path : String) (keys : List Key) :
    (∃ names, keys = names.map .text ∧ unknownKeysError path keys = .unknownKeys path (sorted names)) ∨
      ((∃ key ∈ keys, key.name = none) ∧ unknownKeysError path keys = .typeError) := by
  rw [unknownKeysError]
  cases hnames : keys.mapM Key.name with
  | some names => exact .inl ⟨names, mapM_name_eq_some_iff.mp hnames, rfl⟩
  | none =>
    refine .inr ⟨?_, rfl⟩
    by_contra hall
    have htexts : keys = (keys.map fun key => key.name.getD "").map .text := by
      rw [List.map_map]
      refine (List.map_id keys).symm.trans (List.map_congr_left fun key hkey => ?_)
      obtain ⟨name, hname⟩ := Option.ne_none_iff_exists'.mp fun hnone => hall ⟨key, hkey, hnone⟩
      rw [Function.comp, hname, Option.getD_some, id, name_eq_some_iff.mp hname]
    rw [mapM_name_eq_some_iff.mpr htexts] at hnames
    cases hnames

/-- What the fault raises is a `ConfigurationError`, unless the fault slips. -/
theorem Fault.isConfigurationError_error {fault : Fault} :
    fault.error.isConfigurationError ↔ ¬ fault.Slips := by
  cases fault with
  | undeclared path keys =>
    rw [Fault.error, Fault.Slips]
    rcases unknownKeysError_cases path keys with ⟨names, rfl, herror⟩ | ⟨hslips, herror⟩
    · rw [herror]
      refine iff_of_true rfl ?_
      rintro ⟨key, hkey, hnone⟩
      obtain ⟨name, -, rfl⟩ := List.mem_map.mp hkey
      cases hnone
    · rw [herror]
      exact iff_of_false Bool.false_ne_true fun hnot => hnot hslips
  | misfit kind path value =>
    rw [Fault.error, Fault.Slips, misfitError]
    cases value.isPrintable with
    | true => exact iff_of_true rfl Bool.false_ne_true.symm
    | false => exact iff_of_false Bool.false_ne_true fun hnot => hnot rfl
  | notMapping path => exact iff_of_true rfl id
  | notList path => exact iff_of_true rfl id

/-- The conversion of the rebuilt document raises the first fault, and only settings can be missing
where there is none. -/
theorem loadDocument_eq (document : Document) : ∃ built,
    EndsAt document.value.faults (fun _ => True) built ∧
      loadDocument document.value = built >>= fun result => InstallerConfig.equiv <$> checkMissing result := by
  have hflatten := flatten_endsAt document.value (InstallerConfig.fields.discard "credentials") ""
    document.namesDiffer
  rw [Value.faults]
  cases hsections : sectionFaults document.value (InstallerConfig.fields.discard "credentials") "" with
  | cons fault faults =>
    rw [hsections] at hflatten
    refine ⟨.error fault.error, (rfl : Except.error _ = _), ?_⟩
    rw [loadDocument, configFileSettingValues, show flatten _ _ _ = .error fault.error from hflatten]
    rfl
  | nil =>
    rw [hsections] at hflatten
    obtain ⟨values, hvalues, entries, leaves, pruned, hdocument, hflattens, rfl⟩ := hflatten
    refine ⟨(convert (.dataclass InstallerConfig.fields)
      (.dict ((.text "credentials", noCredentials) :: pruned)) "").run [], ?_, ?_⟩
    · rw [List.nil_append, hdocument, ← typeFaults_rebuilt hflattens]
      exact convert_endsAt _ _ _ _
    · rw [loadDocument, configFileSettingValues, hvalues]
      change buildInstallerConfig _ = _
      rw [buildInstallerConfig, nested_withCredentials hflattens]
      rfl

/-- **A malformed document is refused with a `ConfigurationError`** if and only if its first fault is
neither a key that is no text nor a value with an integer of too many digits. -/
theorem isRefusedWell_iff (document : Document) :
    document.value.IsRefusedWell ↔ ∀ fault ∈ document.value.faults.head?, ¬ fault.Slips := by
  obtain ⟨built, hbuilt, hload⟩ := loadDocument_eq document
  cases hfaults : document.value.faults with
  | nil =>
    rw [hfaults] at hbuilt
    obtain ⟨result, rfl, -⟩ := hbuilt
    have hmissing : ∀ error, checkMissing result = .error error → error.isConfigurationError := by
      intro error herror
      obtain ⟨built, missing⟩ := result
      cases built <;> cases missing <;> cases herror <;> rfl
    refine iff_of_true ⟨fun error herror => ?_, fun path keys hhead => ?_, fun _ _ => hfaults⟩
      fun fault hfault => by cases hfault
    · have herror : InstallerConfig.equiv <$> checkMissing result = .error error := hload.symm.trans herror
      cases hcheck : checkMissing result with
      | error error' =>
        rw [hcheck] at herror
        cases herror
        exact hmissing _ hcheck
      | ok built =>
        rw [hcheck] at herror
        cases herror
    · rw [hfaults] at hhead
      cases hhead
  | cons fault faults =>
    rw [hfaults] at hbuilt
    obtain rfl : built = .error fault.error := hbuilt
    have hload : loadDocument document.value = .error fault.error := hload
    rw [List.head?_cons]
    constructor
    · rintro h _ ⟨⟩
      exact Fault.isConfigurationError_error.mp (h.refused _ hload)
    · intro h
      have hslips := h fault rfl
      refine ⟨fun error herror => ?_, fun path keys hhead => ?_, fun config hok => ?_⟩
      · rw [hload] at herror
        cases herror
        exact Fault.isConfigurationError_error.mpr hslips
      · rw [hfaults, List.head?_cons, Option.some.injEq] at hhead
        subst hhead
        rcases unknownKeysError_cases path keys with ⟨names, hnames, herror⟩ | ⟨hslip, -⟩
        · exact ⟨names, hnames, hload.trans (congrArg Except.error herror)⟩
        · exact absurd hslip hslips
      · rw [hload] at hok
        cases hok

/-- A file with the key `on`, which YAML reads as `True`. -/
def switchDocument : Document where
  value := .dict [(.bool true, .str "x")]
  namesDiffer := by decide

theorem not_isRefusedWell : ¬ ∀ document : Document, document.value.IsRefusedWell := by
  intro h
  have herror : loadDocument switchDocument.value = .error .typeError := rfl
  exact absurd ((h switchDocument).refused _ herror) Bool.false_ne_true

end ArchInstaller.Yaml
