import ArchInstaller.Python.Data
import ArchInstaller.Python.Paths

/-! # Nested mappings by path

A nested mapping says of a path of names what stands there: a mapping, a leaf (any other value),
or nothing. Entries that are addressed by path say the same, a mapping being wherever something
stands below. -/

namespace PyData

open PyText

inductive Node where
  | mapping
  | leaf (value : PyValue)

def Node.of : PyValue → Node
  | .dict _ => mapping
  | value => leaf value

theorem Node.of_eq_leaf_iff {value value' : PyValue} :
    Node.of value = .leaf value' ↔ value = value' ∧ ∀ entries, value ≠ .dict entries := by
  cases value <;> simp [Node.of]

/-- What stands at a path. -/
abbrev View := List String → Option Node

/-- What stands below a name. -/
def View.under (view : View) (name : String) : View := fun path => view (name :: path)

@[simp] theorem View.under_apply {view : View} {name : String} {path : List String} :
    view.under name path = view (name :: path) := rfl

/-- What stands at a path and below. -/
def View.below (view : View) (path : List String) : View := fun rest => view (path ++ rest)

/-- The value at a path. -/
def valueAt : List String → PyValue → Option PyValue
  | [], value => some value
  | name :: path, .dict entries => (entries.lookup name).bind (valueAt path)
  | _ :: _, _ => none

def viewOf (value : PyValue) : View := fun path => (valueAt path value).map Node.of

@[simp] theorem viewOf_nil {value : PyValue} : viewOf value [] = some (Node.of value) := rfl

theorem viewOf_dict_cons {entries : List (String × PyValue)} {name : String} {path : List String} :
    viewOf (.dict entries) (name :: path) = (entries.lookup name).bind (viewOf · path) := by
  cases h : entries.lookup name <;> simp [viewOf, valueAt, h]

theorem viewOf_cons_eq_none {value : PyValue} (hvalue : ∀ entries, value ≠ .dict entries)
    {name : String} {path : List String} : viewOf value (name :: path) = none := by
  cases value with
  | dict entries => exact absurd rfl (hvalue entries)
  | _ => rfl

theorem under_viewOf_dict {entries : List (String × PyValue)} {name : String} {value : PyValue}
    (h : entries.lookup name = some value) : (viewOf (.dict entries)).under name = viewOf value := by
  funext path
  rw [View.under_apply, viewOf_dict_cons, h]
  rfl

theorem viewOf_dict_nil_cons {name : String} {path : List String} :
    viewOf (.dict []) (name :: path) = none := rfl

/-- What one entry says of a path: what its value says below the entry's own path, and a mapping
above. -/
def provides (entry : List String × PyValue) : View := fun path =>
  match below entry.1 path with
  | some rest => viewOf entry.2 rest
  | none => match below path entry.1 with
    | some _ => some .mapping
    | none => none

/-- What stands where the first entry that says something has it. -/
def View.ofEntries (entries : List (List String × PyValue)) : View := fun path =>
  entries.findSome? (provides · path)

theorem provides_cons_cons {name name' : String} {names path : List String} {value : PyValue} :
    provides (name :: names, value) (name' :: path) =
      if name' = name then provides (names, value) path else none := by
  by_cases hname : name' = name
  · simp [provides, below, hname]
  · simp [provides, below, hname, Ne.symm hname]

@[simp] theorem provides_cons_nil {name : String} {names : List String} {value : PyValue} :
    provides (name :: names, value) [] = some .mapping := rfl

@[simp] theorem provides_nil {value : PyValue} : provides ([], value) = viewOf value := rfl

/-- At its own path and below, an entry says what its value does. -/
@[simp] theorem provides_append {path rest : List String} {value : PyValue} :
    provides (path, value) (path ++ rest) = viewOf value rest := by
  simp [provides]

/-- An entry says something of every path on the way to it, and of its own path. -/
theorem provides_prefix_isSome (path rest : List String) (value : PyValue) :
    (provides (path ++ rest, value) path).isSome := by
  induction path with
  | nil => cases rest <;> simp [provides, below]
  | cons name path ih => simpa [provides_cons_cons] using ih

/-- Above its own path, an entry says that there is a mapping. -/
theorem provides_above {path rest : List String} {value : PyValue} (hrest : rest ≠ []) :
    provides (path ++ rest, value) path = some .mapping := by
  induction path with
  | nil =>
    obtain ⟨name, names, rfl⟩ := List.exists_cons_of_ne_nil hrest
    rfl
  | cons name path ih => simpa [provides_cons_cons] using ih

/-- An entry says something only of paths that lie above it or not above it. -/
theorem prefix_of_provides {entry : List String × PyValue} {path : List String} {node : Node}
    (h : provides entry path = some node) :
    (∃ rest, path = entry.1 ++ rest) ∨ (node = .mapping ∧ ∃ rest, rest ≠ [] ∧ entry.1 = path ++ rest) := by
  rw [provides] at h
  split at h
  · next rest hrest => exact .inl ⟨rest, eq_append_of_below hrest⟩
  · next hbelow =>
    split at h
    · next rest hrest =>
      have hpath := eq_append_of_below hrest
      refine .inr ⟨by simpa using h.symm, rest, ?_, hpath⟩
      rintro rfl
      rw [hpath, List.append_nil] at hbelow
      have hself := below_append path []
      rw [List.append_nil, hbelow] at hself
      cases hself
    · cases h

@[simp] theorem View.ofEntries_nil : View.ofEntries [] = fun _ => none := rfl

theorem View.ofEntries_append {entries entries' : List (List String × PyValue)}
    {path : List String} :
    View.ofEntries (entries ++ entries') path =
      (View.ofEntries entries path).or (View.ofEntries entries' path) :=
  List.findSome?_append

theorem View.ofEntries_singleton {entry : List String × PyValue} :
    View.ofEntries [entry] = provides entry := by
  funext path
  simp [View.ofEntries, List.findSome?_cons, List.findSome?_nil]
  cases provides entry path <;> rfl

theorem View.ofEntries_eq_none {entries : List (List String × PyValue)} {path : List String} :
    View.ofEntries entries path = none ↔ ∀ entry ∈ entries, provides entry path = none := by
  simp [View.ofEntries]

theorem valueAt_append {path rest : List String} {value : PyValue} :
    valueAt (path ++ rest) value = (valueAt path value).bind (valueAt rest) := by
  induction path generalizing value with
  | nil => rfl
  | cons name path ih =>
    cases value with
    | dict entries =>
      rw [List.cons_append, valueAt, valueAt]
      cases entries.lookup name with
      | none => rfl
      | some value => exact ih
    | _ => rfl

/-- Where an entry says nothing, it says nothing below. -/
theorem provides_append_eq_none {names path rest : List String} {value : PyValue}
    (h : provides (names, value) path = none) : provides (names, value) (path ++ rest) = none := by
  induction names generalizing path with
  | nil =>
    rw [provides_nil, viewOf, Option.map_eq_none_iff] at h
    rw [provides_nil, viewOf, valueAt_append, h]
    rfl
  | cons name names ih =>
    cases path with
    | nil => cases h
    | cons name' path =>
      rw [provides_cons_cons] at h
      rw [List.cons_append, provides_cons_cons]
      split
      · next hname => exact ih (by rwa [if_pos hname] at h)
      · rfl

/-! ## Putting values in place -/

/-- What stands at a path once a value is put at some names: what the value says there and below, and
mappings on the way to it. -/
def View.place (names : List String) (value : PyValue) (view : View) : View := fun path =>
  match PyText.below names path with
  | some rest => viewOf value rest
  | none => (view path).or (provides (names, value) path)

theorem View.place_nil {value : PyValue} {view : View} : view.place [] value = viewOf value := rfl

theorem View.place_cons_cons {name name' : String} {names path : List String} {value : PyValue}
    {view : View} : view.place (name :: names) value (name' :: path) =
      if name' = name then (view.under name).place names value path else view (name' :: path) := by
  by_cases hname : name' = name
  · subst hname
    simp [place, PyText.below, provides_cons_cons]
  · simp [place, PyText.below, provides_cons_cons, hname, Ne.symm hname]

theorem View.place_append {names rest : List String} {value : PyValue} {view : View} :
    view.place names value (names ++ rest) = viewOf value rest := by
  simp [place]

theorem View.place_self {names : List String} {value : PyValue} {view : View} :
    view.place names value names = some (Node.of value) := by
  have happend := @place_append names [] value view
  rwa [List.append_nil] at happend

/-- Elsewhere what stands there stays. -/
theorem View.place_of_not_prefix {names path : List String} {value : PyValue} {view : View}
    (h : ¬ names <+: path) :
    view.place names value path = (view path).or (provides (names, value) path) := by
  rw [place]
  cases hbelow : PyText.below names path with
  | none => rfl
  | some rest => exact absurd ⟨rest, (eq_append_of_below hbelow).symm⟩ h

/-- Nothing is lost where nothing stands at the names. -/
theorem View.place_of_free {names path : List String} {value : PyValue} {view : View}
    (h : ∀ rest, view (names ++ rest) = none) :
    view.place names value path = (view path).or (provides (names, value) path) := by
  by_cases hpre : names <+: path
  · obtain ⟨rest, rfl⟩ := hpre
    rw [place_append, h, Option.none_or, provides_append]
  · exact place_of_not_prefix hpre

theorem View.place_congr {names path : List String} {value : PyValue} {view view' : View}
    (h : view path = view' path) : view.place names value path = view'.place names value path := by
  rw [View.place, View.place, h]

/-- No entry stands where an earlier one says something. -/
def KeepsEntries (entries : List (List String × PyValue)) : Prop :=
  entries.Pairwise fun entry entry' => provides entry entry'.1 = none

instance {entries : List (List String × PyValue)} : Decidable (KeepsEntries entries) :=
  inferInstanceAs (Decidable (List.Pairwise _ entries))

end PyData
