import Mathlib.Data.List.Nodup
import Mathlib.Data.Rat.Defs

/-! # Python's plain data

The values that YAML and a program's own constants are made of, with Python's `==`, which crosses
types: `True == 1`, `4096 == 4096.0`, and a member of a `StrEnum` equals its text. A dictionary is
the list of its entries, in order. -/

namespace PyData

variable {α : Type}

/-- `entries[name] = value`. -/
def assign (name : String) (value : α) : List (String × α) → List (String × α)
  | [] => [(name, value)]
  | (name', value') :: entries =>
    if name' = name then (name', value) :: entries else (name', value') :: assign name value entries

@[simp] theorem lookup_assign_self {name : String} {value : α} {entries : List (String × α)} :
    (assign name value entries).lookup name = some value := by
  induction entries with
  | nil => simp [assign]
  | cons entry entries ih =>
    rw [assign]
    split
    · rename_i hname
      simp [hname]
    · rename_i hname
      rw [List.lookup_cons, beq_false_of_ne (Ne.symm hname)]
      exact ih

theorem lookup_assign_of_ne {name name' : String} {value : α} {entries : List (String × α)}
    (hne : name' ≠ name) : (assign name value entries).lookup name' = entries.lookup name' := by
  induction entries with
  | nil => simp [assign, List.lookup_cons, beq_false_of_ne hne]
  | cons entry entries ih =>
    rw [assign]
    split
    · rename_i hname
      rw [List.lookup_cons, List.lookup_cons, hname, beq_false_of_ne hne]
    · rw [List.lookup_cons, List.lookup_cons, ih]

theorem keys_assign {name : String} {value : α} {entries : List (String × α)} :
    (assign name value entries).map Prod.fst =
      if name ∈ entries.map Prod.fst then entries.map Prod.fst
      else entries.map Prod.fst ++ [name] := by
  induction entries with
  | nil => simp [assign]
  | cons entry entries ih =>
    obtain ⟨name', value'⟩ := entry
    rw [assign]
    by_cases hname : name' = name
    · simp [hname]
    · rw [if_neg hname, List.map_cons, ih]
      by_cases hmem : name ∈ entries.map Prod.fst
      · simp [hmem]
      · simp [hmem, Ne.symm hname]

theorem mem_keys_assign {name name' : String} {value : α} {entries : List (String × α)} :
    name' ∈ (assign name value entries).map Prod.fst ↔
      name' ∈ entries.map Prod.fst ∨ name' = name := by
  rw [keys_assign]
  split
  · next hmem => exact ⟨.inl, by rintro (h | rfl); exacts [h, hmem]⟩
  · rw [List.mem_append, List.mem_singleton]

theorem nodup_keys_assign {name : String} {value : α} {entries : List (String × α)}
    (h : (entries.map Prod.fst).Nodup) : ((assign name value entries).map Prod.fst).Nodup := by
  rw [keys_assign]
  split
  · exact h
  · next hname =>
    refine List.nodup_append.mpr ⟨h, List.nodup_singleton _, fun name' hname' _ hmem heq => hname ?_⟩
    rwa [← List.mem_singleton.mp hmem, ← heq]

theorem mem_of_lookup {name : String} {value : α} {entries : List (String × α)}
    (h : entries.lookup name = some value) : (name, value) ∈ entries := by
  obtain ⟨before, after, rfl, -⟩ := List.lookup_eq_some_iff.mp h
  exact List.mem_append_right before (.head after)

theorem eq_of_mem_of_lookup {name : String} {value value' : α} {entries : List (String × α)}
    (hnodup : (entries.map Prod.fst).Nodup) (hmem : (name, value) ∈ entries)
    (h : entries.lookup name = some value') : value = value' := by
  have heq := List.inj_on_of_nodup_map hnodup hmem (mem_of_lookup h) rfl
  exact congrArg Prod.snd heq

theorem lookup_of_mem {name : String} {value : α} {entries : List (String × α)}
    (hnodup : (entries.map Prod.fst).Nodup) (hmem : (name, value) ∈ entries) :
    entries.lookup name = some value := by
  cases hlookup : entries.lookup name with
  | none =>
    have := List.lookup_eq_none_iff.mp hlookup _ hmem
    simp at this
  | some value' => rw [eq_of_mem_of_lookup hnodup hmem hlookup]

/-- `{**entries, **values}`. -/
def merge (entries values : List (String × α)) : List (String × α) :=
  values.foldl (fun merged entry => assign entry.1 entry.2 merged) entries

theorem lookup_merge {entries values : List (String × α)} (h : (values.map Prod.fst).Nodup)
    (name : String) : (merge entries values).lookup name =
      (values.lookup name).or (entries.lookup name) := by
  induction values generalizing entries with
  | nil => rfl
  | cons entry values ih =>
    obtain ⟨name', value⟩ := entry
    rw [List.map_cons, List.nodup_cons] at h
    have hmerge : merge entries ((name', value) :: values) =
        merge (assign name' value entries) values := rfl
    rw [hmerge, ih h.2, List.lookup_cons]
    by_cases hname : name = name'
    · subst hname
      have hnone : values.lookup name = none := by
        rw [List.lookup_eq_none_iff]
        rintro entry hentry
        have hne : name ≠ entry.1 := by
          rintro rfl
          exact h.1 (List.mem_map.mpr ⟨entry, hentry, rfl⟩)
        simpa using hne
      simp [hnone]
    · rw [lookup_assign_of_ne hname, beq_false_of_ne hname]

theorem nodup_keys_merge {entries values : List (String × α)} (h : (entries.map Prod.fst).Nodup) :
    ((merge entries values).map Prod.fst).Nodup := by
  induction values generalizing entries with
  | nil => exact h
  | cons entry values ih => exact ih (nodup_keys_assign h)

theorem assign_of_not_mem {name : String} {value : α} {entries : List (String × α)}
    (h : name ∉ entries.map Prod.fst) : assign name value entries = entries ++ [(name, value)] := by
  induction entries with
  | nil => rfl
  | cons entry entries ih =>
    rw [List.map_cons, List.mem_cons, not_or] at h
    rw [assign, if_neg (Ne.symm h.1), ih h.2, List.cons_append]

/-- The entry keeps its place. -/
theorem assign_of_mem {name : String} {value : α} {entries : List (String × α)}
    (hnodup : (entries.map Prod.fst).Nodup) (h : name ∈ entries.map Prod.fst) :
    assign name value entries =
      entries.map fun entry => (entry.1, if entry.1 = name then value else entry.2) := by
  induction entries with
  | nil => cases h
  | cons entry entries ih =>
    rw [List.map_cons, List.nodup_cons] at hnodup
    rw [assign, List.map_cons]
    by_cases hname : entry.1 = name
    · have hrest : entries.map (fun entry => (entry.1, if entry.1 = name then value else entry.2)) =
          entries := by
        refine (List.map_congr_left fun entry' hentry' => ?_).trans (List.map_id _)
        have hne : entry'.1 ≠ name := by
          rintro rfl
          exact hnodup.1 (hname ▸ List.mem_map_of_mem hentry')
        rw [if_neg hne, id_eq]
      rw [if_pos hname, if_pos hname, hrest]
    · rw [if_neg hname, if_neg hname, ih hnodup.2]
      exact (List.mem_cons.mp h).resolve_left (Ne.symm hname)

/-- The entries keep their places, and new ones come behind them. -/
theorem merge_eq {entries values : List (String × α)} (h : (entries.map Prod.fst).Nodup)
    (h' : (values.map Prod.fst).Nodup) : merge entries values =
      (entries.map fun entry => (entry.1, (values.lookup entry.1).getD entry.2)) ++
        values.filter fun entry => entry.1 ∉ entries.map Prod.fst := by
  induction values generalizing entries with
  | nil => simp [merge]
  | cons value values ih =>
    obtain ⟨name, value⟩ := value
    rw [List.map_cons, List.nodup_cons] at h'
    have hnone : values.lookup name = none := by
      rw [List.lookup_eq_none_iff]
      intro entry hentry
      have hne : name ≠ entry.1 := by
        rintro rfl
        exact h'.1 (List.mem_map.mpr ⟨entry, hentry, rfl⟩)
      simpa using hne
    have hlookup : ∀ name', name' ≠ name →
        ((name, value) :: values).lookup name' = values.lookup name' := by
      intro name' hne
      rw [List.lookup_cons, beq_false_of_ne hne]
    have hmerge : merge entries ((name, value) :: values) = merge (assign name value entries) values :=
      rfl
    rw [hmerge, ih (nodup_keys_assign h) h'.2, keys_assign]
    by_cases hname : name ∈ entries.map Prod.fst
    · rw [assign_of_mem h hname, List.map_map, if_pos hname, List.filter_cons_of_neg (by simpa using hname)]
      congr 1
      refine List.map_congr_left fun entry _ => ?_
      by_cases heq : entry.1 = name
      · simp [heq, hnone]
      · simp [heq, hlookup _ heq]
    · rw [assign_of_not_mem hname, List.map_append, if_neg hname,
        List.filter_cons_of_pos (by simpa using hname), List.append_assoc]
      congr 1
      · refine List.map_congr_left fun entry hentry => ?_
        have hne : entry.1 ≠ name := by
          rintro rfl
          exact hname (List.mem_map_of_mem hentry)
        rw [hlookup _ hne]
      · have hfilter : values.filter (fun entry => entry.1 ∉ entries.map Prod.fst ++ [name]) =
            values.filter fun entry => entry.1 ∉ entries.map Prod.fst := by
          refine List.filter_congr fun entry hentry => ?_
          have hne : entry.1 ≠ name := by
            rintro rfl
            exact h'.1 (List.mem_map.mpr ⟨entry, hentry, rfl⟩)
          simp [hne]
        rw [hfilter]
        simp [hnone]

theorem mem_keys_merge {entries values : List (String × α)} {name : String} :
    name ∈ (merge entries values).map Prod.fst ↔
      name ∈ entries.map Prod.fst ∨ name ∈ values.map Prod.fst := by
  induction values generalizing entries with
  | nil => simp [merge]
  | cons entry values ih =>
    have hmerge : merge entries (entry :: values) = merge (assign entry.1 entry.2 entries) values :=
      rfl
    rw [hmerge, ih, mem_keys_assign, List.map_cons, List.mem_cons, or_assoc]

end PyData

/-- A float: any number, since `==` compares floats and integers by their exact value. -/
inductive PyFloat where
  | finite (value : Rat)
  | infinite (negative : Bool)
  | nan
  deriving DecidableEq

namespace PyFloat

def eq : PyFloat → PyFloat → Bool
  | finite value, finite value' => value = value'
  | infinite negative, infinite negative' => negative = negative'
  | _, _ => false

theorem eq_iff {x y : PyFloat} : x.eq y ↔ x = y ∧ x ≠ nan := by
  cases x <;> cases y <;> simp [eq]

end PyFloat

/-- Plain data. `member` is a member of some `StrEnum`, and `other` is data of a type that equals
no other type's, such as a date or bytes. -/
inductive PyValue where
  | none
  | bool (value : Bool)
  | int (value : Int)
  | float (value : PyFloat)
  | str (value : String)
  | member (value : String)
  | list (items : List PyValue)
  | tuple (items : List PyValue)
  | dict (entries : List (String × PyValue))
  | other (shown : String)

namespace PyValue

/-- The text of a `str`; the members of a `StrEnum` are `str` too. -/
def text : PyValue → Option String
  | str value | member value => some value
  | _ => .none

/-- The items of a `list` or a `tuple`. -/
def items : PyValue → Option (List PyValue)
  | list items | tuple items => some items
  | _ => .none

/-- The number that a value of a number's type compares as. -/
def number : PyValue → Option PyFloat
  | bool value => some (.finite (if value then 1 else 0))
  | int value => some (.finite value)
  | float value => some value
  | _ => .none

/-- `==` of values that are no containers. -/
def eqScalar (value value' : PyValue) : Bool :=
  match value.text, value'.text, value.number, value'.number with
  | some text, some text', _, _ => text = text'
  | _, _, some number, some number' => number.eq number'
  | _, _, _, _ => false

mutual

/-- `value == value'`. -/
def eq : PyValue → PyValue → Bool
  | none, none => true
  | list items, list items' | tuple items, tuple items' => eqItems items items'
  | dict entries, dict entries' =>
    entries.length = entries'.length && eqEntries entries entries'
  | other shown, other shown' => shown = shown'
  | value, value' => eqScalar value value'

def eqItems : List PyValue → List PyValue → Bool
  | [], [] => true
  | item :: items, item' :: items' => eq item item' && eqItems items items'
  | _, _ => false

/-- Every entry is an entry of the other dictionary. -/
def eqEntries : List (String × PyValue) → List (String × PyValue) → Bool
  | [], _ => true
  | (name, value) :: entries, entries' =>
    (match entries'.lookup name with
    | some value' => eq value value'
    | .none => false) && eqEntries entries entries'

end

/-- `bool(value)`. -/
def truth : PyValue → Bool
  | none => false
  | bool value => value
  | int value => value ≠ 0
  | float value => value ≠ .finite 0
  | str value | member value => value ≠ ""
  | list items | tuple items => !items.isEmpty
  | dict entries => !entries.isEmpty
  | other _ => true

end PyValue
