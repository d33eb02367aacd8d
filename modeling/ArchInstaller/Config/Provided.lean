import ArchInstaller.Config.Builder
import ArchInstaller.Python.Views

/-! # What setting values provide

When setting values have the declared types, which declared settings they leave out, and the
configuration that they stand for. -/

namespace PyData

/-- There is at most a leaf, and it has the property. -/
def View.IsLeaf (view : View) (property : PyValue → Prop) : Prop :=
  (∀ node, view [] = some node → ∃ value, node = .leaf value ∧ property value) ∧
    ∀ name path, view (name :: path) = none

end PyData

namespace ArchInstaller

open PyData PyText

/-- A text, null being the empty one. -/
def ReadsText (value : PyValue) (text : String) : Prop :=
  (value = .none ∧ text = "") ∨ value.text = some text

mutual

/-- Whatever is provided is declared and has the declared type. -/
def FieldType.Fits : FieldType → View → Prop
  | .str, view => view.IsLeaf fun value => ∃ text, ReadsText value text
  | .int, view => view.IsLeaf fun value => ∃ number, value = .int number
  | .bool, view => view.IsLeaf fun value => ∃ truth, value = .bool truth
  | .enum type, view => view.IsLeaf fun value => ∃ member, ReadsText value (type.value member)
  | .tuple item, view => view.IsLeaf fun value =>
    value = .none ∨ ∃ items, value.items = some items ∧ ∀ value' ∈ items, item.Fits (viewOf value')
  | .optional inner, view => view.IsLeaf (· = .none) ∨ inner.Fits view
  | .dataclass declared, view =>
    (∀ node, view [] = some node → node = .mapping) ∧
      (∀ name path, name ∉ declared.names → view (name :: path) = none) ∧ declared.Fits view

def Fields.Fits : Fields → View → Prop
  | .nil, _ => True
  | .cons name type rest, view => type.Fits (view.under name) ∧ rest.Fits view

end

mutual

/-- The paths of the settings that are not provided while the section that they are in is, in
declaration order. -/
def FieldType.absent : FieldType → View → String → List String
  | .tuple item, view, path =>
    match view [] with
    | some (.leaf value) =>
      match value.items with
      | some items => items.zipIdx.flatMap fun (value', index) =>
        item.absent (viewOf value') (itemPath path index)
      | none => []
    | _ => []
  | .optional inner, view, path =>
    match view [] with
    | some (.leaf .none) => []
    | _ => inner.absent view path
  | .dataclass declared, view, path => declared.absent view path
  | .str, _, _ | .int, _, _ | .bool, _, _ | .enum _, _, _ => []

def Fields.absent : Fields → View → String → List String
  | .nil, _, _ => []
  | .cons name type rest, view, path =>
    (match view [name] with
      | none => [fieldPath path name]
      | some _ => type.absent (view.under name) (fieldPath path name)) ++ rest.absent view path

end

mutual

/-- The value that the provided values stand for. -/
def FieldType.Denotes : (type : FieldType) → View → type.Value → Prop
  | .str, view, text => ∃ value, view [] = some (.leaf value) ∧ ReadsText value text
  | .int, view, number => view [] = some (.leaf (.int number))
  | .bool, view, truth => view [] = some (.leaf (.bool truth))
  | .enum type, view, member =>
    ∃ value, view [] = some (.leaf value) ∧ ReadsText value (type.value member)
  | .tuple item, view, converted => ∃ value, view [] = some (.leaf value) ∧
    ((value = .none ∧ converted = []) ∨ ∃ items, value.items = some items ∧
      List.Forall₂ (fun value' => item.Denotes (viewOf value')) items converted)
  | .optional inner, view, converted =>
    (view [] = some (.leaf .none) ∧ converted = none) ∨
      (view [] ≠ some (.leaf .none) ∧ ∃ value, converted = some value ∧ inner.Denotes view value)
  | .dataclass declared, view, converted => declared.Denotes view converted

def Fields.Denotes : (declared : Fields) → View → declared.Value → Prop
  | .nil, _, _ => True
  | .cons name type rest, view, converted =>
    type.Denotes (view.under name) converted.1 ∧ rest.Denotes view converted.2

end

end ArchInstaller
