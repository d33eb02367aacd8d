import ArchInstaller.Python.Data

/-! # Declared types

What `get_type_hints` says of the configuration's dataclasses, as data: the type of a field, and
the values of that type. A section's value is the tuple of its fields' values, in declaration
order. -/

namespace ArchInstaller

/-- A `StrEnum`: its members in declaration order, each with its text. -/
structure EnumType where
  Member : Type
  members : List Member
  value : Member → String
  complete : ∀ member, member ∈ members
  injective : ∀ member member', value member = value member' → member = member'

mutual

inductive FieldType : Type 1
  | str
  | int
  | bool
  | enum (type : EnumType)
  | tuple (item : FieldType)
  | optional (inner : FieldType)
  | dataclass (declared : Fields)

/-- The fields of a dataclass, in declaration order. -/
inductive Fields : Type 1
  | nil
  | cons (name : String) (type : FieldType) (rest : Fields)

end

mutual

@[reducible] def FieldType.Value : FieldType → Type
  | .str => String
  | .int => Int
  | .bool => Bool
  | .enum type => type.Member
  | .tuple item => List item.Value
  | .optional inner => Option inner.Value
  | .dataclass declared => declared.Value

@[reducible] def Fields.Value : Fields → Type
  | .nil => Unit
  | .cons _ type rest => type.Value × rest.Value

end

/-- A value as data; a section is an object that equals no plain data. -/
def FieldType.data : (type : FieldType) → type.Value → PyValue
  | .str, text => .str text
  | .int, number => .int number
  | .bool, truth => .bool truth
  | .enum type, member => .member (type.value member)
  | .tuple item, items => .tuple (items.map item.data)
  | .optional _, none => .none
  | .optional inner, some value => inner.data value
  | .dataclass _, _ => .other "section"

def FieldType.isSection : FieldType → Bool
  | .dataclass _ => true
  | _ => false

namespace Fields

@[reducible] def of : List (String × FieldType) → Fields
  | [] => .nil
  | (name, type) :: rest => .cons name type (of rest)

def names : Fields → List String
  | .nil => []
  | .cons name _ rest => name :: rest.names

/-- The declared type of a field. -/
def typeOf : Fields → String → Option FieldType
  | .nil, _ => none
  | .cons name type rest, name' => if name = name' then some type else rest.typeOf name'

/-- Fields one by one, a section's fields before those that follow it. -/
theorem induction {motive : Fields → Prop} (nil : motive .nil)
    (leaf : ∀ name type rest, type.isSection = false → motive rest → motive (.cons name type rest))
    (group : ∀ name inner rest, motive inner → motive rest →
      motive (.cons name (.dataclass inner) rest)) (declared : Fields) : motive declared := by
  refine @Fields.rec (fun type => ∀ inner, type = .dataclass inner → motive inner) motive
    nofun nofun nofun nofun nofun nofun ?_ nil ?_ declared
  · rintro inner ih _ ⟨⟩
    exact ih
  · intro name type rest htype hrest
    by_cases hsection : type.isSection = false
    · exact leaf name type rest hsection hrest
    · cases type with
      | dataclass inner => exact group name inner rest (htype inner rfl) hrest
      | _ => exact absurd rfl hsection

theorem typeOf_eq_none_iff {declared : Fields} {name : String} :
    declared.typeOf name = none ↔ name ∉ declared.names := by
  induction declared using Fields.induction with
  | nil => simp [typeOf, names]
  | leaf name' type rest _ ih =>
    by_cases hname : name' = name
    · simp [typeOf, names, hname]
    · simp [typeOf, names, hname, Ne.symm hname, ih]
  | group name' inner rest _ ih =>
    by_cases hname : name' = name
    · simp [typeOf, names, hname]
    · simp [typeOf, names, hname, Ne.symm hname, ih]

end Fields

end ArchInstaller
