import Mathlib

/-!
# JSON values and the structs read from them

A derived struct reader takes its fields by name from an object and by position from an
array.  An object may hold members that the reader never looks up; `prune` drops them, and
no reader tells a value from what is left of it.
-/

set_option autoImplicit false

namespace EthgasReth.Lib

inductive Json where
  | null
  | bool (value : Bool)
  | unsigned (value : Nat)
  | signed (value : Int)
  | float (bits : BitVec 64)
  | string (text : String)
  | array (items : List Json)
  | object (members : List (String × Json))

namespace Json

def isNull : Json → Bool
  | .null => true
  | _ => false

def asObject : Json → Option (List (String × Json))
  | .object members => some members
  | _ => none

def get (value : Json) (name : String) : Option Json :=
  value.asObject.bind fun members => members.lookup name

/-! ## Reading a struct -/

inductive Fields where
  | byName (members : List (String × Json))
  | inOrder (items : List Json)

/-- The fields of a struct with `count` of them; an array may leave out the last ones but
holds no more. -/
def fields (count : Nat) : Json → Option Fields
  | .object members => some (.byName members)
  | .array items => if items.length ≤ count then some (.inOrder items) else none
  | _ => none

def nullable {α : Type} (decode : Json → Option α) : Json → Option (Option α)
  | .null => some none
  | value => (decode value).map some

namespace Fields

variable {α : Type}

def value (name : String) (position : Nat) : Fields → Option Json
  | .byName members => members.lookup name
  | .inOrder items => items[position]?

def required (decode : Json → Option α) (name : String) (position : Nat) (fields : Fields) :
    Option α :=
  (fields.value name position).bind decode

/-- An optional field, which may be missing from an object only. -/
def optional (decode : Json → Option α) (name : String) (position : Nat) (fields : Fields) :
    Option (Option α) :=
  match fields.value name position with
  | some value => nullable decode value
  | none =>
      match fields with
      | .byName _ => some none
      | .inOrder _ => none

/-- An optional field with a default, which may be missing anywhere. -/
def defaulted (decode : Json → Option α) (name : String) (position : Nat) (fields : Fields) :
    Option (Option α) :=
  match fields.value name position with
  | some value => nullable decode value
  | none => some none

end Fields

/-! ## Codecs -/

structure Codec (α : Type) where
  encode : α → Json
  decode : Json → Option α

/-- Every valid value is read back, and none is written as null. -/
structure Codec.Lawful {α : Type} (codec : Codec α) (valid : α → Prop) : Prop where
  round : ∀ value, valid value → codec.decode (codec.encode value) = some value
  notNull : ∀ value, codec.encode value ≠ .null

section Codec

variable {α : Type} {codec : Codec α} {valid : α → Prop}

theorem Codec.Lawful.nullable (lawful : codec.Lawful valid) {value : α} (isValid : valid value) :
    Json.nullable codec.decode (codec.encode value) = some (some value) := by
  have notNull := lawful.notNull value
  have round := lawful.round value isValid
  cases encoded : codec.encode value with
  | null => exact absurd encoded notNull
  | bool | unsigned | signed | float | string | array | object =>
      rw [encoded] at round
      simp [Json.nullable, round]

def encodeOption (codec : Codec α) : Option α → Json
  | none => .null
  | some value => codec.encode value

theorem nullable_encodeOption (lawful : codec.Lawful valid) {value : Option α}
    (isValid : ∀ inner ∈ value, valid inner) :
    Json.nullable codec.decode (encodeOption codec value) = some value := by
  cases value with
  | none => rfl
  | some value => exact lawful.nullable (isValid value rfl)

theorem isNull_encodeOption (lawful : codec.Lawful valid) (value : Option α) :
    (encodeOption codec value).isNull = value.isNone := by
  cases value with
  | none => rfl
  | some value =>
      have notNull := lawful.notNull value
      cases encoded : codec.encode value with
      | null => exact absurd encoded notNull
      | bool | unsigned | signed | float | string | array | object =>
          simp [encodeOption, encoded, isNull]

def Codec.list (codec : Codec α) : Codec (List α) where
  encode := fun values => .array (values.map codec.encode)
  decode
    | .array items => items.mapM codec.decode
    | _ => none

theorem Codec.Lawful.list (lawful : codec.Lawful valid) :
    codec.list.Lawful fun values => ∀ value ∈ values, valid value where
  round := by
    intro values areValid
    simp only [Codec.list]
    induction values with
    | nil => rfl
    | cons value rest ih =>
        have head := lawful.round value (areValid value List.mem_cons_self)
        have tail := ih fun other member => areValid other (List.mem_cons_of_mem _ member)
        simp [head, tail]
  notNull := by
    intro values isNull
    cases isNull

end Codec

/-! ## Members nobody reads -/

def prune (known : List String) : Json → Json
  | .object members => .object (members.filter fun member => known.contains member.1)
  | value => value

def mapMember (name : String) (change : Json → Json) : Json → Json
  | .object members => .object (members.map fun member =>
      if member.1 = name then (member.1, change member.2) else member)
  | value => value

theorem lookup_filter {known : List String} {name : String} (isKnown : name ∈ known)
    (members : List (String × Json)) :
    (members.filter fun member => known.contains member.1).lookup name = members.lookup name := by
  induction members with
  | nil => rfl
  | cons member rest ih =>
      obtain ⟨key, value⟩ := member
      by_cases same : name = key
      · subst same
        simp [isKnown]
      · have differs : (name == key) = false := by simp [same]
        rw [List.filter_cons, List.lookup_cons, differs]
        split
        · rw [List.lookup_cons, differs, ih]
        · exact ih

theorem lookup_mapMember (name other : String) (change : Json → Json)
    (members : List (String × Json)) :
    (members.map fun member =>
        if member.1 = name then (member.1, change member.2) else member).lookup other =
      if other = name then (members.lookup other).map change else members.lookup other := by
  induction members with
  | nil => simp
  | cons member rest ih =>
      obtain ⟨key, value⟩ := member
      simp only [List.map_cons]
      by_cases here : key = name
      · subst here
        simp only [if_true, List.lookup_cons, ih]
        by_cases same : other = key
        · simp [same]
        · have differs : (other == key) = false := by simp [same]
          simp only [differs, same, if_false]
      · simp only [here, if_false, List.lookup_cons, ih]
        by_cases same : other = key
        · subst same
          simp [here]
        · have differs : (other == key) = false := by simp [same]
          simp only [differs]

/-- Two structs that a reader of the `known` fields cannot tell apart. -/
inductive Agree (known : List String) : Fields → Fields → Prop
  | byName {left right : List (String × Json)}
      (same : ∀ name ∈ known, left.lookup name = right.lookup name) :
      Agree known (.byName left) (.byName right)
  | inOrder {items : List Json} : Agree known (.inOrder items) (.inOrder items)

section Agree

variable {α : Type} {known : List String} {left right : Fields} {name : String}

theorem Agree.required (agree : Agree known left right) (isKnown : name ∈ known)
    (decode : Json → Option α) (position : Nat) :
    left.required decode name position = right.required decode name position := by
  cases agree with
  | byName same => simp only [Fields.required, Fields.value, same name isKnown]
  | inOrder => rfl

theorem Agree.optional (agree : Agree known left right) (isKnown : name ∈ known)
    (decode : Json → Option α) (position : Nat) :
    left.optional decode name position = right.optional decode name position := by
  cases agree with
  | byName same => simp only [Fields.optional, Fields.value, same name isKnown]
  | inOrder => rfl

theorem Agree.defaulted (agree : Agree known left right) (isKnown : name ∈ known)
    (decode : Json → Option α) (position : Nat) :
    left.defaulted decode name position = right.defaulted decode name position := by
  cases agree with
  | byName same => simp only [Fields.defaulted, Fields.value, same name isKnown]
  | inOrder => rfl

/-- A struct reader that looks up `known` fields only does not see what `prune` drops. -/
theorem bind_fields_prune (count : Nat) (read : Fields → Option α)
    (blind : ∀ left right, Agree known left right → read left = read right) (value : Json) :
    ((prune known value).fields count).bind read = (value.fields count).bind read := by
  cases value with
  | object members =>
      simp only [prune, fields, Option.bind_some]
      exact blind _ _ (.byName fun name isKnown => lookup_filter isKnown members)
  | null | bool | unsigned | signed | float | string | array => rfl

end Agree

/-! ## Reporting them -/

def unknownMembers (known : List String) (value : Json) : List String :=
  match value.asObject with
  | some members => (members.map Prod.fst).filter fun name => !known.contains name
  | none => []

theorem mem_unknownMembers {known : List String} {value : Json} {name : String} :
    name ∈ unknownMembers known value ↔
      ∃ members, value = .object members ∧ name ∈ members.map Prod.fst ∧ name ∉ known := by
  cases value with
  | object members =>
      simp only [unknownMembers, asObject, List.mem_filter]
      constructor
      · intro member
        exact ⟨members, rfl, member.1, by simpa using member.2⟩
      · intro member
        obtain ⟨other, same, isMember, unknown⟩ := member
        cases same
        exact ⟨isMember, by simpa using unknown⟩
  | null | bool | unsigned | signed | float | string | array =>
      simp [unknownMembers, asObject]

@[simp] theorem unknownMembers_prune (known : List String) (value : Json) :
    unknownMembers known (prune known value) = [] := by
  cases value with
  | object members =>
      simp only [unknownMembers, prune, asObject, List.filter_eq_nil_iff, List.mem_map,
        List.mem_filter]
      intro name isMember
      obtain ⟨member, ⟨-, isKnown⟩, same⟩ := isMember
      subst same
      simpa using isKnown
  | null | bool | unsigned | signed | float | string | array => rfl

@[simp] theorem unknownMembers_mapMember (known : List String) (name : String)
    (change : Json → Json) (value : Json) :
    unknownMembers known (mapMember name change value) = unknownMembers known value := by
  cases value with
  | object members =>
      have keys : (members.map fun member =>
          if member.1 = name then (member.1, change member.2) else member).map Prod.fst =
          members.map Prod.fst := by
        rw [List.map_map]
        apply List.map_congr_left
        intro member _
        simp only [Function.comp]
        split <;> rfl
      simp only [unknownMembers, mapMember, asObject, keys]
  | null | bool | unsigned | signed | float | string | array => rfl

end Json

end EthgasReth.Lib
