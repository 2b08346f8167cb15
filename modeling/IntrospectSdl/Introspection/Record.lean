import IntrospectSdl.Introspection.ShapeError

/-! # Reading records

A record is an object with declared keys, or an array of the values of these keys in the order of
their declaration. Other keys of an object do not matter.

A key may be required; nullable, which is to say that null and, in an object, absence stand for
nothing; or optional, which may be missing at the end of an array as well. All members of a record
are read, and the flaws are collected. The one that is reported is, for an object, the bad value
with the least key, and only if no value is bad the first missing key; for an array, the first flaw.
-/

namespace IntrospectSdl.Introspection

open IntrospectSdl.Json (Value)

/-! ### Collecting flaws -/

/-- What is wrong with a member of a record. -/
inductive Flaw where
  | bad (key : String) (cause : ShapeError)
  | absent (key : String)

/-- What members of a record have given: a value, or flaws in the order of declaration. -/
inductive Reading (α : Type) where
  | ok (value : α)
  | flawed (first : Flaw) (rest : List Flaw)

namespace Reading

/-- Applies a function to what has been read. -/
def map {α β : Type} (f : α → β) : Reading α → Reading β
  | .ok a => .ok (f a)
  | .flawed first rest => .flawed first rest

/-- Applies a function that has been read to what has been read after it. -/
def seq {α β : Type} : Reading (α → β) → Reading α → Reading β
  | .ok f, r => r.map f
  | .flawed first rest, .ok _ => .flawed first rest
  | .flawed first rest, .flawed next more => .flawed first (rest ++ next :: more)

instance : Applicative Reading where
  pure := .ok
  seq f r := f.seq (r ())

end Reading

/-! ### Records -/

/-- The name and the declared keys of a record. -/
structure Shape where
  name : String
  keys : List String

/-- The form in which a record is given. -/
inductive Form where
  | object
  | array (length : Nat)

/-- The members of a record that is being read, all of them smaller than some size. -/
structure Slots (size : Nat) where
  form : Form
  members : List (String × Value)
  smaller : ∀ m ∈ members, sizeOf m.2 < size

/-- The members of an object. -/
def Slots.ofMembers (members : List (String × Value)) : Slots (sizeOf (Value.object members)) where
  form := .object
  members := members
  smaller m h := by
    have := List.sizeOf_lt_of_mem h
    cases m
    simp_all +arith
    omega

/-- The items of an array as members, under the declared keys in their order. -/
def Slots.ofItems (shape : Shape) (items : List Value) : Slots (sizeOf (Value.array items)) where
  form := .array items.length
  members := shape.keys.zip items
  smaller m h := by
    have := List.sizeOf_lt_of_mem (List.of_mem_zip h).2
    simp_all +arith
    omega

/-- The members of a value that should be a record. -/
def Shape.slots (shape : Shape) (v : Value) : Except ShapeError (Slots (sizeOf v)) :=
  match v with
  | .object members => .ok (.ofMembers members)
  | .array items => .ok (.ofItems shape items)
  | v => .error (.wrongType (.of v) (.record shape.name))

namespace Slots

variable {size : Nat} {α : Type}

/-- The value under a key. -/
def member? (slots : Slots size) (key : String) : Option { v : Value // sizeOf v < size } :=
  match h : slots.members.find? (·.1 == key) with
  | some m => some ⟨m.2, slots.smaller m (List.mem_of_find?_eq_some h)⟩
  | none => none

/-- The result of reading one member. -/
def read (key : String) (result : Except ShapeError α) : Reading α :=
  match result with
  | .ok a => .ok a
  | .error e => .flawed (.bad key e) []

/-- A member that has to be there. -/
def required (slots : Slots size) (key : String) (reader : Value → Except ShapeError α) :
    Reading α :=
  match slots.member? key with
  | some v => read key (reader v.1)
  | none => .flawed (.absent key) []

/-- Nothing for null, and what is read from any other value. -/
def orNull (v : Value) (result : Except ShapeError α) : Except ShapeError (Option α) :=
  match v with
  | .null => .ok none
  | _ => result.map some

/-- A member that may be null, or absent from an object. Its reader may use that the member is
smaller than the record. -/
def nullableWithin (slots : Slots size) (key : String)
    (reader : (v : Value) → sizeOf v < size → Except ShapeError α) : Reading (Option α) :=
  match slots.member? key, slots.form with
  | some ⟨v, h⟩, _ => read key (orNull v (reader v h))
  | none, .object => .ok none
  | none, .array _ => .flawed (.absent key) []

/-- A member that may be null, or absent from an object. -/
def nullable (slots : Slots size) (key : String) (reader : Value → Except ShapeError α) :
    Reading (Option α) :=
  slots.nullableWithin key fun v _ => reader v

/-- A member that may be null or absent. -/
def optional (slots : Slots size) (key : String) (reader : Value → Except ShapeError α) :
    Reading (Option α) :=
  match slots.member? key with
  | some v => read key (orNull v.1 (reader v.1))
  | none => .ok none

/-- The value under a key, its size aside. -/
def value? (slots : Slots size) (key : String) : Option Value :=
  (slots.members.find? (·.1 == key)).map Prod.snd

theorem map_val_member? (slots : Slots size) (key : String) :
    (slots.member? key).map Subtype.val = slots.value? key := by
  unfold member? value?
  split <;> rename_i h <;> exact (congrArg (Option.map Prod.snd) h).symm

theorem required_eq (slots : Slots size) (key : String)
    (reader : Value → Except ShapeError α) :
    slots.required key reader =
      match slots.value? key with
      | some v => read key (reader v)
      | none => .flawed (.absent key) [] := by
  rw [← map_val_member?, required]
  cases slots.member? key <;> rfl

theorem optional_eq (slots : Slots size) (key : String)
    (reader : Value → Except ShapeError α) :
    slots.optional key reader =
      match slots.value? key with
      | some v => read key (orNull v (reader v))
      | none => .ok none := by
  rw [← map_val_member?, optional]
  cases slots.member? key <;> rfl

theorem nullable_eq (slots : Slots size) (key : String)
    (reader : Value → Except ShapeError α) :
    slots.nullable key reader =
      match slots.value? key, slots.form with
      | some v, _ => read key (orNull v (reader v))
      | none, .object => .ok none
      | none, .array _ => .flawed (.absent key) [] := by
  rw [← map_val_member?, nullable, nullableWithin]
  cases slots.member? key <;> cases slots.form <;> rfl

end Slots

/-- The bad value with the least key. -/
def leastBad : List Flaw → Option (String × ShapeError)
  | [] => none
  | .absent _ :: rest => leastBad rest
  | .bad key cause :: rest =>
    match leastBad rest with
    | some (k, e) => if k < key then some (k, e) else some (key, cause)
    | none => some (key, cause)

/-- The error that flaws of an object are reported as. -/
def objectError (first : Flaw) (rest : List Flaw) : ShapeError :=
  match leastBad (first :: rest), first with
  | some (_, cause), _ => cause
  | none, .bad _ cause => cause
  | none, .absent key => .missingField key

/-- The error that flaws of an array are reported as. -/
def Shape.arrayError (shape : Shape) : Flaw → ShapeError
  | .bad _ cause => cause
  | .absent key => .tooFew (shape.keys.idxOf key) shape.name shape.keys.length

/-- The record that its members have given. An array may not have more items than there are keys. -/
def Shape.finish {α : Type} (shape : Shape) (setting : Setting) (form : Form)
    (reading : Reading α) : Except ShapeError α :=
  match form, reading with
  | .object, .ok a => .ok a
  | .object, .flawed first rest => .error (objectError first rest)
  | .array length, .ok a =>
    if shape.keys.length < length then .error (.tooMany length shape.keys.length setting) else .ok a
  | .array _, .flawed first _ => .error (shape.arrayError first)

/-! ### Plain values -/

/-- Reads a string. -/
def readText : Value → Except ShapeError String
  | .string s => .ok s
  | v => .error (.wrongType (.of v) .string)

/-- Reads a boolean. -/
def readFlag : Value → Except ShapeError Bool
  | .bool b => .ok b
  | v => .error (.wrongType (.of v) .boolean)

/-- Reads a list, item by item. -/
def readList {α : Type} (reader : Value → Except ShapeError α) : Value → Except ShapeError (List α)
  | .array items => items.mapM reader
  | v => .error (.wrongType (.of v) .sequence)

end IntrospectSdl.Introspection
