import IntrospectSdl.Number.Binary64

/-! # JSON values

Objects are lists of members in the order of their keys, each key at most once; `Value.insert` keeps
them so, and a later member replaces an earlier one of the same key. Numbers that are whole and fit
into 64 bits are integers, all others floating-point numbers. -/

namespace IntrospectSdl.Json

open IntrospectSdl.Number (Binary64)

/-- A number. -/
inductive Number where
  | integer (value : Int)
  | real (value : Binary64)
deriving DecidableEq, Repr

/-- A JSON value. -/
inductive Value where
  | null
  | bool (value : Bool)
  | number (value : Number)
  | string (value : String)
  | array (items : List Value)
  | object (members : List (String × Value))
deriving Repr, Inhabited

namespace Value

/-- The members of an object with one more, which replaces one of the same key. -/
def insert (key : String) (value : Value) : List (String × Value) → List (String × Value)
  | [] => [(key, value)]
  | (k, v) :: rest =>
    match compare key k with
    | .lt => (key, value) :: (k, v) :: rest
    | .eq => (key, value) :: rest
    | .gt => (k, v) :: insert key value rest

/-- What is `null`, or else the encoded content. -/
def ofOption {α : Type} (encode : α → Value) : Option α → Value
  | none => .null
  | some a => encode a

/-- An array of encoded items. -/
def ofList {α : Type} (encode : α → Value) (items : List α) : Value := .array (items.map encode)

end Value

end IntrospectSdl.Json
