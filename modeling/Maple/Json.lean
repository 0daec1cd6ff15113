import Mathlib.Data.List.Basic

/-! JSON values, their records and their text. -/

namespace Maple

inductive Json
  | null
  | bool (value : Bool)
  | number (text : String)
  | string (value : String)
  | array (items : List Json)
  | object (fields : List (String × Json))

namespace Json

/-- A field of a record; nothing else has fields. -/
def get? (value : Json) (key : String) : Option Json :=
  match value with
  | .object fields => fields.lookup key
  | _ => none

def escape (c : Char) : List Char :=
  if c = '"' then ['\\', '"']
  else if c = '\\' then ['\\', '\\']
  else if c = '\n' then ['\\', 'n']
  else if c = '\r' then ['\\', 'r']
  else if c = '\t' then ['\\', 't']
  else if c.toNat = 8 then ['\\', 'b']
  else if c.toNat = 12 then ['\\', 'f']
  else if c.toNat < 32 then
    ['\\', 'u', '0', '0'] ++ (if c.toNat < 16 then ['0'] else []) ++ Nat.toDigits 16 c.toNat
  else [c]

def quote (text : String) : List Char := '"' :: text.toList.flatMap escape ++ ['"']

mutual

/-- `JSON.stringify`. -/
def stringify : Json → List Char
  | .null => "null".toList
  | .bool value => (if value then "true" else "false").toList
  | .number text => text.toList
  | .string value => quote value
  | .array items => '[' :: [','].intercalate (stringifyItems items) ++ [']']
  | .object fields => '\x7b' :: [','].intercalate (stringifyFields fields) ++ ['\x7d']

def stringifyItems : List Json → List (List Char)
  | [] => []
  | item :: items => stringify item :: stringifyItems items

def stringifyFields : List (String × Json) → List (List Char)
  | [] => []
  | (key, value) :: fields => (quote key ++ ':' :: stringify value) :: stringifyFields fields

end

/-! ## Records with optional fields -/

/-- The fields that are there, in the order of the schema. -/
def record (fields : List (String × Option Json)) : List (String × Json) :=
  fields.filterMap fun field => field.2.map fun value => (field.1, value)

@[simp] lemma record_nil : record [] = [] := rfl

end Json

end Maple
