import Mathlib.Tactic.TypeStar

/-! # JSON values

A value as a parser of the source language gives it, and how its parts are looked
up. An object keeps its fields as they are written.
-/

namespace Lightfriend

/-- A JSON value. A number is an integer, if it is written as one. -/
inductive JsonValue
  | null
  | bool (b : Bool)
  | int (n : Int)
  | float (digits : List Char)
  | str (s : List Char)
  | arr (items : List JsonValue)
  | obj (fields : List (List Char × JsonValue))

namespace JsonValue

def asString : JsonValue → Option (List Char)
  | .str s => some s
  | _ => none

def asI64 : JsonValue → Option Int
  | .int n => if -9223372036854775808 ≤ n ∧ n < 9223372036854775808 then some n else none
  | _ => none

def asArray : JsonValue → Option (List JsonValue)
  | .arr items => some items
  | _ => none

/-- `Value::get`: of a field that is there twice, the last value. -/
def get (name : String) : JsonValue → Option JsonValue
  | .obj fields => (fields.reverse.find? (fun f => f.1 = name.toList)).map (·.2)
  | _ => none

/-- `get(name).and_then(|v| v.as_str())`, and the same for a number. -/
def getString (name : String) (j : JsonValue) : Option (List Char) := (j.get name).bind asString

def getI64 (name : String) (j : JsonValue) : Option Int := (j.get name).bind asI64

end JsonValue

end Lightfriend
