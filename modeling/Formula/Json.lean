/-!
# JSON values

A JSON text is held with what a reader may have to know: the members of an object in their order,
repeated names included, whole numbers apart from others, and whether the escapes of a string
left half of a surrogate pair alone, so that it is no text. The accessors read records, tags and
whole numbers out of a value.
-/

set_option autoImplicit false

namespace Formula

inductive Json where
  | null
  | bool (value : Bool)
  /-- A number without fraction and exponent, from -2^63 to 2^64 - 1. -/
  | integer (value : Int)
  /-- Any other number; an infinite one is too large for a double. -/
  | real (value : Float)
  /-- A string; nothing if it holds half of a surrogate pair. -/
  | text (value : Option String)
  | array (items : List Json)
  | object (fields : List (Option String × Json))

namespace Json

def string (value : String) : Json := .text (some value)

def record (fields : List (String × Json)) : Json :=
  .object (fields.map fun field => (some field.1, field.2))

/-- The value of the field that has the given name, if exactly one has it. -/
def field? (name : String) (fields : List (Option String × Json)) : Option Json :=
  match fields.filter fun field => field.1 == some name with
  | [field] => some field.2
  | _ => none

/-- The values of the named fields of a record: an object in which each name occurs exactly once,
whatever other names it has, or the array of exactly these values. -/
def fields? (names : List String) : Json → Option (List Json)
  | .object fields =>
    if fields.any fun field => field.1.isNone then none
    else names.mapM fun name => field? name fields
  | .array items => if items.length = names.length then some items else none
  | _ => none

/-- The name of a case without data: the name itself, or an object with it and nothing. -/
def tag? : Json → Option String
  | .text name => name
  | .object [(name, .null)] => name
  | _ => none

def case? : Json → Option (String × Json)
  | .object [(some name, data)] => some (name, data)
  | _ => none

def string? : Json → Option String
  | .text value => value
  | _ => none

def natural? : Json → Option Nat
  | .integer value => if 0 ≤ value then some value.toNat else none
  | _ => none

end Json

end Formula
