import Formula.Json.Lexeme

/-!
# Reading a JSON text

Values are built from lexemes with a stack of the containers that are still open, so that nesting
has no limit here.
-/

set_option autoImplicit false

namespace Formula.Json

/-- The fields of an object in reverse. -/
abbrev Fields := List (Option String × Json)

/-- A container in which a value is awaited, with what stands before it in reverse. -/
inductive Open where
  | array (before : List Json)
  | object (before : Fields) (name : Option String)

inductive State where
  /-- A value must follow. -/
  | value (outer : List Open)
  /-- The first item or the end of an array. -/
  | firstItem (outer : List Open)
  /-- A comma or the end of an array. -/
  | afterItem (items : List Json) (outer : List Open)
  /-- The first name or the end of an object. -/
  | firstName (outer : List Open)
  /-- A further name. -/
  | name (fields : Fields) (outer : List Open)
  /-- The colon behind a name. -/
  | afterName (fields : Fields) (name : Option String) (outer : List Open)
  /-- A comma or the end of an object. -/
  | afterField (fields : Fields) (outer : List Open)
  /-- Nothing. -/
  | done (value : Json)

def State.complete (json : Json) : List Open → State
  | [] => .done json
  | .array before :: outer => .afterItem (json :: before) outer
  | .object before key :: outer => .afterField ((key, json) :: before) outer

def State.start? (outer : List Open) : Lexeme → Option State
  | .openBracket => some (.firstItem outer)
  | .openBrace => some (.firstName outer)
  | .value json => some (.complete json outer)
  | _ => none

def State.step? : State → Lexeme → Option State
  | .value outer, lexeme => start? outer lexeme
  | .firstItem outer, .closeBracket => some (.complete (.array []) outer)
  | .firstItem outer, lexeme => start? (.array [] :: outer) lexeme
  | .afterItem items outer, .comma => some (.value (.array items :: outer))
  | .afterItem items outer, .closeBracket => some (.complete (.array items.reverse) outer)
  | .firstName outer, .closeBrace => some (.complete (.object []) outer)
  | .firstName outer, .value (.text key) => some (.afterName [] key outer)
  | .name fields outer, .value (.text key) => some (.afterName fields key outer)
  | .afterName fields key outer, .colon => some (.value (.object fields key :: outer))
  | .afterField fields outer, .comma => some (.name fields outer)
  | .afterField fields outer, .closeBrace => some (.complete (.object fields.reverse) outer)
  | _, _ => none

def ofText? (text : String) : Option Json :=
  match lexemes? [] text.length text.toList with
  | none => none
  | some lexemes =>
    match lexemes.foldlM State.step? (.value []) with
    | some (.done value) => some value
    | _ => none

end Formula.Json
