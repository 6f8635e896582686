import Formula.Decimal

/-!
# The shortest text of a double

A double is written with the fewest digits that read back as the same double. Among as many
digits the decimal nearest to the double is taken, and of two that are equally near the greater
one. The search walks through the decimal grids from coarse to fine and tries, on each grid, the
two points next to the double.
-/

set_option autoImplicit false

namespace Formula.Decimal

def ofMagnitude (magnitude : Nat) : Decimal :=
  let shift := Binary64.shift magnitude
  let significand := Binary64.significand magnitude
  if 1074 ≤ shift then ⟨significand * Nat.pow 2 (shift - 1074), 0⟩
  else ⟨significand * Nat.pow 5 (1074 - shift), -(1074 - shift : Nat)⟩

/-- The two numbers next to `exact` that end `places` places further left, the nearer one first,
and of two that are equally near the greater one. -/
def neighbours (exact : Decimal) (places : Nat) : List Decimal :=
  let unit := Nat.pow 10 places
  let below : Decimal := ⟨exact.coefficient / unit, exact.exponent + places⟩
  let above : Decimal := ⟨exact.coefficient / unit + 1, exact.exponent + places⟩
  if 2 * (exact.coefficient % unit) < unit then [below, above] else [above, below]

/-- The first of the numbers next to a magnitude that reads back, on the grid that keeps `digits`
of the digits of its exact decimal. -/
def readsBack? (magnitude digits : Nat) : Option Decimal :=
  let exact := ofMagnitude magnitude
  let length := (Nat.toDigits 10 exact.coefficient).length
  (neighbours exact (length - digits)).find? fun number => number.magnitude == magnitude

/-- The shortest decimal that reads back. The grid of no digits holds the next power of ten; from
the grid of seventeen digits on every magnitude reads back. -/
def shortest (magnitude : Nat) : Decimal :=
  match (List.range 18).findSome? (readsBack? magnitude) with
  | some number => number
  | none => ofMagnitude magnitude

def magnitudeText (magnitude : Nat) : List Char :=
  if magnitude = Binary64.infinite then ['i', 'n', 'f']
  else if magnitude = 0 then ['0']
  else (shortest magnitude).positional

def text (value : Float) : String :=
  let magnitude := Binary64.magnitude value
  if Binary64.infinite < magnitude then "NaN"
  else if Binary64.isNegative value then String.ofList ('-' :: magnitudeText magnitude)
  else String.ofList (magnitudeText magnitude)

end Formula.Decimal
