/-! # JSON values

What a JSON text holds, as far as a reader of records looks at it.  A number is of interest only if
it is written as an integer.  A string may name surrogates that make no pair, and then it is a
string of JSON but no text.
-/

namespace ServerDiscovery.Json

/-- A JSON value. -/
inductive Value where
  | null
  | boolean (truth : Bool)
  /-- A number written with digits alone; zero has no sign. -/
  | integer (number : Int)
  /-- Any other number. -/
  | real
  /-- A string, with its text if it has one. -/
  | string (text : Option String)
  | array (items : List Value)
  | object (members : List (Option String × Value))

instance : Inhabited Value := ⟨.null⟩

namespace Value

/-- The text of a string. -/
def text? : Value → Option String
  | .string text => text
  | _ => none

/-- The truth of a truth value. -/
def boolean? : Value → Option Bool
  | .boolean truth => some truth
  | _ => none

/-- The integer, if it has 32 bits. -/
def int32? : Value → Option Int32
  | .integer n =>
    if Int32.minValue.toInt ≤ n ∧ n ≤ Int32.maxValue.toInt then some (Int32.ofInt n) else none
  | _ => none

/-- The items of an array. -/
def items? : Value → Option (List Value)
  | .array items => some items
  | _ => none

/-- The values of the members with the given names, each of which is there exactly once.  An array
of just those values, without their names, will do. -/
def fields? (names : List String) : Value → Option (List Value)
  | .object members =>
    if members.any (·.1.isNone) then none
    else names.mapM fun name =>
      match members.filter (·.1 = some name) with
      | [member] => some member.2
      | _ => none
  | .array items => if items.length = names.length then some items else none
  | _ => none

end Value

end ServerDiscovery.Json
