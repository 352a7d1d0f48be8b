/-! # Documents

What a document holds, apart from its text: a table of named values.  The entries of a table keep
the order in which they were written, and a reader of a document finds them in that order.
-/

namespace ServerDiscovery.Toml

/-- A value in a document. -/
inductive Value where
  | string (text : String)
  | integer (number : Int)
  | float (number : Float)
  | boolean (truth : Bool)
  /-- A date, a time or both, as it was written. -/
  | datetime (text : String)
  | array (items : List Value)
  | table (entries : List (String × Value))

instance : Inhabited Value := ⟨.table []⟩

/-- Named values in the order in which they were written. -/
abbrev Table := List (String × Value)

/-- The largest integer that a document can hold; the least is one below its negative. -/
def maxInteger : Nat := UInt64.size / 2 - 1

/-! ## Equality

No deriving handler sees through the lists in a value. -/

mutual

/-- Whether two values are the same; a float that is no number is the same as itself. -/
def Value.same : Value → Value → Bool
  | .string s, .string t => s == t
  | .integer m, .integer n => m == n
  | .float x, .float y => decide (x = y)
  | .boolean a, .boolean b => a == b
  | .datetime s, .datetime t => s == t
  | .array vs, .array ws => sameItems vs ws
  | .table es, .table fs => sameEntries es fs
  | _, _ => false

/-- Whether values are the same in the same order. -/
def sameItems : List Value → List Value → Bool
  | [], [] => true
  | v :: vs, w :: ws => v.same w && sameItems vs ws
  | _, _ => false

/-- Whether entries are the same in the same order. -/
def sameEntries : List (String × Value) → List (String × Value) → Bool
  | [], [] => true
  | (name, v) :: es, (name', w) :: fs => name == name' && v.same w && sameEntries es fs
  | _, _ => false

end

theorem Value.same_iff (v w : Value) : v.same w = true ↔ v = w := by
  induction v, w using Value.same.induct
    (motive_2 := fun es fs => sameEntries es fs = true ↔ es = fs)
    (motive_3 := fun vs ws => sameItems vs ws = true ↔ vs = ws) with
  | case8 v w => cases v <;> cases w <;> grind [Value.same]
  | case11 vs ws => cases vs <;> cases ws <;> grind [sameItems]
  | case14 es fs => cases es <;> cases fs <;> grind [sameEntries]
  | _ => simp_all [Value.same, sameItems, sameEntries, and_assoc]

instance : DecidableEq Value := fun v w => decidable_of_iff (v.same w = true) (Value.same_iff v w)

end ServerDiscovery.Toml
