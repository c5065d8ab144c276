import Mathlib

/-!
# JSON documents

The value `JSON.parse` returns, for code that reads documents nobody has checked: every access
can meet a missing field or a value of another type, and the accessors say so with `Option`.
-/

/-- A parsed JSON value.  A number is the value of the double it was read as; a literal beyond the
range of the doubles is read as an infinity. -/
inductive Json where
  | null
  | bool (b : Bool)
  | num (q : Rat)
  | infinite (negative : Bool)
  | str (s : String)
  | arr (items : List Json)
  | obj (fields : List (String × Json))
deriving Inhabited

namespace Json

/-- `value[name]` of an object; `none` is `undefined`.  Of a repeated key the last one counts, as
for `JSON.parse`. -/
def field (v : Json) (name : String) : Option Json :=
  match v with
  | .obj fields => (fields.reverse.find? fun p => p.1 = name).map Prod.snd
  | _ => none

/-- The value, when it is a string. -/
def asStr : Json → Option String
  | .str s => some s
  | _ => none

/-- The items, when it is an array. -/
def asArr : Json → Option (List Json)
  | .arr items => some items
  | _ => none

/-- `Number.MAX_SAFE_INTEGER`. -/
def maxSafeInteger : Int := 9007199254740991

/-- The value, when `Number.isSafeInteger` accepts it. -/
def asSafeInt : Json → Option Int
  | .num q => if q.den = 1 ∧ -maxSafeInteger ≤ q.num ∧ q.num ≤ maxSafeInteger then some q.num else none
  | _ => none

end Json
