import Intar.Lib.Json
import Mathlib

/-!
# JSON documents as written

What a JSON text says before a reader decides what to make of it: numbers are literals, and an object
keeps its members in order, repeated ones included.  Readers differ exactly there.

* `JSON.parse` turns every literal into the double next to it and lets the last of repeated members
  win: `toJson`.
* A `serde` struct that denies unknown fields refuses members it does not know and members that come
  twice, and takes an unsigned integer only from a literal that is one: `knownFields`, `unsigned`.
-/

/-- A number as written: sign, integer part, digits after the point, exponent. -/
structure NumberLiteral where
  negative : Bool
  integer : ℕ
  fraction : Option (List ℕ)
  exponent : Option ℤ
deriving DecidableEq

namespace NumberLiteral

/-- The literal of a natural number. -/
def ofNat (n : ℕ) : NumberLiteral := ⟨false, n, none, none⟩

/-- The number of a literal that is only digits. -/
def plain (l : NumberLiteral) : Option ℕ :=
  if l.negative = false ∧ l.fraction = none ∧ l.exponent = none then some l.integer else none

end NumberLiteral

/-- A JSON text, without its white space.  A half of a surrogate pair, which only an escape can
produce, stands as the replacement character. -/
inductive JsonText where
  | null
  | bool (b : Bool)
  | num (l : NumberLiteral)
  | str (s : String)
  | arr (items : List JsonText)
  | obj (fields : List (String × JsonText))
deriving Inhabited

namespace JsonText

/-! ## The value `JSON.parse` returns -/

/-- How literals are read as doubles: a natural number up to 2⁵³ - 1 exactly, and one above that as
something that is no safe integer. -/
structure Doubles where
  read : NumberLiteral → Json
  number : ∀ l, (∃ q, read l = .num q) ∨ ∃ negative, read l = .infinite negative
  exact : ∀ l (n : ℕ), l.plain = some n → (n : ℤ) ≤ Json.maxSafeInteger → read l = .num n
  large : ∀ l (n : ℕ), l.plain = some n → Json.maxSafeInteger < (n : ℤ) → (read l).asSafeInt = none

mutual

/-- The value of a text. -/
def toJson (double : Doubles) : JsonText → Json
  | .null => .null
  | .bool b => .bool b
  | .num l => double.read l
  | .str s => .str s
  | .arr items => .arr (listToJson double items)
  | .obj fields => .obj (fieldsToJson double fields)

def listToJson (double : Doubles) : List JsonText → List Json
  | [] => []
  | item :: items => toJson double item :: listToJson double items

def fieldsToJson (double : Doubles) : List (String × JsonText) → List (String × Json)
  | [] => []
  | (key, value) :: fields => (key, toJson double value) :: fieldsToJson double fields

end

variable {double : Doubles}

theorem listToJson_eq (items : List JsonText) : listToJson double items = items.map (toJson double) := by
  induction items with
  | nil => rfl
  | cons _ _ ih => rw [listToJson, ih, List.map_cons]

variable (fields : List (String × JsonText))

theorem fieldsToJson_eq :
    fieldsToJson double fields = fields.map fun p => (p.1, toJson double p.2) := by
  induction fields with
  | nil => rfl
  | cons _ _ ih => rw [fieldsToJson, ih, List.map_cons]

/-- The last member of a name. -/
def last (fields : List (String × JsonText)) (name : String) : Option JsonText :=
  (fields.reverse.find? fun p => p.1 = name).map Prod.snd

theorem field_toJson (name : String) :
    (toJson double (.obj fields)).field name = (last fields name).map (toJson double) := by
  rw [toJson, Json.field, fieldsToJson_eq, ← List.map_reverse, List.find?_map, last, Option.map_map,
    Option.map_map]
  rfl

variable {t : JsonText}

/-- Only a string is read as one. -/
theorem asStr_toJson {s : String} : (toJson double t).asStr = some s ↔ t = .str s := by
  cases t with
  | str | null | bool | arr | obj => simp [toJson, Json.asStr]
  | num l =>
    rw [toJson]
    rcases double.number l with ⟨_, hq⟩ | ⟨_, hinf⟩
    · simp [hq, Json.asStr]
    · simp [hinf, Json.asStr]

theorem asArr_toJson {items : List Json} :
    (toJson double t).asArr = some items ↔ ∃ texts, t = .arr texts ∧ items = texts.map (toJson double) := by
  cases t with
  | arr => simp [toJson, Json.asArr, listToJson_eq, eq_comm]
  | num l =>
    rw [toJson]
    rcases double.number l with ⟨_, hq⟩ | ⟨_, hinf⟩
    · simp [hq, Json.asArr]
    · simp [hinf, Json.asArr]
  | null | bool | str | obj => simp [toJson, Json.asArr]

/-- Only a literal is read as a number, and one of only digits as the number it says. -/
theorem asSafeInt_toJson {z : ℤ} (h : (toJson double t).asSafeInt = some z) :
    ∃ l, t = .num l ∧ ∀ n : ℕ, l.plain = some n → z = n := by
  cases t with
  | num l =>
    refine ⟨l, rfl, fun n hn => ?_⟩
    rw [toJson] at h
    by_cases hle : (n : ℤ) ≤ Json.maxSafeInteger
    · rw [double.exact l n hn hle, Json.asSafeInt] at h
      split_ifs at h
      simpa using h.symm
    · rw [double.large l n hn (Int.not_le.mp hle)] at h
      cases h
  | null | bool | str | arr | obj => simp [toJson, Json.asSafeInt] at h

/-! ## What a struct with denied unknown fields takes -/

/-- Every member is one of the names, and none comes twice. -/
def knownFields (names : List String) (fields : List (String × JsonText)) : Bool :=
  (fields.map Prod.fst).Nodup ∧ ∀ key ∈ fields.map Prod.fst, key ∈ names

/-- An unsigned integer of `width` bits. -/
def unsigned (width : ℕ) : JsonText → Option ℕ
  | .num l => l.plain.bind fun n => if n < 2 ^ width then some n else none
  | _ => none

def string : JsonText → Option String
  | .str s => some s
  | _ => none

end JsonText
