import Mathlib

/-!
# JavaScript strings

The string operations of JavaScript that decide what a program stores or compares, over the
characters of a Lean `String`.  They are written on `List Char`, so that they evaluate in the
kernel.

* `trim` strips the characters `String.prototype.trim` strips, and `trimOrNone` is the idiom
  `value?.trim() || null`.
* `orElse` is `||` on strings, of which only the empty one is falsy.
* `startsWith` and `endsWith` are the methods of the same names; `afterPrefix`, `beforeSuffix` and
  `splitLast` are the slices that code takes once such a test has succeeded.
* `compareUnits` is the order of `<` on strings and of `sort()` without a comparison: by UTF-16
  code units.
-/

namespace Js

open List

/-- The white space and line terminators that `String.prototype.trim` strips. -/
def isSpace (c : Char) : Bool :=
  let n := c.toNat
  (9 ≤ n && n ≤ 13) || n == 32 || n == 0xA0 || n == 0x1680 || (0x2000 ≤ n && n ≤ 0x200A) ||
    n == 0x2028 || n == 0x2029 || n == 0x202F || n == 0x205F || n == 0x3000 || n == 0xFEFF

/-- `s.trim()`. -/
def trim (s : String) : String := String.ofList ((s.toList.dropWhile isSpace).rdropWhile isSpace)

/-- `s?.trim() || null`: the trimmed text, unless there is none. -/
def trimOrNone (s : Option String) : Option String :=
  match s with
  | none => none
  | some s => if trim s = "" then none else some (trim s)

/-- `s || d`. -/
def orElse (s d : String) : String := if s = "" then d else s

/-- `s.startsWith(p)`. -/
def startsWith (s p : String) : Bool := p.toList.isPrefixOf s.toList

/-- `s.endsWith(p)`. -/
def endsWith (s p : String) : Bool := p.toList.isSuffixOf s.toList

/-- `s.slice(p.length)` of a string that starts with `p`. -/
def afterPrefix (s p : String) : Option String :=
  if startsWith s p then some (String.ofList (s.toList.drop p.toList.length)) else none

/-- `s.slice(0, -p.length)` of a string that ends with `p`. -/
def beforeSuffix (s p : String) : Option String :=
  if endsWith s p then some (String.ofList (s.toList.take (s.toList.length - p.toList.length)))
  else none

/-- What stands before and after the last `c` of `s`: the two slices around `s.lastIndexOf(c)`. -/
def splitLast (s : String) (c : Char) : Option (String × String) :=
  let tail := s.toList.reverse.takeWhile (· ≠ c)
  match s.toList.reverse.dropWhile (· ≠ c) with
  | [] => none
  | _ :: head => some (String.ofList head.reverse, String.ofList tail.reverse)

/-- `s.toLowerCase()` for text that is then compared with ASCII text.  The one character outside
ASCII whose lower case is an ASCII letter is the Kelvin sign. -/
def toLowerCase (s : String) : String :=
  String.ofList (s.toList.map fun c => if c.toNat = 0x212A then 'k' else c.toLower)

/-- The UTF-16 code units of a character. -/
def units (c : Char) : List Nat :=
  let n := c.toNat
  if n < 0x10000 then [n] else [0xD800 + (n - 0x10000) / 0x400, 0xDC00 + (n - 0x10000) % 0x400]

/-- Lexicographic order of two lists of code units. -/
def compareList : List Nat → List Nat → Ordering
  | [], [] => .eq
  | [], _ :: _ => .lt
  | _ :: _, [] => .gt
  | a :: as, b :: bs => (compare a b).then (compareList as bs)

/-- The order of `<` on strings and of the default `sort()`. -/
def compareUnits (a b : String) : Ordering :=
  compareList (a.toList.flatMap units) (b.toList.flatMap units)

/-- `[...values].sort()`. -/
def sort (values : List String) : List String :=
  values.insertionSort fun a b => compareUnits a b ≠ .gt

@[simp] theorem mem_sort {values : List String} {v : String} : v ∈ sort values ↔ v ∈ values :=
  mem_insertionSort _

@[simp] theorem afterPrefix_append (p r : String) : afterPrefix (p ++ r) p = some r := by
  have h : startsWith (p ++ r) p = true := by
    simp [startsWith, String.toList_append, isPrefixOf_iff_prefix]
  rw [afterPrefix, if_pos h, String.toList_append, drop_left, String.ofList_toList]

@[simp] theorem beforeSuffix_append (p r : String) : beforeSuffix (r ++ p) p = some r := by
  have h : endsWith (r ++ p) p = true := by
    simp [endsWith, String.toList_append, isSuffixOf_iff_suffix]
  rw [beforeSuffix, if_pos h, String.toList_append, length_append, Nat.add_sub_cancel,
    take_left, String.ofList_toList]

/-- A piece without the separator is what follows the last one. -/
theorem splitLast_append {a b : String} {c : Char} (h : c ∉ b.toList) :
    splitLast (a ++ String.singleton c ++ b) c = some (a, b) := by
  have hb : ∀ x ∈ b.toList.reverse, decide (x ≠ c) = true := by
    intro x hx
    rw [mem_reverse] at hx
    simpa using fun hxc : x = c => h (hxc ▸ hx)
  have hrev : (a ++ String.singleton c ++ b).toList.reverse
      = b.toList.reverse ++ c :: a.toList.reverse := by
    simp [String.toList_append]
  rw [splitLast, hrev, takeWhile_append_of_pos hb, dropWhile_append_of_pos hb]
  simp

end Js
