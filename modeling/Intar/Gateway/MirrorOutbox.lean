import Mathlib
import Intar.Gateway.Mirror
import Intar.Lib.Trace

/-!
# The outbox of a mirror in use

What holds of the outbox after any calls: its bytes are counted for its items, gaps stand apart, and
the items stand for all that was pushed, until the outbox is closed.
-/

namespace Intar.Gateway.Mirror

open List

namespace Item

/-- What an item is counted as.  A gap costs nothing. -/
def cost : Item → Nat
  | .output _ data => data.length + itemCostBytes
  | .resize _ _ _ => itemCostBytes
  | .gap _ _ _ _ => 0

/-- The output that an item stands for. -/
def outputBytes : Item → Nat
  | .output _ data => data.length
  | .resize _ _ _ => 0
  | .gap bytes _ _ _ => bytes

def isGap : Item → Bool
  | .gap _ _ _ _ => true
  | _ => false

/-- The size of the terminal after an item. -/
def resized (size : Nat × Nat) : Item → Nat × Nat
  | .output _ _ => size
  | .resize _ cols rows => (cols, rows)
  | .gap _ _ cols rows => (cols, rows)

end Item

/-- The outbox counts its items; they stand for `pushed` bytes of output, and lead from the size
`taken` to the size `last`. -/
structure Counted (box : Outbox) (pushed : Nat) (taken last : Nat × Nat) : Prop where
  bytes_eq : box.bytes = (box.items.map Item.cost).sum
  bytes_le : box.bytes ≤ outboxLimitBytes
  apart : box.items.IsChain fun first second => first.isGap = false ∨ second.isGap = false
  pushed_eq : (box.items.map Item.outputBytes).sum = pushed
  resized : box.items.foldl Item.resized taken = last
  size : (box.cols, box.rows) = last

namespace Counted

variable {box : Outbox} {pushed : Nat} {taken last : Nat × Nat} (h : Counted box pushed taken last)

include h

/-- An item takes the place of the items `old` at the end. -/
theorem put {base old : List Item} (item : Item) (more : Nat) {bytes cols rows : Nat}
    (hits : box.items = base ++ old)
    (hby : bytes + (old.map Item.cost).sum = box.bytes + item.cost)
    (hle : bytes ≤ outboxLimitBytes)
    (hap : ∀ before ∈ base.getLast?, before.isGap = false ∨ item.isGap = false)
    (hmore : item.outputBytes = (old.map Item.outputBytes).sum + more)
    (hsz : item.resized (base.foldl Item.resized taken) = (cols, rows)) :
    Counted { box with items := base ++ [item], bytes, cols, rows } (pushed + more) taken
      (cols, rows) := by
  obtain ⟨hcn, -, hchn, hpushed, -⟩ := h
  rw [hits] at hcn hchn hpushed
  simp only [map_append, sum_append] at hcn hpushed
  refine ⟨?_, hle, ?_, ?_, by rwa [foldl_append], rfl⟩
  · simp only [map_append, sum_append, map_singleton, sum_singleton]
    omega
  · exact isChain_append.mpr ⟨(isChain_append.mp hchn).1, .singleton item, by simpa using hap⟩
  · simp only [map_append, sum_append, map_singleton, sum_singleton]
    omega

theorem dropItem (time bytes cols rows : Nat) :
    Counted (Outbox.dropItem { box with cols, rows } time bytes) (pushed + bytes) taken
      (cols, rows) := by
  rw [Outbox.dropItem]
  split
  · rename_i total _ _ _ hls
    have hits := (dropLast_append_getLast? _ hls).symm
    have hap := h.apart
    rw [hits] at hap
    refine h.put _ _ hits rfl h.bytes_le (fun before hbef => ?_) rfl rfl
    exact (isChain_append.mp hap).2.2 before hbef (.gap total _ _ _) rfl
  rename_i hls
  refine h.put _ _ (append_nil _).symm rfl h.bytes_le (fun before hbef => .inl ?_)
    (Nat.zero_add bytes).symm rfl
  cases before with
  | gap total time' cols rows => exact absurd hbef (hls total time' cols rows)
  | output | resize => rfl

theorem pushOutput (hop : box.closed = false) (time : Nat) (data : Bytes) :
    Counted (box.pushOutput time data) (pushed + data.length) taken last := by
  obtain rfl := h.size
  rw [Outbox.pushOutput, if_neg (by simp [hop])]
  split_ifs with hfull
  · exact h.dropItem time data.length box.cols box.rows
  · exact h.put _ _ (append_nil _).symm rfl (not_lt.mp hfull) (fun _ _ => .inr rfl)
      (Nat.zero_add _).symm h.resized

theorem pushResize (hop : box.closed = false) (time cols rows : Nat) :
    Counted (box.pushResize time cols rows) pushed taken (cols, rows) := by
  rw [Outbox.pushResize]
  rw [if_neg (by simp [hop])]
  split
  · rename_i hls
    exact h.put (.resize time cols rows) 0
      (dropLast_append_getLast? _ hls).symm rfl h.bytes_le (fun _ _ => .inr rfl) rfl rfl
  split_ifs with hfull
  · exact h.dropItem time 0 cols rows
  · exact h.put (.resize time cols rows) 0 (append_nil _).symm rfl
      (not_lt.mp hfull) (fun _ _ => .inr rfl) rfl rfl

end Counted

/-! ## Whole runs -/

inductive Call where
  | output (time : Nat) (data : Bytes)
  | resize (time cols rows : Nat)
  | finish
  | take
  | close
deriving DecidableEq

/-- An outbox in use.  Not kept by it are `pushed`, the output since the last `take`, `taken`, the size
of the terminal then, and `last`, the size that was pushed last. -/
structure Use where
  box : Outbox
  pushed : Nat
  (taken last : Nat × Nat)
deriving DecidableEq

namespace Use

def new (cols rows : Nat) : Use := ⟨.new cols rows, 0, (cols, rows), (cols, rows)⟩

def step (use : Use) : Call → Use
  | .output time data =>
    { use with box := use.box.pushOutput time data, pushed := use.pushed + data.length }
  | .resize time cols rows =>
    { use with box := use.box.pushResize time cols rows, last := (cols, rows) }
  | .finish => { use with box := use.box.finish }
  | .take => ⟨use.box.take, 0, use.last, use.last⟩
  | .close => { use with box := use.box.close }

/-- A closed outbox is empty; an open one counts what was pushed since the last `take`. -/
def Kept (use : Use) : Prop :=
  (use.box.closed = true ∧ use.box.items = [] ∧ use.box.bytes = 0) ∨
    (use.box.closed = false ∧ Counted use.box use.pushed use.taken use.last)

theorem Kept.step {use : Use} (h : use.Kept) (call : Call) : (use.step call).Kept := by
  rcases h with ⟨hcls, hemp⟩ | ⟨hop, hcnt⟩
  · left
    cases call with
    | output => simpa [Use.step, Outbox.pushOutput, hcls] using hemp
    | resize => simpa [Use.step, Outbox.pushResize, hcls] using hemp
    | finish => exact ⟨hcls, hemp⟩
    | take => exact ⟨hcls, rfl, rfl⟩
    | close => exact ⟨rfl, rfl, rfl⟩
  cases call with
  | output time data =>
    exact .inr ⟨(closed_pushOutput ..).trans hop, hcnt.pushOutput hop time data⟩
  | resize time cols rows =>
    exact .inr ⟨(closed_pushResize ..).trans hop, hcnt.pushResize hop time cols rows⟩
  | finish =>
    obtain ⟨hby, hle, hap, hpushed, hresized, hsz⟩ := hcnt
    exact .inr ⟨hop, hby, hle, hap, hpushed, hresized, hsz⟩
  | take => exact .inr ⟨hop, rfl, Nat.zero_le _, .nil, rfl, rfl, hcnt.size⟩
  | close => exact .inl ⟨rfl, rfl, rfl⟩

end Use

/-- **Nothing goes unaccounted for** until the outbox is closed. -/
theorem outbox_accounts (cols rows : Nat) (calls : List Call) :
    (Trace.run Use.step (.new cols rows) calls).Kept :=
  Trace.run_invariant (fun _ call h => h.step call)
    (.inr ⟨rfl, rfl, Nat.zero_le _, .nil, rfl, rfl, rfl⟩) calls

/-- What is pushed into a closed outbox is gone. -/
theorem closed_outbox_drops :
    let use := Trace.run Use.step (.new 80 24) [.close, .output 0 [104]]
    (use.box.items.map Item.outputBytes).sum = 0 ∧ use.pushed = 1 := by
  decide

end Intar.Gateway.Mirror
