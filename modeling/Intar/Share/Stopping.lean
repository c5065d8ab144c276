import Intar.Share.LiveLog

/-!
# A share that is stopped

A stop sets the fence first, waits for the publish in flight, deletes every file it lists, and forgets
the share.  What it does not wait for is the set-up of the share, whose put may land after the files
were listed.  Such a put is checked against the fence once it has settled, and its file is deleted
again: the set-up *owes* the bucket that (`Owed`).  So once a share is wiped, every file that is left
is owed, and when the set-ups have settled none is left.

A put that lands and reports an error is not checked.  The condition `Act.Reported` is that this
does not happen to a put of a set-up after the fence.
-/

namespace Intar.Share

open Function

open Trace (run)
open List

/-- The object is not restarted. -/
def Act.Settles : Act → Prop
  | .restart => False
  | _ => True

/-- The put at which the set-up waits has landed. -/
def putLanded (inits : List Init) (index : ℕ) : Bool :=
  match inits[index]? with
  | some ⟨_, .put put⟩ => put.landed
  | _ => false

/-- After the fence, no put of a set-up lands and reports an error. -/
def Act.Reported (s : State) : Act → Prop
  | .initSettle index ok => s.store.stopped = true → putLanded s.inits index = true → ok = true
  | _ => True

instance (s : State) : ∀ act : Act, Decidable (act.Reported s)
  | .initSettle index ok =>
    inferInstanceAs (Decidable (s.store.stopped = true → putLanded s.inits index = true → ok = true))
  | .receive _ _ | .gone _ _ _ _ | .alarm | .land | .settle _ | .proceed _ | .request _ | .body _
  | .init _ | .initLand _ | .wipe | .wipeProceed _ _ | .restart => inferInstanceAs (Decidable True)

/-! ## What a set-up owes -/

def Await.Owes (path : Path) : Await → Prop
  | .put p => p.landed = true ∧ p.path = path
  | .delete other => other = path

/-- Some set-up will still delete the file. -/
def Owed (inits : List Init) (path : Path) : Prop :=
  ∃ (j : ℕ) (i : Init), inits[j]? = some i ∧ i.await.Owes path

variable {index : ℕ} {i : Init}

section

variable {inits : List Init} {i' : Init} {path : Path}

theorem owed_set_self (h : inits[index]? = some i) (howes : i'.await.Owes path) :
    Owed (inits.set index i') path := by
  have hlt := (List.getElem?_eq_some_iff.mp h).1
  exact ⟨index, i', getElem?_set_self hlt, howes⟩

theorem Owed.set (h : Owed inits path) (hi : inits[index]? = some i) (hnot : ¬ i.await.Owes path) :
    Owed (inits.set index i') path := by
  obtain ⟨j, other, hj, howes⟩ := h
  have hne : index ≠ j := by
    rintro rfl
    rw [hi] at hj
    exact hnot (Option.some.inj hj ▸ howes)
  exact ⟨j, other, by rw [getElem?_set_ne hne]; exact hj, howes⟩

theorem Owed.erase (h : Owed inits path) (hi : inits[index]? = some i) (hnot : ¬ i.await.Owes path) :
    Owed (inits.eraseIdx index) path := by
  obtain ⟨j, other, hj, howes⟩ := h
  have hne : index ≠ j := by
    rintro rfl
    rw [hi] at hj
    exact hnot (Option.some.inj hj ▸ howes)
  rcases Nat.lt_or_gt_of_ne hne with _ | hgt
  · refine ⟨j - 1, other, ?_, howes⟩
    rw [getElem?_eraseIdx_of_ge (by omega), show j - 1 + 1 = j by omega]
    exact hj
  · refine ⟨j, other, ?_, howes⟩
    rw [getElem?_eraseIdx_of_lt hgt]
    exact hj

end

/-! ## The invariant -/

/-- Nothing is there, and nothing will come. -/
def Blank (s : State) : Prop := (∀ path, s.bucket path = none) ∧ s.inits = [] ∧ s.work = none

structure Stopping (s : State) : Prop where
  mission : s.store.mission = true → s.store.shared = true
  blank : s.store.shared = false → s.wiped = false → Blank s
  fence : s.wipes ≠ [] ∨ s.wiped = true → s.store.stopped = true
  -- a stop of a share that had no id has nothing to delete
  waiting : Wipe.waiting false ∈ s.wipes → s.wiped = true ∨ Blank s
  listed : ∀ listed, Wipe.deleting listed ∈ s.wipes → s.work = none ∧
    ∀ path, (s.bucket path).isSome = true → listed path = true ∨ Owed s.inits path
  wiped : s.wiped = true → s.work = none ∧ ∀ path, (s.bucket path).isSome = true → Owed s.inits path

namespace Stopping

variable {s t : State} (length : StoredMessage → ℕ)

/-- No stop has got past the publish in flight. -/
structure Free (s : State) : Prop where
  shared : s.store.shared = true
  wiped : s.wiped = false
  waiting : Wipe.waiting false ∉ s.wipes
  listed : ∀ listed, Wipe.deleting listed ∉ s.wipes

section

variable (h : Stopping s)

include h

theorem free_of_work {work : Work} (hwk : s.work = some work) : Free s := by
  have hnn : s.work ≠ none := by
    rw [hwk]
    exact nofun
  have hwp : s.wiped = false := by
    by_contra hyes
    exact hnn (h.wiped (Bool.eq_true_of_not_eq_false hyes)).1
  refine ⟨?_, hwp, ?_, fun listed hmem => hnn (h.listed listed hmem).1⟩
  · by_contra hno
    exact hnn (h.blank (Bool.eq_false_of_not_eq_true hno) hwp).2.2
  intro hmem
  rcases h.waiting hmem with hyes | hbl
  · rw [hwp] at hyes
    exact nomatch hyes
  · exact hnn hbl.2.2

theorem free_of_running (hstp : s.store.stopped = false)
    (hshr : s.store.shared = true) : Free s := by
  have hwps : s.wipes = [] := by
    by_contra hne
    rw [h.fence (.inl hne)] at hstp
    exact nomatch hstp
  refine ⟨hshr, ?_, by simp [hwps], by simp [hwps]⟩
  by_contra hyes
  rw [h.fence (.inr (Bool.eq_true_of_not_eq_false hyes))] at hstp
  exact nomatch hstp

/-- As long as no stop got that far, files and processes may come and go. -/
theorem of_free (hfr : Free s) (hshr : t.store.shared = s.store.shared := by rfl)
    (hstp : t.store.stopped = s.store.stopped := by rfl) (hwps : t.wipes = s.wipes := by rfl)
    (hwp : t.wiped = s.wiped := by rfl) : Stopping t := by
  have hno : t.wiped ≠ true := by
    rw [hwp, hfr.wiped]
    exact nofun
  refine ⟨fun _ => hshr.trans hfr.shared, fun hfls _ => ?_, ?_, fun hmem => ?_,
    fun listed hmem => ?_, fun hyes => absurd hyes hno⟩
  · rw [hshr, hfr.shared] at hfls
    exact nomatch hfls
  · rw [hwps, hwp, hstp]
    exact h.fence
  · rw [hwps] at hmem
    exact absurd hmem hfr.waiting
  · rw [hwps] at hmem
    exact absurd hmem (hfr.listed listed)

/-- Nothing that matters changes. -/
theorem of_same (hshr : t.store.shared = s.store.shared)
    (hmission : t.store.mission = s.store.mission) (hstp : t.store.stopped = s.store.stopped)
    (hbkt : t.bucket = s.bucket) (hwk : t.work = s.work) (hini : t.inits = s.inits)
    (hwps : t.wipes = s.wipes) (hwp : t.wiped = s.wiped) : Stopping t := by
  refine ⟨?_, ?_, ?_, ?_, ?_, ?_⟩
  · rw [hmission, hshr]
    exact h.mission
  · rw [hshr, hwp, Blank, hbkt, hini, hwk]
    exact h.blank
  · rw [hwps, hwp, hstp]
    exact h.fence
  · rw [hwps, hwp, Blank, hbkt, hini, hwk]
    exact h.waiting
  · rw [hwps, hwk, hbkt, hini]
    exact h.listed
  · rw [hwp, hwk, hbkt, hini]
    exact h.wiped

theorem of_fed (hf : Fed s t) : Stopping t :=
  h.of_same hf.store.shared hf.store.mission hf.store.stopped hf.bucket hf.work hf.inits hf.wipes
    hf.wiped

/-! ### The publish -/

theorem alarm : Stopping (s.step length .alarm) := by
  rw [State.step]
  split
  · exact h
  rw [State.publish]
  split
  · exact h
  rename_i hlv
  have hlv' : s.store.mission = true ∧ s.store.stopped = false := by
    simpa [Store.live] using hlv
  have hfr := h.free_of_running hlv'.2 (h.mission hlv'.1)
  split
  · exact h.of_free hfr
  rw [State.flushLive]
  split
  · exact h
  split
  · exact h
  · exact h.of_free hfr

theorem land : Stopping (s.step length .land) := by
  rw [State.step, State.landWork]
  split
  · exact h
  rename_i hwk
  split
  · exact h
  · exact h.of_free (h.free_of_work hwk) rfl rfl rfl rfl

theorem settle (ok : Bool) : Stopping (s.step length (.settle ok)) := by
  rw [State.step, State.settleWork]
  split
  · exact h
  · rename_i hwk
    have hfr := h.free_of_work hwk
    split
    · exact h.of_free hfr
    · exact h.of_free hfr
  · rename_i work _ hwk
    have hfr := h.free_of_work hwk
    split
    · exact h
    split
    · cases work with
      | segment =>
        rw [Work.resume, State.flushCheckpoint]
        split
        · exact h.of_free hfr
        · exact h.of_free hfr
      | _ => exact h.of_free hfr
    · exact h.of_free hfr
    · exact h.of_free hfr
    · exact h.of_free hfr

theorem proceed (artifact : Option Artifact) : Stopping (s.step length (.proceed artifact)) := by
  rw [State.step, State.proceed]
  split
  · rename_i hwk
    have hfr := h.free_of_work hwk
    rw [State.rebuild]
    split
    · dsimp only
      split <;> exact h.of_free hfr
    · dsimp only
      split <;> exact h.of_free hfr
    · split <;> exact h.of_free hfr
  · rename_i hwk
    have hfr := h.free_of_work hwk
    unfold State.verify
    split
    · split <;> exact h.of_free hfr
    · exact h.of_free hfr
    split
    · exact h.of_free hfr
    split
    · exact h.of_free hfr
    split
    · exact h.of_free hfr
    · split <;> exact h.of_free hfr
  · exact h

/-! ### The set-up -/

theorem init (mission : String) : Stopping (s.step length (.init mission)) := by
  rw [State.step, State.init]
  split
  · exact h
  rename_i hstp
  have hno := Bool.eq_false_of_not_eq_true hstp
  have hwps : s.wipes = [] := by
    by_contra hne
    exact hstp (h.fence (.inl hne))
  have hwp : s.wiped ≠ true := fun hyes => hstp (h.fence (.inr hyes))
  refine ⟨fun _ => rfl, nofun, h.fence, fun hmem => ?_, fun listed hmem => ?_,
    fun hyes => absurd hyes hwp⟩
  · replace hmem : Wipe.waiting false ∈ s.wipes := hmem
    rw [hwps] at hmem
    exact nomatch hmem
  · replace hmem : Wipe.deleting listed ∈ s.wipes := hmem
    rw [hwps] at hmem
    exact nomatch hmem

end

/-- There is a set-up, so the share has its id or was wiped. -/
theorem not_blank (hi : s.inits[index]? = some i) : ¬ Blank s := by
  intro hbl
  rw [hbl.2.1] at hi
  exact nomatch hi

variable (h : Stopping s)

include h

/-- A set-up changes the bucket, and what it owes with it. -/
theorem of_init (hi : s.inits[index]? = some i)
    (hstr : t.store = s.store) (hwk : t.work = s.work) (hwps : t.wipes = s.wipes)
    (hwp : t.wiped = s.wiped)
    (howed : s.store.stopped = true → ∀ path, (t.bucket path).isSome = true →
      ((s.bucket path).isSome = true ∧ (Owed s.inits path → Owed t.inits path)) ∨ Owed t.inits path) :
    Stopping t := by
  refine ⟨?_, fun hshr hno => ?_, ?_, fun hmem => ?_, fun listed hmem => ?_, fun hyes => ?_⟩
  · rw [hstr]
    exact h.mission
  · rw [hstr] at hshr
    rw [hwp] at hno
    exact absurd (h.blank hshr hno) (not_blank hi)
  · rw [hwps, hwp, hstr]
    exact h.fence
  · rw [hwps] at hmem
    rw [hwp]
    exact .inl ((h.waiting hmem).resolve_right (not_blank hi))
  · rw [hwps] at hmem
    obtain ⟨hnn, hlist⟩ := h.listed listed hmem
    refine ⟨hwk.trans hnn, fun path hsm => ?_⟩
    rcases howed (h.fence (.inl (ne_nil_of_mem hmem))) path hsm with ⟨hold, himp⟩ | hnew
    · exact (hlist path hold).imp_right himp
    · exact .inr hnew
  · rw [hwp] at hyes
    obtain ⟨hnn, howes⟩ := h.wiped hyes
    refine ⟨hwk.trans hnn, fun path hsm => ?_⟩
    rcases howed (h.fence (.inr hyes)) path hsm with ⟨hold, himp⟩ | hnew
    · exact himp (howes path hold)
    · exact hnew

theorem initLand (index : ℕ) : Stopping (s.step length (.initLand index)) := by
  rw [State.step, State.initLand]
  split
  · exact h
  rename_i i hi
  split
  · exact h
  rename_i put a hln
  refine h.of_init hi rfl rfl rfl rfl fun _ path hsm => ?_
  replace hsm : (update s.bucket put.path (some put.file) path).isSome = true := hsm
  cases haw : i.await with
  | delete =>
    rw [haw] at hln
    exact nomatch hln
  | put p =>
    rw [haw, Await.land] at hln
    split at hln
    · exact nomatch hln
    rename_i hlanded
    obtain ⟨rfl, rfl⟩ := Prod.mk.inj (Option.some.inj hln)
    by_cases hpt : path = p.path
    · exact .inr (owed_set_self hi ⟨rfl, hpt.symm⟩)
    rw [update_of_ne hpt] at hsm
    refine .inl ⟨hsm, fun howed => howed.set hi ?_⟩
    rw [haw]
    exact fun howes => hlanded howes.1

theorem initSettle {ok : Bool} (hcd : Act.Reported s (.initSettle index ok)) :
    Stopping (s.step length (.initSettle index ok)) := by
  rw [State.step, State.initSettle]
  split
  · exact h
  rename_i i hi
  cases haw : i.await with
  | delete other =>
    -- the file is gone, and nothing is owed any more
    refine h.of_init hi rfl rfl rfl rfl fun _ path hsm => ?_
    replace hsm : (update s.bucket other none path).isSome = true := hsm
    by_cases hpt : path = other
    · rw [hpt, update_self] at hsm
      cases hsm
    rw [update_of_ne hpt] at hsm
    refine .inl ⟨hsm, fun howed => howed.erase hi ?_⟩
    rw [haw]
    exact fun howes => hpt howes.symm
  | put p =>
    simp only [Await.settle]
    by_cases hok : ok = false
    · rw [if_pos hok]
      refine h.of_init hi rfl rfl rfl rfl fun hstp path hsm => ?_
      refine .inl ⟨hsm, fun howed => howed.erase hi ?_⟩
      rw [haw]
      intro howes
      have hln : putLanded s.inits index = true := by
        rw [putLanded, hi]
        obtain ⟨_, await⟩ := i
        rw [show await = .put p from haw]
        exact howes.1
      have hyes := hcd hstp hln
      rw [hok] at hyes
      cases hyes
    · rw [if_neg hok]
      by_cases hln : p.landed = false
      · rw [if_pos hln]
        refine h.of_init hi rfl rfl rfl rfl fun _ path hsm => ?_
        refine .inl ⟨hsm, fun howed => howed.set hi ?_⟩
        rw [haw]
        intro howes
        rw [howes.1] at hln
        cases hln
      · rw [if_neg hln]
        by_cases hwritable : s.store.writable = true
        · rw [if_pos hwritable]
          obtain ⟨hshr, hstp⟩ : s.store.shared = true ∧ s.store.stopped = false := by
            simpa [Store.writable] using hwritable
          have hfr := h.free_of_running hstp hshr
          simp only [State.initResume]
          split
          · exact h.of_free hfr
          · exact h.of_free hfr
        · rw [if_neg hwritable]
          refine h.of_init hi rfl rfl rfl rfl fun _ path hsm => ?_
          by_cases hpt : p.path = path
          · exact .inr (owed_set_self hi hpt)
          refine .inl ⟨hsm, fun howed => howed.set hi ?_⟩
          rw [haw]
          exact fun howes => hpt howes.2

/-! ### The stop -/

theorem wipe : Stopping (s.step length .wipe) := by
  refine ⟨nofun, h.blank, fun _ => rfl, fun hmem => ?_, fun listed hmem => ?_, h.wiped⟩
  · rcases mem_append.mp hmem with hmem | hmem
    · exact h.waiting hmem
    have hshr := (Wipe.waiting.inj (mem_singleton.mp hmem)).symm
    by_cases hwp : s.wiped = true
    · exact .inl hwp
    · exact .inr (h.blank hshr (Bool.eq_false_of_not_eq_true hwp))
  · rcases mem_append.mp hmem with hmem | hmem
    · exact h.listed listed hmem
    · exact nomatch mem_singleton.mp hmem

/-- A stop is at its end: what is left is owed. -/
theorem wipeDone (index : ℕ)
    (howed : s.work = none ∧ ∀ path, (s.bucket path).isSome = true → Owed s.inits path) :
    Stopping (s.wipeDone index) :=
  ⟨nofun, nofun, fun _ => rfl, fun _ => .inl rfl,
    fun listed hmem => h.listed listed (mem_of_mem_eraseIdx hmem), fun _ => howed⟩

theorem wipeProceed (index : ℕ) (ok : Bool) : Stopping (s.step length (.wipeProceed index ok)) := by
  rw [State.step, State.wipeProceed]
  split
  · exact h
  · rename_i hwipe
    have hmem := mem_of_getElem? hwipe
    split
    · exact h
    rename_i hwk
    have hnn := Option.not_isSome_iff_eq_none.mp hwk
    split
    · refine ⟨h.mission, h.blank, fun _ => h.fence (.inl (ne_nil_of_mem hmem)), fun hw => ?_,
        fun listed hl => ?_, h.wiped⟩
      · rcases mem_or_eq_of_mem_set hw with hw | hw
        · exact h.waiting hw
        · exact nomatch hw
      · rcases mem_or_eq_of_mem_set hl with hl | hl
        · exact h.listed listed hl
        rw [Wipe.deleting.inj hl]
        exact ⟨hnn, fun path hsm => .inl hsm⟩
    · rename_i hshr
      rw [Bool.eq_false_of_not_eq_true hshr] at hmem
      refine h.wipeDone index ?_
      rcases h.waiting hmem with hyes | hbl
      · exact h.wiped hyes
      refine ⟨hnn, fun path hsm => ?_⟩
      rw [hbl.1 path] at hsm
      exact nomatch hsm
  · rename_i listed hwipe
    have hmem := mem_of_getElem? hwipe
    obtain ⟨hnn, hlist⟩ := h.listed listed hmem
    split
    · -- what was not listed is owed
      have hrs : ∀ path, (if listed path then none else s.bucket path).isSome = true →
          listed path = false ∧ (s.bucket path).isSome = true := by
        intro path hsm
        by_cases hl : listed path = true
        · rw [if_pos hl] at hsm
          exact nomatch hsm
        · rw [if_neg hl] at hsm
          exact ⟨Bool.eq_false_of_not_eq_true hl, hsm⟩
      have hdel : Stopping { s with bucket := fun path => if listed path then none else s.bucket path } := by
        have hbl : (∀ path, s.bucket path = none) →
            ∀ path, (if listed path then none else s.bucket path) = none :=
          fun hbkt path => by rw [hbkt path, ite_self]
        refine ⟨h.mission, fun hshr hno => (h.blank hshr hno).imp_left hbl, h.fence,
          fun hw => (h.waiting hw).imp_right (And.imp_left hbl), fun other hl => ?_, fun hyes => ?_⟩
        · exact ⟨hnn, fun path hsm => (h.listed other hl).2 path (hrs path hsm).2⟩
        · exact ⟨hnn, fun path hsm => (h.wiped hyes).2 path (hrs path hsm).2⟩
      refine hdel.wipeDone index ⟨hnn, fun path hsm => ?_⟩
      obtain ⟨hno, hsm'⟩ := hrs path hsm
      refine (hlist path hsm').resolve_left fun hyes => ?_
      rw [hno] at hyes
      exact nomatch hyes
    · refine ⟨h.mission, h.blank, fun _ => h.fence (.inl (ne_nil_of_mem hmem)),
        fun hw => h.waiting (mem_of_mem_eraseIdx hw),
        fun other hl => h.listed other (mem_of_mem_eraseIdx hl), h.wiped⟩

/-- **The invariant of a stop** is kept by every step that meets the condition. -/
theorem step {act : Act} (hact : act.Settles) (hcd : act.Reported s) :
    Stopping (s.step length act) := by
  cases act with
  | receive socket frame => exact h.of_fed (fed_receive length socket frame)
  | gone socket ended resumed cleared => exact h.of_fed (fed_gone length socket ended resumed cleared)
  | alarm => exact h.alarm length
  | land => exact h.land length
  | settle ok => exact h.settle length ok
  | proceed artifact => exact h.proceed length artifact
  | request =>
    rw [State.step]
    split
    · exact h
    · exact h.of_same rfl rfl rfl rfl rfl rfl rfl rfl
  | body =>
    rw [State.step]
    split
    · exact h
    rename_i request _
    cases request <;>
    · rw [State.serve]
      split <;> exact h.of_same rfl rfl rfl rfl rfl rfl rfl rfl
  | init mission => exact h.init length mission
  | initLand index => exact h.initLand length index
  | initSettle => exact h.initSettle length hcd
  | wipe => exact h.wipe length
  | wipeProceed index ok => exact h.wipeProceed length index ok
  | restart => exact hact.elim

end Stopping

theorem stopping_new : Stopping {} :=
  ⟨nofun, fun _ _ => ⟨fun _ => rfl, rfl, rfl⟩,
    fun hno => hno.elim (fun hne => absurd rfl hne) nofun, nofun,
    nofun, nofun⟩

/-! ## Afterwards -/

/-- The share is stopped, and nothing of it is left. -/
structure Over (s : State) : Prop where
  stopped : s.store.stopped = true
  blank : Blank s

namespace Over

variable {s : State} (length : StoredMessage → ℕ)

theorem of_fed {t : State} (h : Over s) (hf : Fed s t) : Over t := by
  refine ⟨hf.store.stopped.trans h.stopped, ?_⟩
  rw [Blank, hf.bucket, hf.inits, hf.work]
  exact h.blank

/-- Whatever happens, it stays that way. -/
theorem step (h : Over s) (act : Act) : Over (s.step length act) := by
  obtain ⟨hstp, hbkt, hini, hwk⟩ := h
  have h : Over s := ⟨hstp, hbkt, hini, hwk⟩
  have hlv : s.store.live = false := by simp [Store.live, hstp]
  cases act with
  | receive socket frame => exact h.of_fed (fed_receive length socket frame)
  | gone socket ended resumed cleared => exact h.of_fed (fed_gone length socket ended resumed cleared)
  | alarm =>
    rw [State.step, hwk, State.publish, if_pos hlv]
    exact h
  | land =>
    rw [State.step, State.landWork, hwk]
    exact h
  | settle =>
    rw [State.step, State.settleWork, hwk]
    exact h
  | proceed =>
    rw [State.step, State.proceed, hwk]
    exact h
  | request =>
    rw [State.step, if_pos (.inl hlv)]
    exact h
  | body =>
    rw [State.step]
    split
    · exact h
    rename_i request _
    cases request <;>
    · rw [State.serve]
      split <;> exact ⟨hstp, hbkt, hini, hwk⟩
  | init =>
    rw [State.step, State.init, if_pos hstp]
    exact h
  | initLand =>
    rw [State.step, State.initLand, hini]
    exact h
  | initSettle =>
    rw [State.step, State.initSettle, hini]
    exact h
  | wipe => exact ⟨rfl, hbkt, hini, hwk⟩
  | wipeProceed =>
    rw [State.step, State.wipeProceed]
    split
    · exact h
    · split
      · exact h
      split
      · exact ⟨hstp, hbkt, hini, hwk⟩
      · exact ⟨rfl, hbkt, hini, hwk⟩
    · rename_i listed _
      split
      · refine ⟨rfl, fun path => ?_, hini, hwk⟩
        show (if listed path then none else s.bucket path) = none
        rw [hbkt path, ite_self]
      · exact ⟨hstp, hbkt, hini, hwk⟩
  | restart => exact ⟨hstp, hbkt, rfl, rfl⟩

end Over

/-- **A share that was wiped stays gone.**  In every run in which the share was wiped and no set-up is
in flight any more, the bucket has none of its files, and it has none after whatever happens later, if
no put of a set-up lands and reports an error after the fence. -/
theorem wiped_stays_gone (length : StoredMessage → ℕ) {acts : List Act}
    (hsettles : ∀ act ∈ acts, act.Settles)
    (hreported : Trace.Along (State.step length) (fun s act => act.Reported s) {} acts)
    (hwiped : (run (State.step length) {} acts).wiped = true)
    (hinits : (run (State.step length) {} acts).inits = []) (later : List Act) (path : Path) :
    (run (State.step length) {} (acts ++ later)).bucket path = none := by
  have h : Trace.Along (State.step length) (fun s act => act.Settles ∧ act.Reported s) {} acts :=
    fun before act after hsp => ⟨hsettles act (by rw [hsp]; simp), hreported before act after hsp⟩
  have hstopping : Stopping (run (State.step length) {} acts) :=
    h.invariant (fun _ _ hs hact => hs.step length hact.1 hact.2) stopping_new
  obtain ⟨hwk, howed⟩ := hstopping.wiped hwiped
  have hemp : ∀ path, (run (State.step length) {} acts).bucket path = none := by
    intro path
    by_contra hsm
    obtain ⟨j, i, hi, -⟩ := howed path (Option.isSome_iff_ne_none.mpr hsm)
    rw [hinits] at hi
    exact nomatch hi
  have hover : Over (run (State.step length) {} acts) :=
    ⟨hstopping.fence (.inr hwiped), hemp, hinits, hwk⟩
  have hlat := Trace.run_invariant (P := Over) (fun _ act hs => hs.step length act) hover later
  rw [Trace.run_append]
  exact hlat.blank.1 path

namespace Demo

/-- The share is set up up to its first put, and stopped; the put lands after the files were listed and
deleted, and is reported as done or not. -/
def stopped (reported : Bool) : List Act :=
  [.init "m", .wipe, .wipeProceed 0 true, .wipeProceed 0 true, .initLand 0, .initSettle 0 reported]

theorem wiped_stays_gone_reported :
    (run (State.step lineLength) {} (stopped true ++ [.initSettle 0 true] ++ [.init "m"])).bucket
      .mission = none := by
  refine wiped_stays_gone lineLength ?_ ?_ ?_ ?_ [.init "m"] .mission
  · intro _ hact
    simp only [stopped, mem_append, mem_cons, not_mem_nil, or_false] at hact
    rcases hact with (rfl | rfl | rfl | rfl | rfl | rfl) | rfl <;> trivial
  · decide +kernel
  · decide +kernel
  · decide +kernel

/-- The put lands and reports an error, so it is not checked against the fence. -/
theorem file_left_after_stop :
    (run (State.step lineLength) {} (stopped false)).wiped = true ∧
      (run (State.step lineLength) {} (stopped false)).work = none ∧
      (run (State.step lineLength) {} (stopped false)).inits = [] ∧
      (run (State.step lineLength) {} (stopped false)).wipes.length = 0 ∧
      (run (State.step lineLength) {} (stopped false)).bucket .mission = some (.mission "m") := by
  decide +kernel

end Demo

end Intar.Share
