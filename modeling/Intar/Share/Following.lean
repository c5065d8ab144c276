import Intar.Share.NamedFiles
import Intar.Share.Viewer

/-!
# A viewer follows a live share

The share and one viewer, side by side.  The viewer reads heads and files while flushes go on, fail and
are tried again, and between any two of its reads anything may happen to the share.

The files of a fetch plan lead from the segment a viewer holds to the one the head names, each of them
from where the one before it ends (`Leads`).  What lies between two cuts of the log stays what it is
(`Publishing.between_eq`), so it does not matter when each file is read, and adjacent stretches make
one (`between_append`).  The model of the viewer is then the fold over the log up to the segment it has
applied.
-/

namespace Intar.Share

open NumberedLog (Ordered slice slice_append_slice)
open Trace (run)
open List

/-! ## From one segment to another -/

/-- The file takes a viewer from the segment `a` on. -/
def Spans (a : ℕ) (fetch : ShareFetch) : Prop :=
  fetch = ⟨.segment 1 (a + 1), a + 1⟩ ∨
    ∃ k, a = k * checkpointSegments ∧ fetch = ⟨.checkpoint 1 (k + 1), (k + 1) * checkpointSegments⟩

theorem Spans.lt {a : ℕ} {fetch : ShareFetch} (h : Spans a fetch) : a < fetch.through := by
  rcases h with rfl | ⟨k, rfl, rfl⟩
  · exact Nat.lt_succ_self a
  simp only [checkpointSegments]
  omega

/-- The files take a viewer from `a` to `b`, and those that answered hold what is between their
ends. -/
def Leads (contents : ℕ → ℕ → List StoredMessage) : ℕ → List Asked → ℕ → Prop
  | a, [], b => a = b
  | a, asked :: files, b =>
    Spans a asked.fetch ∧
      (∀ answer, asked.answer = some answer → answer = .messages (contents a asked.fetch.through)) ∧
      Leads contents asked.fetch.through files b

/-- Files that were not asked for yet. -/
def unasked (plan : List ShareFetch) : List Asked := plan.map (⟨·, none⟩)

variable {b c k : ℕ}

section

variable {contents contents' : ℕ → ℕ → List StoredMessage} {a : ℕ} {files files' : List Asked}

theorem Leads.le (h : Leads contents a files b) : a ≤ b := by
  induction files generalizing a with
  | nil => exact le_of_eq h
  | cons _ _ ih => exact (le_of_lt h.1.lt).trans (ih h.2.2)

theorem Leads.append (h : Leads contents a files b) (h' : Leads contents b files' c) :
    Leads contents a (files ++ files') c := by
  induction files generalizing a with
  | nil =>
    rw [show a = b from h]
    exact h'
  | cons _ _ ih => exact ⟨h.1, h.2.1, ih h.2.2⟩

/-- Only what lies below the end matters. -/
theorem Leads.congr (h : Leads contents a files b)
    (heq : ∀ x y, x ≤ b → y ≤ b → contents x y = contents' x y) : Leads contents' a files b := by
  induction files generalizing a with
  | nil => exact h
  | cons _ _ ih =>
    refine ⟨h.1, fun answer hans => ?_, ih h.2.2⟩
    have hthrough := h.2.2.le
    rw [h.2.1 answer hans, heq _ _ (h.1.lt.le.trans hthrough) hthrough]

/-- A file that answers with what is between its ends. -/
theorem Leads.ask {bucket : Path → Option File}
    (hbkt : ∀ x fetch, Spans x fetch → fetch.through ≤ b →
      bucket fetch.path = some (.lines (contents x fetch.through)))
    (h : Leads contents a files b) (index : ℕ) :
    Leads contents a (files.modify index (·.ask bucket)) b := by
  induction files generalizing a index with
  | nil =>
    rw [modify_nil]
    exact h
  | cons asked _ ih =>
    obtain ⟨hspn, hans, hrs⟩ := h
    cases index with
    | succ index =>
      rw [modify_succ_cons]
      exact ⟨hspn, hans, ih hrs index⟩
    | zero =>
      rw [modify_zero_cons, Asked.ask]
      split
      · exact ⟨hspn, hans, hrs⟩
      refine ⟨hspn, fun answer heq => ?_, hrs⟩
      have hfl := hbkt a asked.fetch hspn hrs.le
      rw [hfl] at heq
      exact (Option.some.inj heq).symm

/-! ### The plan -/

theorem leads_segments (h : a ≤ b) : Leads contents a (unasked (segmentFetches 1 (a + 1) b)) b := by
  obtain ⟨n, rfl⟩ := Nat.exists_eq_add_of_le h
  rw [segmentFetches, show a + n + 1 - (a + 1) = n by omega]
  clear h
  induction n generalizing a with
  | zero => rfl
  | succ n ih =>
    rw [List.range'_succ]
    refine ⟨.inl rfl, nofun, ?_⟩
    have := ih (a := a + 1)
    rwa [show a + 1 + n = a + (n + 1) by omega] at this

theorem leads_checkpoints {m : ℕ} (h : k ≤ m) :
    Leads contents (k * checkpointSegments) (unasked (checkpointFetches 1 (k + 1) m))
      (m * checkpointSegments) := by
  obtain ⟨n, rfl⟩ := Nat.exists_eq_add_of_le h
  rw [checkpointFetches, show k + n + 1 - (k + 1) = n by omega]
  clear h
  induction n generalizing k with
  | zero => rfl
  | succ n ih =>
    rw [List.range'_succ]
    refine ⟨.inr ⟨k, rfl, rfl⟩, nofun, ?_⟩
    have := ih (k := k + 1)
    rwa [show k + 1 + n = k + (n + 1) by omega] at this

/-- **The plan leads to the head**, whether it goes by segments or by checkpoints. -/
theorem leads_plan {head : ShareHead} (h : a ≤ head.segment) :
    Leads contents a (unasked (shareFetchPlan 1 a head)) head.segment := by
  rw [shareFetchPlan]
  obtain ⟨complete, hcompl⟩ : ∃ complete,
      complete = min head.checkpoint (head.segment / checkpointSegments) := ⟨_, rfl⟩
  obtain ⟨first, hfst⟩ : ∃ first,
      first = (a + (checkpointSegments - 1)) / checkpointSegments := ⟨_, rfl⟩
  rw [← hcompl, ← hfst]
  split
  · exact leads_segments h
  rename_i hle
  have hst : a ≤ first * checkpointSegments := by
    simp only [checkpointSegments] at hfst ⊢
    omega
  have hend : complete * checkpointSegments ≤ head.segment := by
    simp only [checkpointSegments] at hcompl ⊢
    omega
  rw [Nat.add_sub_cancel, unasked, map_append, map_append]
  refine (leads_segments hst).append (.append ?_ (leads_segments hend))
  exact leads_checkpoints (by omega)

/-- The segments that a file holds. -/
def Path.segments : Path → List ℕ
  | .segment _ index => [index]
  | .checkpoint _ index => List.range' ((index - 1) * checkpointSegments + 1) checkpointSegments
  | _ => []

/-- What a plan delivers: the segments of each file, and the one it says they end with. -/
def delivered (plan : List ShareFetch) : List (List ℕ × ℕ) :=
  plan.map fun fetch => (fetch.path.segments, fetch.through)

theorem delivered_shareFetchPlan (generation : ℕ) (head : ShareHead) :
    delivered (shareFetchPlan generation a head) = delivered (shareFetchPlan 1 a head) := by
  rw [shareFetchPlan, shareFetchPlan]
  simp only [delivered, segmentFetches, checkpointFetches, apply_ite (map _), map_append, map_map]
  rfl

theorem Spans.segments {fetch : ShareFetch} (h : Spans a fetch) :
    fetch.path.segments = List.range' (a + 1) (fetch.through - a) := by
  rcases h with rfl | ⟨k, rfl, rfl⟩
  · rw [Nat.add_sub_cancel_left]
    rfl
  rw [Nat.succ_mul, Nat.add_sub_cancel_left]
  rfl

theorem Leads.delivered {plan : List ShareFetch} (h : Leads contents a (unasked plan) b) :
    (delivered plan).flatMap Prod.fst = List.range' (a + 1) (b - a) ∧
      (a :: (Share.delivered plan).map Prod.snd).IsChain (· < ·) ∧
      ∀ file ∈ Share.delivered plan, file.1.getLast? = some file.2 := by
  induction plan generalizing a with
  | nil =>
    rw [show a = b from h, Nat.sub_self]
    exact ⟨rfl, .singleton b, nofun⟩
  | cons fetch plan ih =>
    have hspn : Spans a fetch := h.1
    have hrs : Leads contents fetch.through (unasked plan) b := h.2.2
    obtain ⟨hsegs, hchn, hls⟩ := ih hrs
    have hlt := hspn.lt
    have hle := hrs.le
    refine ⟨?_, .cons_cons hlt hchn, forall_mem_cons.mpr ⟨?_, hls⟩⟩
    · show fetch.path.segments ++ (Share.delivered plan).flatMap Prod.fst = _
      rw [hsegs, hspn.segments,
        show fetch.through + 1 = a + 1 + (fetch.through - a) by omega, range'_append_1]
      congr 1
      omega
    · show fetch.path.segments.getLast? = some fetch.through
      rw [hspn.segments, getLast?_range', if_neg (by omega)]
      congr 1
      omega

theorem shareFetchPlan_eq_nil {generation : ℕ} {head : ShareHead} (h : head.segment ≤ a) :
    shareFetchPlan generation a head = [] := by
  have hbehind : min head.checkpoint (head.segment / checkpointSegments) <
      (a + (checkpointSegments - 1)) / checkpointSegments + 1 := by
    simp only [checkpointSegments]
    omega
  rw [shareFetchPlan, if_pos hbehind, segmentFetches, Nat.sub_eq_zero_of_le (by omega)]
  rfl

/-- **The plan is exact.**  Its files hold the segments after the one that is applied, up to the one
of the head, each once and in order; each of them ends further on, where it says it does; and there
are none if the head is not ahead. -/
theorem shareFetchPlan_exact (generation applied : ℕ) (head : ShareHead) :
    let files := delivered (shareFetchPlan generation applied head)
    files.flatMap Prod.fst = List.range' (applied + 1) (head.segment - applied) ∧
      (applied :: files.map Prod.snd).IsChain (· < ·) ∧
      (∀ file ∈ files, file.1.getLast? = some file.2) ∧
      (files = [] ↔ head.segment ≤ applied) := by
  intro files
  rcases le_or_gt head.segment applied with hle | hlt
  · have hnil : files = [] := congrArg delivered (shareFetchPlan_eq_nil hle)
    rw [hnil, Nat.sub_eq_zero_of_le hle]
    exact ⟨rfl, .singleton applied, nofun, by simpa using hle⟩
  have hfs : files = delivered (shareFetchPlan 1 applied head) := delivered_shareFetchPlan ..
  have hlds : Leads (fun _ _ => []) applied (unasked (shareFetchPlan 1 applied head))
      head.segment := leads_plan hlt.le
  obtain ⟨hsegs, hchn, hls⟩ := hlds.delivered
  rw [← hfs] at hsegs hchn hls
  refine ⟨hsegs, hchn, hls, fun hnil => ?_, fun hle => absurd hlt (not_lt.mpr hle)⟩
  rw [hnil, eq_comm, flatMap_nil, range'_eq_nil_iff] at hsegs
  omega

end

/-! ## Stretches of the log -/

namespace Publishing

variable {s : State} {a : ℕ}

variable (h : Publishing s)

include h

theorem cut_mono (hab : a ≤ b) (hb : ∀ k ≤ b, Published s.heads k) :
    cut s.heads a ≤ cut s.heads b := by
  induction hab with
  | refl => exact le_rfl
  | @step b _ ih =>
    exact (ih fun k hk => hb k (hk.trans (Nat.le_succ _))).trans (h.cut_le b (hb _ le_rfl))

theorem between_append (hab : a ≤ b) (hbc : b ≤ c)
    (hc : ∀ k ≤ c, Published s.heads k) : s.between a b ++ s.between b c = s.between a c :=
  slice_append_slice h.ordered (h.cut_mono hab fun k hk => hc k (hk.trans hbc)) (h.cut_mono hbc hc)

/-- A stretch is made of its segments. -/
theorem between_eq_flatMap (a n : ℕ) (hp : ∀ k ≤ a + n, Published s.heads k) :
    s.between a (a + n) = (List.range n).flatMap fun i => s.between (a + i) (a + i + 1) := by
  induction n with
  | zero =>
    rw [range_zero, flatMap_nil, State.between]
    exact NumberedLog.slice_self
  | succ n ih =>
    rw [range_succ, flatMap_append, ← ih fun k hk => hp k (by omega), flatMap_singleton]
    exact (h.between_append (Nat.le_add_right _ _) (Nat.le_succ _) hp).symm

/-- What a file that a head names holds. -/
theorem bucket_of_spans {fetch : ShareFetch} (hspn : Spans a fetch)
    (hp : Published s.heads fetch.through) :
    s.bucket fetch.path = some (.lines (s.between a fetch.through)) := by
  rcases hspn with rfl | ⟨k, rfl, rfl⟩
  · exact h.segments a hp
  · exact h.checkpoints k hp

end Publishing

/-! ## The share and its viewer -/

structure Watch where
  share : State
  viewer : Viewer := {}

inductive WatchAct
  | share (act : Act)
  | viewer (act : ViewerAct)

def Watch.step (length : StoredMessage → ℕ) (w : Watch) : WatchAct → Watch
  | .share act => { w with share := w.share.step length act }
  | .viewer act => { w with viewer := w.viewer.step w.share.heads w.share.bucket act }

/-- A viewer opens the page of a share that is set up. -/
def Watch.started (mission : String) : Watch := { share := .started mission }

/-- What a viewer was told before the first message. -/
def Viewer.opening (v : Viewer) (mission : String) : List ShareUpdate :=
  (if v.loaded then [.mission mission] else []) ++ if v.announced then [.generation 1] else []

/-- What the viewer holds is the log up to the segment it has applied. -/
structure Holding (mission : String) (s : State) (v : Viewer) : Prop where
  file : s.bucket .mission = some (.mission mission)
  seen : ∃ head, s.heads[v.seen]? = some head ∧ v.applied ≤ head.segment
  generation : v.generation = 1 ∨ v.generation = 0 ∧ v.announced = false
  loaded : v.announced = true → v.loaded = true
  fresh : v.announced = false → v.applied = 0
  model : v.model = applyShareMessages {} (v.opening mission ++ (s.between 0 v.applied).map .stored)
  reached : ∀ head, v.reached = some head → head ∈ s.heads ∧ head.segment = v.applied

/-- The files that are left lead to the head of the round. -/
def RoundOk (s : State) (v : Viewer) : Round → Prop
  | .idle => True
  | .mission head => v.loaded = false ∧ s.heads[v.seen]? = some head
  | .delivering head _ files => v.loaded = true ∧ v.generation = 1 ∧
      s.heads[v.seen]? = some head ∧ Leads s.between v.applied files head.segment

structure Following (mission : String) (s : State) (v : Viewer) : Prop extends
    Holding mission s v where
  round : RoundOk s v v.round

theorem applyShareMessages_append (state : SharedRunState) (first second : List ShareUpdate) :
    applyShareMessages state (first ++ second) =
      applyShareMessages (applyShareMessages state first) second :=
  foldl_append

variable {mission : String} {t : State} {v : Viewer}

namespace Holding

variable {s : State} {head : ShareHead}

theorem published (hp : Publishing s) (h : Holding mission s v) (hk : k ≤ v.applied) :
    Published s.heads k := by
  obtain ⟨_, hhe, hle⟩ := h.seen
  exact hp.published_of_le (mem_of_getElem? hhe) (hk.trans hle)

/-- The share goes on. -/
theorem extend (hp : Publishing s) (hext : Extends s t) (h : Holding mission s v) :
    Holding mission t v := by
  obtain ⟨_, hmore⟩ := hext.heads
  refine { h with file := hext.mission.trans h.file, seen := ?_, model := ?_, reached := ?_ }
  · obtain ⟨head, hhe, hle⟩ := h.seen
    refine ⟨head, ?_, hle⟩
    rw [← hmore]
    rw [getElem?_append_left (List.getElem?_eq_some_iff.mp hhe).1]
    exact hhe
  · rw [hp.between_eq hext (h.published hp (Nat.zero_le _)) (h.published hp le_rfl)]
    exact h.model
  · exact fun head hhe => ⟨hext.heads.subset (h.reached head hhe).1, (h.reached head hhe).2⟩

section

variable (h : Holding mission s v)

include h

/-- Nothing was applied before the generation is announced. -/
theorem between_nil (hno : v.announced = false) : s.between 0 v.applied = [] := by
  rw [h.fresh hno, State.between]
  exact NumberedLog.slice_self

theorem announce (hld : v.loaded = true) (hgen : v.generation = 1) :
    Holding mission s v.announce := by
  rw [Viewer.announce]
  by_cases hann : v.announced = true
  · rw [if_pos hann]
    exact h
  rw [if_neg hann]
  have hno := Bool.eq_false_of_not_eq_true hann
  refine { h with
    generation := .inl hgen, loaded := fun _ => hld, fresh := nofun, model := ?_ }
  have hmod := h.model
  rw [h.between_nil hno, Viewer.opening, hno, hld] at hmod
  show applyShareMessages v.model [.generation v.generation] = applyShareMessages {}
    (((if v.loaded then [.mission mission] else []) ++ [.generation 1]) ++ (s.between 0 v.applied).map .stored)
  rw [h.between_nil hno, hmod, hgen, hld]
  rfl

theorem enter :
    Holding mission s (v.enter 1) ∧ (v.enter 1).generation = 1 ∧ (v.enter 1).loaded = v.loaded ∧
      (v.enter 1).applied = v.applied ∧ (v.enter 1).seen = v.seen := by
  rw [Viewer.enter]
  rcases h.generation with hgen | ⟨hgen, hno⟩
  · rw [if_pos hgen.symm]
    exact ⟨h, hgen, rfl, rfl, rfl⟩
  rw [if_neg (by rw [hgen]; exact Nat.one_ne_zero)]
  have hzero := h.fresh hno
  refine ⟨{ h with
    generation := .inl rfl, loaded := nofun, fresh := fun _ => rfl
    seen := ?_, model := ?_, reached := ?_ }, rfl, rfl, hzero.symm, rfl⟩
  · obtain ⟨head, hhe, -⟩ := h.seen
    exact ⟨head, hhe, Nat.zero_le _⟩
  · have hmod := h.model
    rw [Viewer.opening, hno, hzero] at hmod
    exact hmod
  · rw [← hzero]
    exact h.reached

/-- The round ends at its head. -/
theorem finish (hld : v.loaded = true) (hgen : v.generation = 1)
    (hhe : head ∈ s.heads) (hseg : head.segment = v.applied) :
    Following mission s (v.finish head) := by
  have hannc := h.announce hld hgen
  have happ : v.announce.applied = v.applied := by
    rw [Viewer.announce]
    split <;> rfl
  refine { hannc with round := trivial, reached := fun reached hrchd => ?_ }
  rw [← Option.some.inj hrchd]
  exact ⟨hhe, hseg.trans happ.symm⟩

/-- The files that are left lead to the head. -/
theorem deliver (hld : v.loaded = true) (hgen : v.generation = 1)
    (hhe : s.heads[v.seen]? = some head) {files : List Asked}
    (hlds : Leads s.between v.applied files head.segment) (looks : ℕ) :
    Following mission s (v.deliver head looks files) := by
  rw [Viewer.deliver]
  by_cases hfs : files = []
  · rw [if_pos hfs]
    rw [hfs] at hlds
    exact h.finish hld hgen (mem_of_getElem? hhe) (Eq.symm hlds)
  · rw [if_neg hfs]
    exact { h with round := ⟨hld, hgen, hhe, hlds⟩ }

end

theorem follow (hp : Publishing s) (h : Holding mission s v) (hld : v.loaded = true)
    (hhe : s.heads[v.seen]? = some head) (hle : v.applied ≤ head.segment) (looks : ℕ) :
    Following mission s (v.follow head looks) := by
  rw [Viewer.follow, (hp.head_live head (mem_of_getElem? hhe)).1]
  obtain ⟨henter, hgen, hl, happ, hseen⟩ := h.enter
  refine henter.deliver (hl.trans hld) hgen (by rw [hseen]; exact hhe) ?_ looks
  rw [hgen]
  exact leads_plan (happ.trans_le hle)

end Holding

namespace Following

variable {s : State} {head : ShareHead}

theorem extend (hp : Publishing s) (hext : Extends s t) (h : Following mission s v) :
    Following mission t v := by
  refine { h.toHolding.extend hp hext with round := ?_ }
  have hrnd := h.round
  obtain ⟨_, hmore⟩ := hext.heads
  have hsm : ∀ head, s.heads[v.seen]? = some head → t.heads[v.seen]? = some head := by
    intro _ hhe
    rw [← hmore, getElem?_append_left (List.getElem?_eq_some_iff.mp hhe).1]
    exact hhe
  cases hv : v.round with
  | idle => trivial
  | mission head =>
    rw [hv] at hrnd
    exact ⟨hrnd.1, hsm head hrnd.2⟩
  | delivering head =>
    rw [hv] at hrnd
    obtain ⟨hld, hgen, hhe, hlds⟩ := hrnd
    have hpub : ∀ k ≤ head.segment, Published s.heads k := fun k hk =>
      hp.published_of_le (mem_of_getElem? hhe) hk
    exact ⟨hld, hgen, hsm head hhe, hlds.congr fun x y hx hy =>
      (hp.between_eq hext (hpub x hx) (hpub y hy)).symm⟩

/-- A viewer that gives up a round keeps what it has. -/
theorem fail (h : Following mission s v) : Following mission s { v with round := .idle } :=
  { h with round := trivial }

variable (hp : Publishing s)

include hp

/-- Heads that are read later name at least as many segments. -/
theorem see (h : Holding mission s v) {index : ℕ} (hrd : v.readHead s.heads index = some head) :
    s.heads[index]? = some head ∧ v.applied ≤ head.segment ∧
      Holding mission s { v with seen := index } := by
  rw [Viewer.readHead] at hrd
  split at hrd
  · rename_i hle
    obtain ⟨old, hold, happ⟩ := h.seen
    have hseg : old.segment ≤ head.segment := by
      obtain ⟨hltOld, hgetOld⟩ := List.getElem?_eq_some_iff.mp hold
      obtain ⟨hlt, hget⟩ := List.getElem?_eq_some_iff.mp hrd
      rcases Nat.lt_or_eq_of_le hle with hlt' | heq
      · rw [← hgetOld, ← hget]
        exact pairwise_iff_getElem.mp hp.sorted _ _ hltOld hlt hlt'
      · rw [heq, hrd] at hold
        rw [Option.some.inj hold]
    exact ⟨hrd, happ.trans hseg,
      { h with seen := ⟨head, hrd, happ.trans hseg⟩ }⟩
  · exact nomatch hrd

variable (h : Following mission s v)

include h

theorem look (index : ℕ) : Following mission s (v.look s.heads index) := by
  rw [Viewer.look]
  split
  · rename_i hrd
    obtain ⟨hhe, hle, hseen⟩ := see hp h.toHolding hrd
    split
    · rename_i hld
      exact hseen.follow hp hld hhe hle 1
    · rename_i hld
      exact { hseen with round := ⟨Bool.eq_false_of_not_eq_true hld, hhe⟩ }
  · exact h

theorem readMission : Following mission s (v.readMission s.bucket) := by
  rw [Viewer.readMission]
  split
  · rename_i head text hrnd hfl
    have hok := h.round
    rw [hrnd] at hok
    obtain ⟨hld, hhe⟩ := hok
    have hno : v.announced = false := by
      by_contra hyes
      have hyes' := h.loaded (Bool.eq_true_of_not_eq_false hyes)
      rw [hld] at hyes'
      exact nomatch hyes'
    have htext : text = mission := by
      rw [h.file] at hfl
      exact (File.mission.inj (Option.some.inj hfl)).symm
    have hhd : Holding mission s ({ v with loaded := true }.say [.mission text]) := by
      refine { h.toHolding with loaded := fun _ => rfl, model := ?_ }
      have hmod := h.model
      rw [h.between_nil hno, Viewer.opening, hno, hld] at hmod
      show applyShareMessages v.model [.mission text] = applyShareMessages {}
        (([.mission mission] ++ if v.announced then [.generation 1] else []) ++
          (s.between 0 v.applied).map .stored)
      rw [h.between_nil hno, hmod, hno, htext]
      rfl
    refine hhd.follow hp rfl hhe ?_ 1
    show v.applied ≤ head.segment
    rw [h.fresh hno]
    exact Nat.zero_le _
  · exact h.fail
  · exact h

theorem fetch (index : ℕ) : Following mission s (v.fetch s.bucket index) := by
  rw [Viewer.fetch]
  split
  · rename_i hrnd
    have hok := h.round
    rw [hrnd] at hok
    obtain ⟨hld, hgen, hhe, hlds⟩ := hok
    split
    · refine { h with round := ⟨hld, hgen, hhe, hlds.ask ?_ index⟩ }
      intro _ _ hspn hle
      exact hp.bucket_of_spans hspn (hp.published_of_le (mem_of_getElem? hhe) hle)
    · exact h
  · exact h

/-- A file is applied: what is between its ends comes after what the viewer has. -/
theorem deliverNext : Following mission s v.deliverNext := by
  rw [Viewer.deliverNext]
  split
  · rename_i head looks fetch list _ hrnd
    have hok := h.round
    rw [hrnd] at hok
    obtain ⟨hld, hgen, hhe, hspn, hans, hlds⟩ := hok
    have hlist : list = s.between v.applied fetch.through := Answer.messages.inj (hans _ rfl)
    have hannc := h.toHolding.announce hld hgen
    obtain ⟨hyes, hl, hg, happ, hseen⟩ : v.announce.announced = true ∧
        v.announce.loaded = v.loaded ∧ v.announce.generation = v.generation ∧
        v.announce.applied = v.applied ∧ v.announce.seen = v.seen := by
      rw [Viewer.announce]
      split
      · rename_i hann
        exact ⟨hann, rfl, rfl, rfl, rfl⟩
      · exact ⟨rfl, rfl, rfl, rfl, rfl⟩
    refine Holding.deliver (v := { v.announce.say (list.map .stored) with
      applied := fetch.through, reached := none }) ?_ (hl.trans hld) (hg.trans hgen)
      (by show s.heads[v.announce.seen]? = some head; rw [hseen]; exact hhe) hlds looks
    refine { hannc with
      seen := ⟨head, ?_, hlds.le⟩, fresh := fun hno => ?_, model := ?_
      reached := nofun }
    · show s.heads[v.announce.seen]? = some head
      rw [hseen]
      exact hhe
    · replace hno : v.announce.announced = false := hno
      rw [hyes] at hno
      exact nomatch hno
    have hpub : ∀ k ≤ fetch.through, Published s.heads k := fun k hk =>
      hp.published_of_le (mem_of_getElem? hhe) (hk.trans hlds.le)
    show applyShareMessages v.announce.model (list.map .stored) = applyShareMessages {}
      (v.announce.opening mission ++ (s.between 0 fetch.through).map .stored)
    rw [hannc.model, happ, hlist, ← applyShareMessages_append, append_assoc,
      ← map_append, hp.between_append (Nat.zero_le _) hspn.lt.le hpub]
  · exact h

/-- **The viewer keeps up**, whatever it does next. -/
theorem step (act : ViewerAct) : Following mission s (v.step s.heads s.bucket act) := by
  cases act with
  | look index => exact h.look hp index
  | mission => exact h.readMission hp
  | fetch index => exact h.fetch hp index
  | deliver => exact h.deliverNext hp
  | fail => exact h.fail
  | lookAgain =>
    rw [Viewer.step, Viewer.lookAgain]
    split
    · -- no file that a head names is ever gone
      rename_i hrnd
      have hok := h.round
      rw [hrnd] at hok
      obtain ⟨-, -, -, -, hans, -⟩ := hok
      exact nomatch hans _ rfl
    · exact h

end Following

/-! ## Runs -/

/-- What happens to the share is what happens to one that is live. -/
def WatchAct.Live : WatchAct → Prop
  | .share act => act.Live
  | .viewer _ => True

/-- The condition on flushes that begin. -/
def WatchAct.Recorded (w : Watch) : WatchAct → Prop
  | .share act => act.Recorded w.share
  | .viewer _ => True

instance (w : Watch) : ∀ act : WatchAct, Decidable (act.Recorded w)
  | .share act => inferInstanceAs (Decidable (act.Recorded w.share))
  | .viewer _ => inferInstanceAs (Decidable True)

theorem following_started (mission : String) : Following mission (.started mission) {} where
  file := rfl
  seen := ⟨State.firstHead, rfl, le_rfl⟩
  generation := .inr ⟨rfl, rfl⟩
  loaded hyes := nomatch hyes
  fresh _ := rfl
  model := rfl
  reached _ hno := nomatch hno
  round := trivial

section

variable (length : StoredMessage → ℕ) {acts : List WatchAct}

theorem following_run
    (h : Trace.Along (Watch.step length) (fun w act => act.Live ∧ act.Recorded w) (.started mission)
      acts) :
    Publishing (run (Watch.step length) (.started mission) acts).share ∧
      Following mission (run (Watch.step length) (.started mission) acts).share
        (run (Watch.step length) (.started mission) acts).viewer := by
  refine h.invariant (P := fun w => Publishing w.share ∧ Following mission w.share w.viewer) ?_
    ⟨publishing_started mission, following_started mission⟩
  rintro w act ⟨hp, hf⟩ ⟨hlv, hrcd⟩
  cases act with
  | share => exact ⟨hp.step length hlv hrcd, hf.extend hp (hp.extends_step length hlv)⟩
  | viewer act => exact ⟨hp, hf.step hp act⟩

end

/-- The messages up to a number. -/
def State.upTo (s : State) (seq : ℕ) : List StoredMessage := slice (·.seq) s.store.log 0 seq

/-- A message is applied, and not skipped as one that is already here. -/
def SharedRunState.take (state : SharedRunState) (row : StoredMessage) : SharedRunState :=
  { state.applyStored row.message with seq := some row.seq }

/-- Messages that come in order are all applied. -/
theorem applyShareMessages_stored {state : SharedRunState} {rows : List StoredMessage}
    (hord : Ordered (·.seq) rows) (hnew : ∀ last, state.seq = some last → ∀ row ∈ rows, last < row.seq) :
    applyShareMessages state (rows.map .stored) = rows.foldl SharedRunState.take state := by
  induction rows generalizing state with
  | nil => rfl
  | cons row rows ih =>
    obtain ⟨hlt, hrs⟩ := pairwise_cons.mp hord
    have hstp : reduceShareMessage state (.stored row) = state.take row := by
      rw [ShareUpdate.stored, reduceShareMessage, if_neg, SharedRunState.take]
      intro hany
      cases hseq : state.seq with
      | none =>
        rw [hseq] at hany
        exact nomatch hany
      | some last =>
        rw [hseq] at hany
        have hle : row.seq ≤ last := of_decide_eq_true hany
        have := hnew last hseq row mem_cons_self
        omega
    show applyShareMessages (reduceShareMessage state (.stored row)) (rows.map .stored) = _
    rw [hstp, foldl_cons]
    refine ih hrs fun last hls => ?_
    rw [← Option.some.inj hls]
    exact hlt

theorem Viewer.opening_seq (v : Viewer) (mission : String) :
    (applyShareMessages {} (v.opening mission)).seq = none := by
  rw [Viewer.opening]
  split <;> split <;> rfl

/-- The segments of a checkpoint, one after another. -/
def State.checkpointParts (s : State) (number : ℕ) : List (Option File) :=
  (List.range checkpointSegments).map fun i =>
    s.bucket (.segment 1 ((number - 1) * checkpointSegments + i + 1))

/-- **A viewer sees each message once and in order.**  At any moment of any run, what a viewer holds
is the fold over the log up to a published head, whose segments are those it has applied; none of the
messages is skipped.  When a round has ended, that is the head of the round.  And a checkpoint that a
head names is its segments, one after another.  No flush may begin with a head that the storage does
not know of and messages stored since. -/
theorem viewer_follows (length : StoredMessage → ℕ) {mission : String} {acts : List WatchAct}
    (hlive : ∀ act ∈ acts, act.Live)
    (hrecorded : Trace.Along (Watch.step length) (fun w act => act.Recorded w) (.started mission) acts)
    {w : Watch} (hw : w = run (Watch.step length) (.started mission) acts) :
    (∃ head ∈ w.share.heads, head.segment = w.viewer.applied ∧
      (∀ reached, w.viewer.reached = some reached → reached.seq = head.seq) ∧
      w.viewer.model = applyShareMessages {}
        (w.viewer.opening mission ++ (w.share.upTo head.seq).map .stored) ∧
      w.viewer.model = (w.share.upTo head.seq).foldl SharedRunState.take
        (applyShareMessages {} (w.viewer.opening mission))) ∧
    ∀ head ∈ w.share.heads, ∀ number, 1 ≤ number → number ≤ head.checkpoint →
      ∃ parts : List (List StoredMessage),
        w.share.checkpointParts number = parts.map (fun part => some (.lines part)) ∧
        w.share.bucket (.checkpoint 1 number) = some (.lines parts.flatten) := by
  have h : Trace.Along (Watch.step length) (fun w act => act.Live ∧ act.Recorded w)
      (.started mission) acts := fun before act after hsp =>
    ⟨hlive act (by rw [hsp]; simp), hrecorded before act after hsp⟩
  obtain ⟨hp, hf⟩ := following_run length h
  rw [← hw] at hp hf
  refine ⟨?_, ?_⟩
  · obtain ⟨head, hhe, hsegment⟩ := hf.toHolding.published hp le_rfl
    have hbtw : w.share.between 0 w.viewer.applied = w.share.upTo head.seq := by
      rw [State.between, State.upTo, hp.cut_zero, hp.head_seq head hhe, hsegment]
    have hmod := hf.model
    rw [hbtw] at hmod
    refine ⟨head, hhe, hsegment, ?_, hmod, ?_⟩
    · intro reached hrchd
      obtain ⟨hmem, hseg⟩ := hf.reached reached hrchd
      rw [hp.head_seq reached hmem, hp.head_seq head hhe, hseg, hsegment]
    · rw [hmod, applyShareMessages_append]
      refine applyShareMessages_stored (hp.ordered.slice _ _) fun last hls => ?_
      rw [Viewer.opening_seq] at hls
      cases hls
  · intro head hhe number _ _
    obtain ⟨k, rfl⟩ : ∃ k, number = k + 1 := ⟨number - 1, by omega⟩
    have hend : (k + 1) * checkpointSegments ≤ head.segment := by
      have := hp.head_checkpoint head hhe
      simp only [checkpointSegments] at this ⊢
      omega
    have hpub : ∀ j ≤ k * checkpointSegments + checkpointSegments, Published w.share.heads j :=
      fun j hj => hp.published_of_le hhe (hj.trans (by rw [← Nat.succ_mul]; exact hend))
    refine ⟨(List.range checkpointSegments).map fun i =>
      w.share.between (k * checkpointSegments + i) (k * checkpointSegments + i + 1), ?_, ?_⟩
    · rw [State.checkpointParts, map_map, Nat.add_sub_cancel]
      refine map_congr_left fun i hi => ?_
      have hi := mem_range.mp hi
      exact hp.segments _ (hpub _ (by omega))
    · rw [← flatMap_def, ← hp.between_eq_flatMap _ _ hpub, ← Nat.succ_mul]
      exact hp.checkpoints k (hpub _ (by rw [Nat.succ_mul]))

namespace Demo

/-- The viewer reads the head at the position and everything it names, which is one file. -/
def visit (index : ℕ) : List WatchAct :=
  [.viewer (.look index), .viewer .mission, .viewer (.fetch 0), .viewer .deliver]

/-- Two flushes, both reported, and a viewer that looks after each. -/
def watched : List WatchAct :=
  ([start] ++ flush true).map .share ++ visit 1 ++ (([output] ++ flush true).map .share ++ visit 2)

theorem viewer_follows_flushed :
    ∃ head : ShareHead, head.segment = 2 ∧
      (run (Watch.step lineLength) (.started "m") watched).viewer.model =
        applyShareMessages {} ([.mission "m", .generation 1] ++
          ((run (Watch.step lineLength) (.started "m") watched).share.upTo head.seq).map .stored) := by
  have hlv : ∀ act ∈ watched, act.Live := by
    intro _ hact
    simp only [watched, visit, flush, start, output, map_append, map_cons, map_nil,
      mem_append, mem_cons, not_mem_nil, or_false] at hact
    rcases hact with (((rfl | rfl | rfl | rfl | rfl | rfl) | rfl | rfl | rfl | rfl) |
      ((rfl | rfl | rfl | rfl | rfl | rfl) | rfl | rfl | rfl | rfl)) <;> trivial
  have hrcd : Trace.Along (Watch.step lineLength) (fun w act => act.Recorded w) (.started "m")
      watched := by
    decide +kernel
  obtain ⟨⟨head, -, hseg, -, hmod, -⟩, -⟩ := viewer_follows lineLength hlv hrcd rfl
  refine ⟨head, hseg.trans (by decide +kernel), hmod.trans ?_⟩
  rw [show Viewer.opening _ "m" = [.mission "m", .generation 1] by decide +kernel]

/-- The head of the first flush lands and is reported as failed; a viewer reads what it names; the
next flush writes the segment again, with one message more, and the viewer does not read it again. -/
theorem viewer_misses_message :
    (run (Watch.step lineLength) (.started "m")
      (([start] ++ flush false).map .share ++ visit 1 ++ (([output] ++ flush true).map .share ++ visit 2))
        ).viewer.reached = some ⟨1, 1, 0, 2, false, false⟩ ∧
      (run (Watch.step lineLength) (.started "m")
        (([start] ++ flush false).map .share ++ visit 1 ++
          (([output] ++ flush true).map .share ++ visit 2))).viewer.model =
        applyShareMessages {} [.mission "m", .generation 1, .stored started] ∧
      (run (Watch.step lineLength) (.started "m")
        (([start] ++ flush false).map .share ++ visit 1 ++
          (([output] ++ flush true).map .share ++ visit 2))).share.upTo 2 = [started, printed] ∧
      applyShareMessages {} [.mission "m", .generation 1, .stored started] ≠
        applyShareMessages {} [.mission "m", .generation 1, .stored started, .stored printed] := by
  decide +kernel

end Demo

end Intar.Share
