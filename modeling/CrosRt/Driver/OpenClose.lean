import Mathlib.Data.List.Range
import Mathlib.Logic.Function.Basic
import Mathlib.Algebra.Order.Ring.Int
import CrosRt.Foundations.LabelledRuns

/-! # Opening and closing the device

`rtl_open` and `rtl8169_close` of `r8169_main.c` with what `rtl8169_init_ring` allocates: a page for
each of the 256 receive descriptors, the priority queues and the head of the non-real-time queue.
Whether a request succeeds is up to the environment. Memory is counted by its kind, an address is a
number that is not used again, and `none` as the result of a function is a `NULL` dereference.

The pages are given back on every path. The two queue blocks never are, and both are used before
their allocation is checked.
-/

namespace CrosRt
set_option autoImplicit false

open LabelledRuns

def numRxDesc : ℕ := 256

def enomem : ℤ := -12

/-- The outcomes of the requests of one `rtl_open`, those for the pages by descriptor, and the
return values of `request_irq` and `r8169_phy_connect`. -/
structure OpenRequest where
  txRing : Bool
  rxRing : Bool
  pq : Bool
  nonRt : Bool
  pageAllocated : ℕ → Bool
  pageMapped : ℕ → Bool
  requestIrq : ℤ
  phyConnect : ℤ

/-- The receive descriptors, whether `tp->RxDescArray` is there, and the pages allocated and not
yet freed. -/
structure RxPages where
  rxDescArray : Bool
  rxDatabuff : ℕ → Option ℕ
  live : List ℕ
  next : ℕ

/-- The device with the queue blocks allocated and not yet freed, and the buffers that hang on the
queue head at an address. -/
structure OpenDevice (F : Type*) where
  rx : RxPages
  pq : Option ℕ
  nonRt : Option ℕ
  pqLive : List ℕ
  nonRtLive : List ℕ
  next : ℕ
  queued : ℕ → List F
  up : Bool

namespace RxPages

/-- `rtl8169_rx_clear` from descriptor `i` on. -/
def rxClear : ℕ → ℕ → RxPages → Option RxPages
  | 0, _, rx => some rx
  | rounds + 1, i, rx =>
      match rx.rxDatabuff i with
      | none => some rx
      | some data =>
          if rx.rxDescArray then
            rxClear rounds (i + 1) { rx with
              live := rx.live.erase data
              rxDatabuff := Function.update rx.rxDatabuff i none }
          else none

/-- `rtl8169_alloc_rx_data` for descriptor `i`. -/
def allocRxData (req : OpenRequest) (i : ℕ) (rx : RxPages) : Option (Option ℕ × RxPages) :=
  if req.pageAllocated i then
    if req.pageMapped i then
      if rx.rxDescArray then
        some (some rx.next, { rx with live := rx.live ++ [rx.next], next := rx.next + 1 })
      else none
    else
      some (none, { rx with
        live := (rx.live ++ [rx.next]).erase rx.next, next := rx.next + 1 })
  else some (none, rx)

/-- `rtl8169_rx_fill` from descriptor `i` on. -/
def rxFill (req : OpenRequest) : ℕ → ℕ → RxPages → Option (ℤ × RxPages)
  | 0, _, rx => some (0, rx)
  | rounds + 1, i, rx =>
      match rx.allocRxData req i with
      | none => none
      | some (none, rx) => (rx.rxClear numRxDesc 0).map fun rx => (enomem, rx)
      | some (some data, rx) =>
          rxFill req rounds (i + 1)
            { rx with rxDatabuff := Function.update rx.rxDatabuff i (some data) }

end RxPages

namespace OpenDevice

variable {F : Type*}

def kmallocPq (s : OpenDevice F) (success : Bool) : OpenDevice F :=
  if success then
    { s with pq := some s.next, pqLive := s.next :: s.pqLive, next := s.next + 1 }
  else { s with pq := none }

def kmallocNonRt (s : OpenDevice F) (success : Bool) : OpenDevice F :=
  if success then
    { s with nonRt := some s.next, nonRtLive := s.next :: s.nonRtLive, next := s.next + 1 }
  else { s with nonRt := none }

/-- `skb_queue_head_init(tp->non_rt)`. -/
def skbQueueHeadInit (s : OpenDevice F) : Option (OpenDevice F) :=
  s.nonRt.map fun q => { s with queued := Function.update s.queued q [] }

/-- `priority_queue_init(tp->pq)` writes to the block whatever the check before has printed. -/
def priorityQueueInit (s : OpenDevice F) : Option (OpenDevice F) := s.pq.map fun _ => s

def rtl8169InitRing (req : OpenRequest) (s : OpenDevice F) : Option (ℤ × OpenDevice F) :=
  let s := { s with rx := { s.rx with rxDatabuff := fun _ => none } }
  let s := (s.kmallocPq req.pq).kmallocNonRt req.nonRt
  match s.skbQueueHeadInit with
  | none => none
  | some s =>
      match s.priorityQueueInit with
      | none => none
      | some s => (s.rx.rxFill req numRxDesc 0).map fun filled => (filled.1, { s with rx := filled.2 })

def freeRxRing (s : OpenDevice F) : OpenDevice F :=
  { s with rx := { s.rx with rxDescArray := false } }

def rxClear (s : OpenDevice F) : Option (OpenDevice F) :=
  (s.rx.rxClear numRxDesc 0).map fun rx => { s with rx := rx }

/-- `rtl_open`: its return value, and the device it leaves. -/
def rtlOpen (req : OpenRequest) (s : OpenDevice F) : Option (ℤ × OpenDevice F) :=
  if !req.txRing then some (enomem, s)
  else if !req.rxRing then some (enomem, s.freeRxRing)
  else
    match rtl8169InitRing req { s with rx := { s.rx with rxDescArray := true } } with
    | none => none
    | some (retval, s) =>
        if retval < 0 then some (retval, s.freeRxRing)
        else if req.requestIrq < 0 then
          s.rxClear.map fun s => (req.requestIrq, s.freeRxRing)
        else if req.phyConnect ≠ 0 then
          s.rxClear.map fun s => (req.phyConnect, s.freeRxRing)
        else some (0, { s with up := true })

def rtl8169Close (s : OpenDevice F) : Option (OpenDevice F) :=
  s.rxClear.map fun s => { s.freeRxRing with up := false }

/-- `__skb_queue_tail(tp->non_rt, skb)`. -/
def divert (skb : F) (s : OpenDevice F) : Option (OpenDevice F) :=
  s.nonRt.map fun q => { s with queued := Function.update s.queued q (s.queued q ++ [skb]) }

end OpenDevice

/-! ## The receive pages -/

namespace RxPages

/-- The descriptors `i .. i + k - 1` hold the live pages in their order, those behind hold none. -/
structure Holds (rx : RxPages) (i k : ℕ) : Prop where
  live : rx.live.map some = (List.range' i k).map rx.rxDatabuff
  behind : ∀ j, i + k ≤ j → rx.rxDatabuff j = none
  fresh : ∀ page ∈ rx.live, page < rx.next

theorem rxClear_frees : ∀ (rounds i k : ℕ) {r : RxPages}, r.rxDescArray = true →
    r.Holds i k → k ≤ rounds →
    ∃ rx', r.rxClear rounds i = some rx' ∧ rx'.live = [] ∧ rx'.rxDescArray = true := by
  intro rounds
  induction rounds with
  | zero =>
    intro i k rx hdesc h hk
    obtain rfl : k = 0 := by omega
    exact ⟨rx, rfl, List.map_eq_nil_iff.mp h.live, hdesc⟩
  | succ rounds ih =>
    intro i k rx hdesc h hk
    cases k with
    | zero =>
      refine ⟨rx, ?_, List.map_eq_nil_iff.mp h.live, hdesc⟩
      rw [rxClear, h.behind i (le_refl i)]
    | succ k =>
      have hlive := h.live
      rw [List.range'_succ, List.map_cons] at hlive
      obtain ⟨page, rest, hcons, hpage, hrest⟩ := List.map_eq_cons_iff.mp hlive
      have hclear : rx.rxClear (rounds + 1) i = rxClear rounds (i + 1) { rx with
          live := rx.live.erase page
          rxDatabuff := Function.update rx.rxDatabuff i none } := by
        rw [rxClear, ← hpage]
        exact if_pos hdesc
      rw [hclear]
      refine ih (i + 1) k (r := { rx with
          live := rx.live.erase page
          rxDatabuff := Function.update rx.rxDatabuff i none })
        hdesc ⟨?_, fun j hj => ?_, fun p hp => ?_⟩ (by omega)
      · simp only
        rw [hcons, List.erase_cons_head, hrest]
        refine List.map_congr_left fun j hj => ?_
        have hne : j ≠ i := by
          have := (List.mem_range'_1.mp hj).1
          omega
        rw [Function.update_of_ne hne]
      · have hne : j ≠ i := by omega
        simp only [Function.update_of_ne hne]
        exact h.behind j (by omega)
      · exact h.fresh p (List.mem_of_mem_erase hp)

theorem holds_append {rx : RxPages} {i : ℕ} (h : rx.Holds 0 i) :
    Holds { rx with
      live := rx.live ++ [rx.next]
      next := rx.next + 1
      rxDatabuff := Function.update rx.rxDatabuff i (some rx.next) } 0 (i + 1) where
  live := by
    rw [List.map_append, h.live, List.range'_1_concat, List.map_append, Nat.zero_add]
    congr 1
    · refine List.map_congr_left fun j hj => ?_
      have hne : j ≠ i := by
        have := (List.mem_range'_1.mp hj).2
        omega
      simp only [Function.update_of_ne hne]
    · simp
  behind := by
    intro j hj
    have hne : j ≠ i := by omega
    simp only [Function.update_of_ne hne]
    exact h.behind j (by omega)
  fresh := by
    intro page hpage
    simp only [List.mem_append, List.mem_singleton] at hpage
    rcases hpage with hpage | rfl
    · have := h.fresh page hpage
      simp only
      omega
    · exact Nat.lt_succ_self _

theorem allocRxData_granted {req : OpenRequest} {rx : RxPages} {i : ℕ}
    (h : req.pageAllocated i = true ∧ req.pageMapped i = true) (hdesc : rx.rxDescArray = true) :
    rx.allocRxData req i =
      some (some rx.next, { rx with live := rx.live ++ [rx.next], next := rx.next + 1 }) := by
  rw [allocRxData, if_pos h.1, if_pos h.2, if_pos hdesc]

/-- A page is refused, or given back at once because it cannot be mapped. -/
theorem allocRxData_refused {req : OpenRequest} {rx : RxPages} {i : ℕ}
    (hnot : ¬ (req.pageAllocated i = true ∧ req.pageMapped i = true))
    (hdesc : rx.rxDescArray = true) (h : rx.Holds 0 i) :
    ∃ rx', rx.allocRxData req i = some (none, rx') ∧ rx'.rxDescArray = true ∧ rx'.Holds 0 i := by
  rw [allocRxData]
  by_cases hallocated : req.pageAllocated i = true
  · rw [if_pos hallocated, if_neg fun hmapped => hnot ⟨hallocated, hmapped⟩]
    have hfresh : rx.next ∉ rx.live := fun hmem => absurd (h.fresh _ hmem) (lt_irrefl _)
    have hlive : (rx.live ++ [rx.next]).erase rx.next = rx.live := by
      rw [List.erase_append_right _ hfresh, List.erase_cons_head, List.append_nil]
    rw [hlive]
    exact ⟨_, rfl, hdesc, h.live, h.behind, fun page hmem => Nat.lt_succ_of_lt (h.fresh page hmem)⟩
  · rw [if_neg hallocated]
    exact ⟨rx, rfl, hdesc, h⟩

/-- The loop fills all descriptors or, where it does not get a page, leaves no page behind. -/
theorem rxFill_spec (req : OpenRequest) : ∀ (rounds i : ℕ) {r : RxPages},
    r.rxDescArray = true → r.Holds 0 i → i + rounds = numRxDesc →
    ∃ ret rx', r.rxFill req rounds i = some (ret, rx') ∧ rx'.rxDescArray = true ∧
      (((∀ j, i ≤ j → j < numRxDesc → req.pageAllocated j = true ∧ req.pageMapped j = true) ∧
          ret = 0 ∧ rx'.Holds 0 numRxDesc) ∨
        ((∃ j < numRxDesc, ¬ (req.pageAllocated j = true ∧ req.pageMapped j = true)) ∧
          ret = enomem ∧ rx'.live = [])) := by
  intro rounds
  induction rounds with
  | zero =>
    intro i rx hdesc h hi
    obtain rfl : i = numRxDesc := hi
    exact ⟨0, rx, rfl, hdesc, Or.inl ⟨fun j hj hlt => absurd hlt (by omega), rfl, h⟩⟩
  | succ rounds ih =>
    intro i rx hdesc h hi
    by_cases hpage : req.pageAllocated i = true ∧ req.pageMapped i = true
    · obtain ⟨ret, rx', hfill, hdesc', hend⟩ := ih (i + 1)
        (r := { rx with
          live := rx.live ++ [rx.next]
          next := rx.next + 1
          rxDatabuff := Function.update rx.rxDatabuff i (some rx.next) })
        hdesc (holds_append h) (by omega)
      refine ⟨ret, rx', ?_, hdesc', hend.imp_left ?_⟩
      · rw [rxFill, allocRxData_granted hpage hdesc]
        exact hfill
      · rintro ⟨hall, hend⟩
        refine ⟨fun j hj hlt => ?_, hend⟩
        rcases eq_or_lt_of_le hj with rfl | hlt'
        · exact hpage
        · exact hall j hlt' hlt
    · obtain ⟨rx₁, halloc, hdesc₁, hholds⟩ := allocRxData_refused hpage hdesc h
      obtain ⟨rx', hclear, hlive, hdesc'⟩ :=
        rxClear_frees numRxDesc 0 i hdesc₁ hholds (by omega)
      refine ⟨enomem, rx', ?_, hdesc', Or.inr ⟨⟨i, by omega, hpage⟩, rfl, hlive⟩⟩
      rw [rxFill, halloc]
      simp only [hclear, Option.map_some]

end RxPages

/-! ## One `rtl_open` -/

namespace OpenRequest

def AllPages (req : OpenRequest) : Prop :=
  ∀ i < numRxDesc, req.pageAllocated i = true ∧ req.pageMapped i = true

def Allocated (req : OpenRequest) : Prop :=
  (req.txRing = true ∧ req.rxRing = true) ∧ (req.pq = true ∧ req.nonRt = true) ∧ req.AllPages

def Registered (req : OpenRequest) : Prop := 0 ≤ req.requestIrq ∧ req.phyConnect = 0

end OpenRequest

namespace OpenDevice

variable {F : Type*}

def withQueues (s : OpenDevice F) : OpenDevice F :=
  { s with
    pq := some s.next
    nonRt := some (s.next + 1)
    pqLive := s.next :: s.pqLive
    nonRtLive := (s.next + 1) :: s.nonRtLive
    next := s.next + 2
    queued := Function.update s.queued (s.next + 1) [] }

theorem initRing_null (req : OpenRequest) (s : OpenDevice F)
    (h : ¬ (req.pq = true ∧ req.nonRt = true)) : rtl8169InitRing req s = none := by
  unfold rtl8169InitRing
  cases hnonRt : req.nonRt with
  | false => simp [kmallocNonRt, skbQueueHeadInit]
  | true =>
    have hpq : req.pq = false := by simpa [hnonRt] using h
    simp [hpq, kmallocPq, kmallocNonRt, skbQueueHeadInit, priorityQueueInit]

theorem initRing_spec (req : OpenRequest) {s : OpenDevice F} (hpq : req.pq = true)
    (hnonRt : req.nonRt = true) (hdesc : s.rx.rxDescArray = true) (hlive : s.rx.live = []) :
    ∃ ret rx, rtl8169InitRing req s = some (ret, { s.withQueues with rx := rx }) ∧
      rx.rxDescArray = true ∧
      ((req.AllPages ∧ ret = 0 ∧ rx.Holds 0 numRxDesc) ∨
        (¬ req.AllPages ∧ ret = enomem ∧ rx.live = [])) := by
  have hholds : RxPages.Holds { s.rx with rxDatabuff := fun _ => none } 0 0 :=
    ⟨by simp [hlive], fun _ _ => rfl, by simp [hlive]⟩
  obtain ⟨ret, rx, hfill, hdesc', hend⟩ :=
    RxPages.rxFill_spec req numRxDesc 0 (r := { s.rx with rxDatabuff := fun _ => none })
      hdesc hholds (Nat.zero_add _)
  refine ⟨ret, rx, ?_, hdesc', hend.imp ?_ ?_⟩
  · simp only [rtl8169InitRing, kmallocPq, kmallocNonRt, hpq, hnonRt, if_true, skbQueueHeadInit,
      priorityQueueInit, Option.map_some, hfill]
    rfl
  · rintro ⟨hall, hend⟩
    exact ⟨fun j hj => hall j (Nat.zero_le j) hj, hend⟩
  · rintro ⟨⟨j, hj, hnot⟩, hend⟩
    exact ⟨fun hall => hnot (hall j hj), hend⟩

section Open
variable {req : OpenRequest} {s : OpenDevice F}

theorem rtlOpen_without_rings (hrings : ¬ (req.txRing = true ∧ req.rxRing = true))
    (hlive : s.rx.live = []) :
    ∃ rx, rx.live = [] ∧ rtlOpen req s = some (enomem, { s with rx := rx }) := by
  by_cases htx : req.txRing = true
  · have hrx : ¬ req.rxRing = true := fun h => hrings ⟨htx, h⟩
    refine ⟨s.freeRxRing.rx, hlive, ?_⟩
    rw [rtlOpen, if_neg (by simpa using htx), if_pos (by simpa using hrx)]
    rfl
  · refine ⟨s.rx, hlive, ?_⟩
    rw [rtlOpen, if_pos (by simpa using htx)]

theorem rtlOpen_of_rings (htx : req.txRing = true) (hrx : req.rxRing = true) :
    rtlOpen req s =
      match rtl8169InitRing req { s with rx := { s.rx with rxDescArray := true } } with
      | none => none
      | some (retval, s) =>
          if retval < 0 then some (retval, s.freeRxRing)
          else if req.requestIrq < 0 then
            s.rxClear.map fun s => (req.requestIrq, s.freeRxRing)
          else if req.phyConnect ≠ 0 then
            s.rxClear.map fun s => (req.phyConnect, s.freeRxRing)
          else some (0, { s with up := true }) := by
  rw [rtlOpen, if_neg (by simpa using htx), if_neg (by simpa using hrx)]

/-- A missing page sends `rtl_open` to its end with the pages freed and the queue blocks kept. -/
theorem rtlOpen_without_page (hrings : req.txRing = true ∧ req.rxRing = true)
    (hqueues : req.pq = true ∧ req.nonRt = true) (hlive : s.rx.live = [])
    (hpages : ¬ req.AllPages) :
    ∃ rx, rx.live = [] ∧ rtlOpen req s = some (enomem, { s.withQueues with rx := rx }) := by
  obtain ⟨ret, rx, hinit, _, hend⟩ := initRing_spec req hqueues.1 hqueues.2
    (s := { s with rx := { s.rx with rxDescArray := true } }) rfl hlive
  obtain ⟨_, rfl, hfreed⟩ := hend.resolve_left fun h => hpages h.1
  refine ⟨{ rx with rxDescArray := false }, hfreed, ?_⟩
  rw [rtlOpen_of_rings hrings.1 hrings.2, hinit]
  exact if_pos (show (-12 : ℤ) < 0 by decide)

theorem rtlOpen_unregistered (hall : req.Allocated) (hlive : s.rx.live = [])
    (hnot : ¬ req.Registered) :
    ∃ ret rx, ret ≠ 0 ∧ rx.live = [] ∧
      rtlOpen req s = some (ret, { s.withQueues with rx := rx }) := by
  obtain ⟨hrings, hqueues, hpages⟩ := hall
  obtain ⟨ret, rx, hinit, hdesc, hend⟩ := initRing_spec req hqueues.1 hqueues.2
    (s := { s with rx := { s.rx with rxDescArray := true } }) rfl hlive
  obtain ⟨_, rfl, hholds⟩ := hend.resolve_right fun h => h.1 hpages
  obtain ⟨rx', hclear, hfreed, _⟩ :=
    RxPages.rxClear_frees numRxDesc 0 numRxDesc hdesc hholds (le_refl _)
  rw [rtlOpen_of_rings hrings.1 hrings.2, hinit]
  simp only [lt_self_iff_false, if_false, rxClear, hclear, Option.map_some]
  by_cases hirq : req.requestIrq < 0
  · refine ⟨req.requestIrq, { rx' with rxDescArray := false }, ne_of_lt hirq, hfreed, ?_⟩
    rw [if_pos hirq]
    rfl
  · have hphy : req.phyConnect ≠ 0 := fun h => hnot ⟨not_lt.mp hirq, h⟩
    refine ⟨req.phyConnect, { rx' with rxDescArray := false }, hphy, hfreed, ?_⟩
    rw [if_neg hirq, if_pos hphy]
    rfl

theorem rtlOpen_succeeds (hall : req.Allocated) (hreg : req.Registered)
    (hlive : s.rx.live = []) :
    ∃ rx, rx.rxDescArray = true ∧ rx.Holds 0 numRxDesc ∧
      rtlOpen req s = some (0, { s.withQueues with rx := rx, up := true }) := by
  obtain ⟨hrings, hqueues, hpages⟩ := hall
  obtain ⟨ret, rx, hinit, hdesc, hend⟩ := initRing_spec req hqueues.1 hqueues.2
    (s := { s with rx := { s.rx with rxDescArray := true } }) rfl hlive
  obtain ⟨_, rfl, hholds⟩ := hend.resolve_right fun h => h.1 hpages
  refine ⟨rx, hdesc, hholds, ?_⟩
  rw [rtlOpen_of_rings hrings.1 hrings.2, hinit]
  simp only [lt_self_iff_false, if_false]
  rw [if_neg (not_lt.mpr hreg.1), if_neg (not_not.mpr hreg.2)]
  rfl

/-- The ways `rtl_open` ends on a device without pages. -/
theorem rtlOpen_cases (req : OpenRequest) (hlive : s.rx.live = []) :
    (¬ (req.txRing = true ∧ req.rxRing = true) ∧
      ∃ rx, rx.live = [] ∧ rtlOpen req s = some (enomem, { s with rx := rx })) ∨
    ((req.txRing = true ∧ req.rxRing = true) ∧ ¬ (req.Allocated ∧ req.Registered) ∧
      (rtlOpen req s = none ∨ ∃ ret rx, ret ≠ 0 ∧ rx.live = [] ∧
        rtlOpen req s = some (ret, { s.withQueues with rx := rx }))) ∨
    ((req.Allocated ∧ req.Registered) ∧
      ∃ rx, rx.rxDescArray = true ∧ rx.Holds 0 numRxDesc ∧
        rtlOpen req s = some (0, { s.withQueues with rx := rx, up := true })) := by
  by_cases hrings : req.txRing = true ∧ req.rxRing = true
  swap
  · exact Or.inl ⟨hrings, rtlOpen_without_rings hrings hlive⟩
  by_cases hqueues : req.pq = true ∧ req.nonRt = true
  swap
  · refine Or.inr (Or.inl ⟨hrings, fun h => hqueues h.1.2.1, Or.inl ?_⟩)
    rw [rtlOpen_of_rings hrings.1 hrings.2, initRing_null req _ hqueues]
  by_cases hpages : req.AllPages
  swap
  · refine Or.inr (Or.inl ⟨hrings, fun h => hpages h.1.2.2, Or.inr ⟨enomem, ?_⟩⟩)
    obtain ⟨rx, hfreed, hopen⟩ := rtlOpen_without_page hrings hqueues hlive hpages
    exact ⟨rx, by decide, hfreed, hopen⟩
  have hall : req.Allocated := ⟨hrings, hqueues, hpages⟩
  by_cases hreg : req.Registered
  · exact Or.inr (Or.inr ⟨⟨hall, hreg⟩, rtlOpen_succeeds hall hreg hlive⟩)
  · exact Or.inr (Or.inl ⟨hrings, fun h => hreg h.2,
      Or.inr (rtlOpen_unregistered hall hlive hreg)⟩)

end Open

end OpenDevice

/-! ## Runs of opening, receiving and closing -/

inductive OpenCloseEvent (F : Type*)
  | rtlOpen (req : OpenRequest)
  | divert (skb : F)
  | rtl8169Close

/-- The device, what the last `rtl_open` returned, and whether a `NULL` pointer has been
dereferenced, after which nothing happens any more. -/
structure OpenClose (F : Type*) where
  dev : OpenDevice F
  retval : ℤ
  oops : Bool

namespace OpenClose

variable {F : Type*}

def init : OpenClose F where
  dev := ⟨⟨false, fun _ => none, [], 0⟩, none, none, [], [], 0, fun _ => [], false⟩
  retval := 0
  oops := false

def continueWith (s : OpenClose F) : Option (OpenDevice F) → OpenClose F
  | none => { s with oops := true }
  | some dev => { s with dev := dev }

/-- A device that is down can be opened; one that is up receives and can be closed. -/
def step (s : OpenClose F) : OpenCloseEvent F → Option (OpenClose F)
  | .rtlOpen req =>
      if s.oops || s.dev.up then none
      else
        match s.dev.rtlOpen req with
        | none => some { s with oops := true }
        | some (retval, dev) => some ⟨dev, retval, false⟩
  | .divert skb =>
      if s.oops || !s.dev.up then none else some (s.continueWith (s.dev.divert skb))
  | .rtl8169Close =>
      if s.oops || !s.dev.up then none else some (s.continueWith s.dev.rtl8169Close)

/-- No memory of `rtl8169_init_ring` is allocated and no diverted buffer waits. -/
structure Released (dev : OpenDevice F) : Prop where
  pages : dev.rx.live = []
  pq : dev.pqLive = []
  nonRt : dev.nonRtLive = []
  buffers : ∀ q, dev.queued q = []

/-- A step has not dereferenced `NULL`, an `rtl_open` has reported a failed allocation, and after a
failed `rtl_open` and after a close everything is released. -/
def EndsSafely (e : OpenCloseEvent F) (t : OpenClose F) : Prop :=
  t.oops = false ∧
    match e with
    | .rtlOpen req => (¬ req.Allocated → t.retval < 0) ∧ (t.retval ≠ 0 → Released t.dev)
    | .divert _ => True
    | .rtl8169Close => Released t.dev

def StepSafe (s : OpenClose F) (e : OpenCloseEvent F) : Prop := ∀ t, step s e = some t → EndsSafely e t

/-- An `rtl_open` that stops at the descriptor rings or gets everything; no close. -/
def OpensWhole : OpenCloseEvent F → Prop
  | .rtlOpen req =>
      ¬ (req.txRing = true ∧ req.rxRing = true) ∨ (req.Allocated ∧ req.Registered)
  | .divert _ => True
  | .rtl8169Close => False

/-- What such steps keep: a device that is down has released everything, one that is up has its
queues. -/
structure Inv (s : OpenClose F) : Prop where
  noOops : s.oops = false
  down : s.dev.up = false → Released s.dev
  up : s.dev.up = true → s.dev.nonRt ≠ none ∧ s.dev.pqLive ≠ []

theorem inv_init : (init : OpenClose F).Inv where
  noOops := rfl
  down := fun _ => ⟨rfl, rfl, rfl, fun _ => rfl⟩
  up := fun h => absurd h (by simp [init])

theorem step_open_eq_some {s t : OpenClose F} {req : OpenRequest} :
    step s (.rtlOpen req) = some t ↔ s.oops = false ∧ s.dev.up = false ∧
      ((s.dev.rtlOpen req = none ∧ t = { s with oops := true }) ∨
        ∃ retval dev, s.dev.rtlOpen req = some (retval, dev) ∧ t = ⟨dev, retval, false⟩) := by
  rw [step]
  cases s.oops <;> cases s.dev.up <;> rcases s.dev.rtlOpen req with _ | ⟨retval, dev⟩ <;>
    simp [eq_comm]

theorem step_open_of_some {s t : OpenClose F} {req : OpenRequest} {retval : ℤ}
    {dev : OpenDevice F} (hopen : s.dev.rtlOpen req = some (retval, dev))
    (h : step s (.rtlOpen req) = some t) : t = ⟨dev, retval, false⟩ := by
  obtain ⟨_, _, ⟨hnone, _⟩ | ⟨_, _, hsome, rfl⟩⟩ := step_open_eq_some.mp h
  · cases hnone.symm.trans hopen
  · obtain ⟨rfl, rfl⟩ := Prod.mk.inj (Option.some.inj (hopen.symm.trans hsome))
    rfl

theorem step_open_of_none {s t : OpenClose F} {req : OpenRequest}
    (hopen : s.dev.rtlOpen req = none) (h : step s (.rtlOpen req) = some t) :
    t = { s with oops := true } := by
  obtain ⟨_, _, ⟨_, rfl⟩ | ⟨_, _, hsome, _⟩⟩ := step_open_eq_some.mp h
  · rfl
  · cases hopen.symm.trans hsome

theorem step_divert_eq_some {s t : OpenClose F} {skb : F} :
    step s (.divert skb) = some t ↔
      s.oops = false ∧ s.dev.up = true ∧ t = s.continueWith (s.dev.divert skb) := by
  rw [step]
  cases s.oops <;> cases s.dev.up <;> simp [eq_comm]

theorem step_close_eq_some {s t : OpenClose F} :
    step s .rtl8169Close = some t ↔
      s.oops = false ∧ s.dev.up = true ∧ t = s.continueWith s.dev.rtl8169Close := by
  rw [step]
  cases s.oops <;> cases s.dev.up <;> simp [eq_comm]

theorem divert_up {s : OpenDevice F} (h : s.nonRt ≠ none) (skb : F) :
    ∃ queued, s.divert skb = some { s with queued := queued } := by
  obtain ⟨q, hq⟩ := Option.ne_none_iff_exists'.mp h
  exact ⟨Function.update s.queued q (s.queued q ++ [skb]), by rw [OpenDevice.divert, hq]; rfl⟩

theorem close_pqLive {s dev : OpenDevice F} (h : s.rtl8169Close = some dev) :
    dev.pqLive = s.pqLive := by
  simp only [OpenDevice.rtl8169Close, OpenDevice.rxClear, Option.map_eq_some_iff] at h
  obtain ⟨_, ⟨rx, _, rfl⟩, rfl⟩ := h
  rfl

theorem inv_step {s t : OpenClose F} {e : OpenCloseEvent F} (hs : s.Inv) (hc : OpensWhole e)
    (h : step s e = some t) : t.Inv := by
  cases e with
  | rtlOpen req =>
    obtain ⟨_, hdown, _⟩ := step_open_eq_some.mp h
    have hrel := hs.down hdown
    obtain ⟨_, rx, hlive, hopen⟩ | ⟨hrings, hnot, _⟩ | ⟨_, rx, _, _, hopen⟩ :=
      s.dev.rtlOpen_cases req hrel.pages
    · obtain rfl := step_open_of_some hopen h
      exact ⟨rfl, fun _ => ⟨hlive, hrel.pq, hrel.nonRt, hrel.buffers⟩,
        fun hup => absurd (hdown.symm.trans hup) (by simp)⟩
    · exact absurd (hc.resolve_left fun hnr => hnr hrings) hnot
    · obtain rfl := step_open_of_some hopen h
      exact ⟨rfl, fun hd => absurd hd (by simp), fun _ =>
        ⟨by simp [OpenDevice.withQueues], by simp [OpenDevice.withQueues]⟩⟩
  | divert skb =>
    obtain ⟨_, hup, rfl⟩ := step_divert_eq_some.mp h
    obtain ⟨queued, hdivert⟩ := divert_up (hs.up hup).1 skb
    rw [hdivert]
    exact ⟨hs.noOops, fun hd => absurd (hup.symm.trans hd) (by simp), fun _ => hs.up hup⟩
  | rtl8169Close => exact hc.elim

theorem endsSafely_open_iff {s t : OpenClose F} {req : OpenRequest} (hs : s.Inv)
    (h : step s (.rtlOpen req) = some t) :
    EndsSafely (.rtlOpen req) t ↔ OpensWhole (.rtlOpen req : OpenCloseEvent F) := by
  obtain ⟨_, hdown, _⟩ := step_open_eq_some.mp h
  have hrel := hs.down hdown
  obtain ⟨hrings, rx, hlive, hopen⟩ | ⟨hrings, hnot, hopen⟩ | ⟨hwhole, rx, _, _, hopen⟩ :=
    s.dev.rtlOpen_cases req hrel.pages
  · obtain rfl := step_open_of_some hopen h
    exact iff_of_true ⟨rfl, fun _ => show enomem < 0 by decide,
      fun _ => ⟨hlive, hrel.pq, hrel.nonRt, hrel.buffers⟩⟩ (Or.inl hrings)
  · -- Either nothing is returned, or the two queue blocks stay.
    refine iff_of_false (fun ht => ?_) fun hc => hnot (hc.resolve_left fun hnr => hnr hrings)
    obtain hnone | ⟨ret, rx, hret, _, hopen⟩ := hopen
    · obtain rfl := step_open_of_none hnone h
      cases ht.1
    · obtain rfl := step_open_of_some hopen h
      have hpq := (ht.2.2 hret).pq
      simp [OpenDevice.withQueues] at hpq
  · obtain rfl := step_open_of_some hopen h
    exact iff_of_true ⟨rfl, fun hnot => absurd hwhole.1 hnot, fun hne => absurd rfl hne⟩
      (Or.inr hwhole)

theorem not_endsSafely_close {s t : OpenClose F} (hs : s.Inv)
    (h : step s .rtl8169Close = some t) : ¬ EndsSafely .rtl8169Close t := by
  obtain ⟨_, hup, rfl⟩ := step_close_eq_some.mp h
  intro ht
  cases hclose : s.dev.rtl8169Close with
  | none =>
    rw [hclose] at ht
    cases ht.1
  | some dev =>
    rw [hclose] at ht
    have hpq : dev.pqLive = [] := ht.2.pq
    rw [close_pqLive hclose] at hpq
    exact (hs.up hup).2 hpq

theorem stepSafe_iff {s t : OpenClose F} {e : OpenCloseEvent F} (hs : s.Inv)
    (h : step s e = some t) : s.StepSafe e ↔ OpensWhole e := by
  have hsafe : s.StepSafe e ↔ EndsSafely e t := by
    refine ⟨fun hall => hall t h, fun ht u hu => ?_⟩
    obtain rfl : t = u := Option.some.inj (h.symm.trans hu)
    exact ht
  rw [hsafe]
  cases e with
  | rtlOpen req => exact endsSafely_open_iff hs h
  | divert skb =>
    obtain ⟨_, hup, rfl⟩ := step_divert_eq_some.mp h
    obtain ⟨queued, hdivert⟩ := divert_up (hs.up hup).1 skb
    rw [hdivert]
    exact iff_of_true ⟨hs.noOops, trivial⟩ trivial
  | rtl8169Close => exact iff_of_false (not_endsSafely_close hs h) id

/-- **When opening and closing is safe.** All steps of a run are safe exactly when every `rtl_open`
stops at the descriptor rings or gets everything it asks for, and the device is never closed. -/
theorem stepsMeet_stepSafe_iff (es : List (OpenCloseEvent F)) :
    StepsMeet step StepSafe init es ↔ StepsMeet step (fun _ => OpensWhole) init es :=
  stepsMeet_congr_of_meet (I := Inv) (fun _ _ _ hs hc => inv_step hs hc)
    (fun _ _ _ hs => stepSafe_iff hs) inv_init

/-! ## The pages -/

/-- In every run, with every outcome of the requests: the pages are held by the descriptors while
the device is up, and there are none while it is down. -/
structure PagesInv (s : OpenClose F) : Prop where
  down : s.dev.up = false → s.dev.rx.live = []
  up : s.dev.up = true → s.dev.rx.rxDescArray = true ∧ s.dev.rx.Holds 0 numRxDesc

theorem pagesInv_init : (init : OpenClose F).PagesInv where
  down := fun _ => rfl
  up := fun h => absurd h (by simp [init])

theorem PagesInv.close {s : OpenClose F} (hs : s.PagesInv) (hup : s.dev.up = true) :
    ∃ rx, rx.live = [] ∧ s.dev.rtl8169Close = some { s.dev with rx := rx, up := false } := by
  obtain ⟨hdesc, hholds⟩ := hs.up hup
  obtain ⟨rx, hclear, hlive, _⟩ :=
    RxPages.rxClear_frees numRxDesc 0 numRxDesc hdesc hholds (le_refl _)
  refine ⟨{ rx with rxDescArray := false }, hlive, ?_⟩
  rw [OpenDevice.rtl8169Close, OpenDevice.rxClear, hclear]
  rfl

theorem pagesInv_step {s t : OpenClose F} {e : OpenCloseEvent F} (hs : s.PagesInv)
    (h : step s e = some t) : t.PagesInv := by
  cases e with
  | rtlOpen req =>
    obtain ⟨_, hdown, _⟩ := step_open_eq_some.mp h
    have hnotUp : ¬ s.dev.up = true := by
      rw [hdown]
      simp
    obtain ⟨_, rx, hlive, hopen⟩ | ⟨_, _, hnone | ⟨ret, rx, _, hlive, hopen⟩⟩ |
        ⟨_, rx, hdesc, hholds, hopen⟩ := s.dev.rtlOpen_cases req (hs.down hdown)
    · obtain rfl := step_open_of_some hopen h
      exact ⟨fun _ => hlive, fun hup => absurd hup hnotUp⟩
    · obtain rfl := step_open_of_none hnone h
      exact ⟨hs.down, hs.up⟩
    · obtain rfl := step_open_of_some hopen h
      exact ⟨fun _ => hlive, fun hup => absurd hup hnotUp⟩
    · obtain rfl := step_open_of_some hopen h
      exact ⟨fun hd => absurd hd (by simp), fun _ => ⟨hdesc, hholds⟩⟩
  | divert skb =>
    obtain ⟨_, _, rfl⟩ := step_divert_eq_some.mp h
    cases hdivert : s.dev.divert skb with
    | none => exact ⟨hs.down, hs.up⟩
    | some dev =>
      simp only [OpenDevice.divert, Option.map_eq_some_iff] at hdivert
      obtain ⟨_, _, rfl⟩ := hdivert
      exact ⟨hs.down, hs.up⟩
  | rtl8169Close =>
    obtain ⟨_, hup, rfl⟩ := step_close_eq_some.mp h
    obtain ⟨rx, hlive, hclose⟩ := hs.close hup
    rw [hclose]
    exact ⟨fun _ => hlive, fun h => absurd h (by simp [continueWith])⟩

/-- **No page is lost.** In every run a device that is down holds no receive page. -/
theorem pages_released {s : OpenClose F} {es : List (OpenCloseEvent F)}
    (h : run step init es = some s) (hdown : s.dev.up = false) : s.dev.rx.live = [] :=
  (run_invariant (fun _ _ _ => pagesInv_step) pagesInv_init h).down hdown

def granted : OpenRequest := ⟨true, true, true, true, fun _ => true, fun _ => true, 0, 0⟩

/-- Without memory for the queue head `rtl_open` initialises address 0. With everything granted, a
frame that is still queued when the device is closed stays, with both queue blocks. -/
theorem open_close_unsafe :
    (∃ t : OpenClose ℕ, run step init [.rtlOpen { granted with nonRt := false }] = some t ∧
      t.oops = true) ∧
    ∃ t : OpenClose ℕ, run step init [.rtlOpen granted, .divert 7, .rtl8169Close] = some t ∧
      t.dev.pqLive = [0] ∧ t.dev.nonRtLive = [1] ∧ t.dev.queued 1 = [7] ∧ ¬ Released t.dev := by
  have hnull : OpenDevice.rtlOpen { granted with nonRt := false } (init : OpenClose ℕ).dev = none :=
    rfl
  refine ⟨⟨_, run_cons_of_step (step_open_eq_some.mpr ⟨rfl, rfl, Or.inl ⟨hnull, rfl⟩⟩) [], rfl⟩, ?_⟩
  have hall : granted.Allocated := ⟨⟨rfl, rfl⟩, ⟨rfl, rfl⟩, fun _ _ => ⟨rfl, rfl⟩⟩
  have hreg : granted.Registered := ⟨le_refl 0, rfl⟩
  obtain ⟨rx, hdesc, hholds, hopen⟩ :=
    OpenDevice.rtlOpen_succeeds (s := (init : OpenClose ℕ).dev) hall hreg rfl
  obtain ⟨rx', hclear, _, _⟩ :=
    RxPages.rxClear_frees numRxDesc 0 numRxDesc hdesc hholds (le_refl _)
  have hstep := step_open_eq_some.mpr ⟨rfl, rfl, Or.inr ⟨_, _, hopen, rfl⟩⟩
  rw [run_cons_of_step hstep, run_cons_of_step (step_divert_eq_some.mpr ⟨rfl, rfl, rfl⟩),
    run_cons_of_step (step_close_eq_some.mpr ⟨rfl, rfl, rfl⟩), run_nil]
  simp only [OpenDevice.rtl8169Close, OpenDevice.rxClear, continueWith, OpenDevice.divert,
    OpenDevice.withQueues, Option.map_some, hclear]
  refine ⟨_, rfl, rfl, rfl, rfl, fun h => ?_⟩
  have hpq := h.pq
  cases hpq

end OpenClose

end CrosRt
