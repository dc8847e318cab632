import CrosRt.Foundations.LabelledRuns
import CrosRt.Driver.NonRtQueue

/-! # From the probe to the first poll

`tp->pq` and `tp->non_rt` are allocated and initialised by `rtl8169_init_ring`, on every opening of
the interface, and never freed. The threads of `rt_handler`, `non_rt_bg` and `non_rt_pl` run their
first iteration as soon as their module is loaded; the dispatch only checks that the NAPI instance
of the driver exists, which it does from the probe on. What an iteration reads therefore depends on
how far the openings have come.
-/

namespace CrosRt
set_option autoImplicit false

open LabelledRuns

/-- A queue pointer of `struct rtl8169_private`: zero as the structure is allocated, pointing to
memory whose list heads are not initialised, or to initialised queues. -/
inductive QueuePtr
  | null
  | uninitialised
  | ready
  deriving DecidableEq, Repr

/-- Where `rtl_open` is: the statement of `rtl8169_init_ring` to execute next, or done. -/
inductive OpenPhase
  | closed
  | allocPq
  | allocNonRt
  | initNonRt
  | initPq
  | opened
  deriving DecidableEq, Repr

structure QueueLifetime where
  pq : QueuePtr
  nonRt : QueuePtr
  probed : Bool
  phase : OpenPhase
  openings : ℕ
  rtHandler : Bool
  nonRtBg : Bool
  nonRtPl : Bool
  deriving DecidableEq, Repr

inductive LifetimeEvent
  | probe
  | openBegin
  | openStep
  | close
  | loadRtHandler
  | loadNonRtBg
  | loadNonRtPl
  | krtd
  | knonrtdBg
  | knonrtdPl (period util : ℤ)
  deriving DecidableEq, Repr

namespace QueueLifetime

def init : QueueLifetime := ⟨.null, .null, false, .closed, 0, false, false, false⟩

/-- One statement of `rtl8169_init_ring`, allocations succeeding. -/
def initRing (s : QueueLifetime) : Option QueueLifetime :=
  match s.phase with
  | .allocPq => some { s with pq := .uninitialised, phase := .allocNonRt }
  | .allocNonRt => some { s with nonRt := .uninitialised, phase := .initNonRt }
  | .initNonRt => some { s with nonRt := .ready, phase := .initPq }
  | .initPq => some { s with pq := .ready, phase := .opened, openings := s.openings + 1 }
  | .closed | .opened => none

/-- One event; an iteration needs its module and changes no pointer. -/
def step (s : QueueLifetime) : LifetimeEvent → Option QueueLifetime
  | .probe => if s.probed then none else some { s with probed := true }
  | .openBegin => if s.probed ∧ s.phase = .closed then some { s with phase := .allocPq } else none
  | .openStep => s.initRing
  | .close => if s.phase = .opened then some { s with phase := .closed } else none
  | .loadRtHandler => some { s with rtHandler := true }
  | .loadNonRtBg => some { s with nonRtBg := true }
  | .loadNonRtPl => some { s with nonRtPl := true }
  | .krtd => if s.rtHandler then some s else none
  | .knonrtdBg => if s.nonRtBg then some s else none
  | .knonrtdPl _ _ => if s.nonRtPl then some s else none

/-- The pointers an event dereferences: `rt_poll` looks into `tp->pq`, `non_rt_poll` dequeues from
`tp->non_rt`, and so does `non_rt_pl_poll` if its budget allows a round. Before the probe the
dispatch finds no instance. -/
def reads (s : QueueLifetime) : LifetimeEvent → List QueuePtr
  | .krtd => if s.probed then [s.pq] else []
  | .knonrtdBg => if s.probed then [s.nonRt] else []
  | .knonrtdPl period util =>
      if s.probed ∧ 0 < processBudget period util then [s.nonRt] else []
  | _ => []

def ReadsReady (s : QueueLifetime) (e : LifetimeEvent) : Prop := ∀ ptr ∈ s.reads e, ptr = .ready

/-- An opening has initialised the priority queues, and no later one has replaced them by new ones
since. -/
def PqInitialised (s : QueueLifetime) : Prop :=
  s.phase = .opened ∨ (1 ≤ s.openings ∧ (s.phase = .closed ∨ s.phase = .allocPq))

def NonRtInitialised (s : QueueLifetime) : Prop :=
  s.phase = .initPq ∨ s.phase = .opened ∨
    (1 ≤ s.openings ∧ (s.phase = .closed ∨ s.phase = .allocPq ∨ s.phase = .allocNonRt))

/-- After the probe, iterations only take place when an opening has initialised what they read. -/
def PolledWhenInitialised (s : QueueLifetime) : LifetimeEvent → Prop
  | .krtd => s.probed = true → s.PqInitialised
  | .knonrtdBg => s.probed = true → s.NonRtInitialised
  | .knonrtdPl period util =>
      s.probed = true → 0 < processBudget period util → s.NonRtInitialised
  | _ => True

structure Inv (s : QueueLifetime) : Prop where
  pq : s.pq = .ready ↔ s.PqInitialised
  nonRt : s.nonRt = .ready ↔ s.NonRtInitialised
  opened : s.phase = .opened → 1 ≤ s.openings

theorem inv_init : init.Inv where
  pq := by simp [init, PqInitialised]
  nonRt := by simp [init, NonRtInitialised]
  opened := by simp [init]

theorem inv_initRing {s t : QueueLifetime} (hs : s.Inv) (h : s.initRing = some t) : t.Inv := by
  obtain ⟨hpq, hnonRt, hopened⟩ := hs
  cases hphase : s.phase <;> simp only [initRing, hphase] at h
  case closed => cases h
  case opened => cases h
  all_goals
    obtain rfl := Option.some.inj h
    simp only [PqInitialised, NonRtInitialised, hphase] at hpq hnonRt
  case allocPq =>
    refine ⟨by simp [PqInitialised], ?_, by simp⟩
    rw [hnonRt]
    simp [NonRtInitialised]
  case allocNonRt =>
    refine ⟨?_, by simp [NonRtInitialised], by simp⟩
    rw [hpq]
    simp [PqInitialised]
  case initNonRt =>
    refine ⟨?_, by simp [NonRtInitialised], by simp⟩
    rw [hpq]
    simp [PqInitialised]
  case initPq =>
    refine ⟨by simp [PqInitialised], ?_, by simp⟩
    rw [hnonRt]
    simp [NonRtInitialised]

theorem Inv.of_same {s t : QueueLifetime} (hs : s.Inv) (hpq : t.pq = s.pq)
    (hnonRt : t.nonRt = s.nonRt) (hphase : t.phase = s.phase) (hopenings : t.openings = s.openings) :
    t.Inv := by
  obtain ⟨h₁, h₂, h₃⟩ := hs
  refine ⟨?_, ?_, ?_⟩
  · rw [hpq, PqInitialised, hphase, hopenings]
    exact h₁
  · rw [hnonRt, NonRtInitialised, hphase, hopenings]
    exact h₂
  · rw [hphase, hopenings]
    exact h₃

theorem inv_step {s t : QueueLifetime} {e : LifetimeEvent} (hs : s.Inv) (h : step s e = some t) :
    t.Inv := by
  cases e with
  | probe =>
    simp only [step] at h
    split_ifs at h
    obtain rfl := Option.some.inj h
    exact hs.of_same rfl rfl rfl rfl
  | openBegin =>
    simp only [step] at h
    split_ifs at h with hclosed
    obtain rfl := Option.some.inj h
    obtain ⟨hpq, hnonRt, _⟩ := hs
    simp only [PqInitialised, NonRtInitialised, hclosed.2] at hpq hnonRt
    refine ⟨?_, ?_, by simp⟩
    · rw [hpq]
      simp [PqInitialised]
    · rw [hnonRt]
      simp [NonRtInitialised]
  | openStep => exact inv_initRing hs h
  | close =>
    simp only [step] at h
    split_ifs at h with hopen
    obtain rfl := Option.some.inj h
    have hopenings := hs.opened hopen
    refine ⟨?_, ?_, by simp⟩
    · rw [hs.pq]
      simp [PqInitialised, hopen, hopenings]
    · rw [hs.nonRt]
      simp [NonRtInitialised, hopen, hopenings]
  | loadRtHandler | loadNonRtBg | loadNonRtPl =>
    obtain rfl := Option.some.inj h
    exact hs.of_same rfl rfl rfl rfl
  | krtd | knonrtdBg | knonrtdPl _ _ =>
    simp only [step] at h
    split_ifs at h
    obtain rfl := Option.some.inj h
    exact hs

theorem readsReady_iff {s : QueueLifetime} (hs : s.Inv) (e : LifetimeEvent) :
    s.ReadsReady e ↔ s.PolledWhenInitialised e := by
  cases e with
  | krtd =>
    simp only [ReadsReady, reads, PolledWhenInitialised]
    rw [← hs.pq]
    cases s.probed <;> simp
  | knonrtdBg =>
    simp only [ReadsReady, reads, PolledWhenInitialised]
    rw [← hs.nonRt]
    cases s.probed <;> simp
  | knonrtdPl period util =>
    simp only [ReadsReady, reads, PolledWhenInitialised]
    rw [← hs.nonRt]
    by_cases hbudget : 0 < processBudget period util <;> cases s.probed <;> simp [hbudget]
  | _ => simp [ReadsReady, reads, PolledWhenInitialised]

/-- **Reads of initialised queues only.** In a run every queue pointer read is non-NULL and points to
initialised heads if and only if, after the probe, iterations of the threads only take place when an
opening of the interface has initialised what they read. -/
theorem readsReady_iff_polledWhenInitialised (es : List LifetimeEvent) :
    StepsMeet step ReadsReady init es ↔ StepsMeet step PolledWhenInitialised init es :=
  stepsMeet_congr (fun _ _ _ => inv_step) (fun _ e _ hs _ => readsReady_iff hs e) inv_init

/-- The module of `krtd` loaded before the interface is opened: the first iteration reads a NULL
pointer. -/
theorem krtd_reads_null :
    ∃ s, run step init [.probe, .loadRtHandler] = some s ∧ step s .krtd = some s ∧
      s.reads .krtd = [.null] ∧
      ¬ StepsMeet step ReadsReady init [.probe, .loadRtHandler, .krtd] := by
  refine ⟨_, rfl, rfl, rfl, fun h => ?_⟩
  obtain ⟨_, h⟩ := h _ rfl
  obtain ⟨_, h⟩ := h _ rfl
  obtain ⟨h, _⟩ := h _ rfl
  exact absurd (h .null (List.mem_singleton_self _)) (by decide)

end QueueLifetime

end CrosRt
