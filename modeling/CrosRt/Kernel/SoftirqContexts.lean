import CrosRt.Kernel.Softirq

/-! # The softirqs of a CPU

What runs on one CPU, as far as softirqs go: tasks with their sections between `local_bh_disable` and
`local_bh_enable`, hard interrupts, the calls of `__do_softirq`, and the thread `ksoftirqd` of the CPU.
A call is made by `irq_exit`, by `local_bh_enable` or by `run_ksoftirqd`; all of them read the mask with
interrupts disabled. Statements with interrupts disabled are one step.

The kernel is not `PREEMPT_RT`. The loop that calls `ksoftirqd_should_run` and `run_ksoftirqd` is that
of every per-CPU thread: it announces its sleep, asks, and calls `schedule`.
-/

namespace CrosRt.Kernel
set_option autoImplicit false

open LabelledRuns

/-- The next statement of `__local_bh_enable_ip`, with the softirqs enabled again. -/
inductive BhPc
  | idle
  | testPending
  | doSoftirq
  deriving DecidableEq, Repr

/-- The next statement of `ksoftirqd`. -/
inductive KsoftirqdPc
  | setState
  | shouldRun
  | schedule
  | run
  deriving DecidableEq, Repr

/-- The mask and the parameter, which a call of `__do_softirq` under way has in its own state; the
parts of the preempt count; the task that has the CPU, with its `local_bh_enable`; `ksoftirqd`; and what
has happened outside of the call, with the task that had the CPU (`true` for `ksoftirqd`). -/
structure SoftirqCpu where
  softirqPending : BitVec 32
  ksoftirqdTest : ℤ
  hardirq : ℕ
  bh : ℕ
  call : Option SoftirqCall
  bhEnable : BhPc
  isKsoftirqd : Bool
  ksoftirqd : KsoftirqdPc
  interruptible : Bool
  onRq : Bool
  log : List (Bool × Occurrence)
  deriving DecidableEq

/-- `raise` is `raise_softirq`, or `__raise_softirq_irqoff` in an interrupt; the other events but
`setTest` are next statements: of an interrupt, of the task that has the CPU, of the call of
`__do_softirq`, of `ksoftirqd`, and of the scheduler. -/
inductive CpuEvent
  | raise (vec : Fin 32)
  | setTest (value : ℤ)
  | irqEnter
  | irqExit
  | bhDisable
  | bhEnable
  | call (again : Bool)
  | ksoftirqd
  | switch

namespace SoftirqCpu

/-- `ksoftirqd` sleeps, another task has the CPU. -/
def init (test : ℤ) : SoftirqCpu where
  softirqPending := 0
  ksoftirqdTest := test
  hardirq := 0
  bh := 0
  call := none
  bhEnable := .idle
  isKsoftirqd := false
  ksoftirqd := .setState
  interruptible := true
  onRq := false
  log := []

def inInterrupt (s : SoftirqCpu) : Bool := s.hardirq != 0 || s.bh != 0 || s.call.isSome

def irqsEnabled (s : SoftirqCpu) : Bool :=
  match s.call with
  | none => true
  | some c => c.pc == .loop

/-- The task that has the CPU goes on. -/
def inTask (s : SoftirqCpu) : Bool := s.hardirq == 0 && s.call.isNone

/-- `wakeup_softirqd`. -/
def wakeupSoftirqd (s : SoftirqCpu) : SoftirqCpu := { s with interruptible := false, onRq := true }

/-- `__do_softirq` is entered. -/
def doSoftirq (s : SoftirqCpu) : SoftirqCpu :=
  { s with call := some (.entry s.ksoftirqdTest s.softirqPending) }

/-- `__raise_softirq_irqoff`. -/
def raiseIrqoff (s : SoftirqCpu) (vec : Fin 32) : SoftirqCpu :=
  match s.call with
  | some c => { s with call := some { c with
      softirqPending := orSoftirqPending c.softirqPending vec
      log := c.log ++ [.raised vec] } }
  | none => { s with
      softirqPending := orSoftirqPending s.softirqPending vec
      log := s.log ++ [(s.isKsoftirqd, .raised vec)] }

/-- `raise_softirq_irqoff`. -/
def raise (s : SoftirqCpu) (vec : Fin 32) : SoftirqCpu :=
  if s.inInterrupt then s.raiseIrqoff vec else (s.raiseIrqoff vec).wakeupSoftirqd

def setTest (s : SoftirqCpu) (value : ℤ) : SoftirqCpu :=
  match s.call with
  | some c => { s with call := some { c with ksoftirqdTest := value } }
  | none => { s with ksoftirqdTest := value }

/-- `__irq_exit_rcu` with `invoke_softirq`. -/
def irqExit (forceIrqthreads : Bool) (s : SoftirqCpu) : SoftirqCpu :=
  let s' := { s with hardirq := s.hardirq - 1 }
  if s'.inInterrupt || s.softirqPending == 0 then s'
  else if forceIrqthreads then s'.wakeupSoftirqd else s'.doSoftirq

/-- `__local_bh_enable_ip`, with `do_softirq`. -/
def bhEnableStep (s : SoftirqCpu) : Option SoftirqCpu :=
  match s.bhEnable with
  | .idle =>
      if s.bh = 0 then none
      else some { s with
        bh := s.bh - 1
        bhEnable := if s.bh = 1 then .testPending else .idle }
  | .testPending =>
      some { s with bhEnable := if s.softirqPending = 0 then .idle else .doSoftirq }
  | .doSoftirq =>
      let s' := { s with bhEnable := .idle }
      some (if s.softirqPending = 0 then s' else s'.doSoftirq)

/-- `__do_softirq` has returned. -/
def returned (s : SoftirqCpu) (c : SoftirqCall) : SoftirqCpu :=
  let s' := { s with
    softirqPending := c.softirqPending
    ksoftirqdTest := c.ksoftirqdTest
    call := none
    log := s.log ++ c.log.map fun o => (s.isKsoftirqd, o) }
  if c.woken then s'.wakeupSoftirqd else s'

def callStep (s : SoftirqCpu) (again : Bool) : Option SoftirqCpu :=
  match s.call with
  | none => none
  | some c =>
      (c.step s.isKsoftirqd (.next again)).map fun c' =>
        if c'.pc = .returned then s.returned c' else { s with call := some c' }

/-- `schedule` takes a task off the run queue unless it has been woken since it announced its sleep. -/
def ksoftirqdStep (s : SoftirqCpu) : SoftirqCpu :=
  match s.ksoftirqd with
  | .setState => { s with interruptible := true, ksoftirqd := .shouldRun }
  | .shouldRun =>
      if s.softirqPending = 0 then { s with ksoftirqd := .schedule }
      else { s with interruptible := false, ksoftirqd := .run }
  | .schedule =>
      if s.interruptible then { s with ksoftirqd := .setState, onRq := false, isKsoftirqd := false }
      else { s with ksoftirqd := .setState }
  | .run =>
      let s' := { s with ksoftirqd := .setState }
      if s.softirqPending = 0 then s' else s'.doSoftirq

def step (forceIrqthreads : Bool) (s : SoftirqCpu) : CpuEvent → Option SoftirqCpu
  | .raise vec => if s.irqsEnabled then some (s.raise vec) else none
  | .setTest value => some (s.setTest value)
  | .irqEnter => if s.irqsEnabled then some { s with hardirq := s.hardirq + 1 } else none
  | .irqExit => if s.hardirq = 0 then none else some (s.irqExit forceIrqthreads)
  | .bhDisable =>
      if s.inTask ∧ s.isKsoftirqd = false ∧ s.bhEnable = .idle then some { s with bh := s.bh + 1 }
      else none
  | .bhEnable => if s.inTask then s.bhEnableStep else none
  | .call again => if s.hardirq = 0 then s.callStep again else none
  | .ksoftirqd => if s.inTask ∧ s.isKsoftirqd then some s.ksoftirqdStep else none
  | .switch =>
      if s.inTask ∧ s.bh = 0 ∧ s.bhEnable = .idle then
        if s.isKsoftirqd then
          if s.ksoftirqd = .schedule then none else some { s with isKsoftirqd := false }
        else if s.onRq then some { s with isKsoftirqd := true }
        else none
      else none

end SoftirqCpu

/-! ## Histories and calls -/

theorem SoftirqCall.RanSinceRaise.after {vec : ℕ} {log : List Occurrence}
    (h : SoftirqCall.RanSinceRaise vec log) (earlier : List Occurrence) :
    SoftirqCall.RanSinceRaise vec (earlier ++ log) := by
  obtain ⟨pre, post, rfl, hpost⟩ := h
  exact ⟨earlier ++ pre, post, (List.append_assoc ..).symm, hpost⟩

theorem SoftirqCall.RanSinceRaise.before {vec : ℕ} {log later : List Occurrence}
    (h : SoftirqCall.RanSinceRaise vec log) (hlater : .raised vec ∉ later) :
    SoftirqCall.RanSinceRaise vec (log ++ later) := by
  obtain ⟨pre, post, rfl, hpost⟩ := h
  refine ⟨pre, post ++ later, by rw [List.append_assoc, List.cons_append], ?_⟩
  rw [List.mem_append]
  exact fun hmem => hmem.elim hpost hlater

/-- A call that ends with a bit in the mask has woken `ksoftirqd`. -/
theorem SoftirqCall.woken_of_returned {isKsoftirqd again : Bool} {c c' : SoftirqCall}
    (h : c.step isKsoftirqd (.next again) = some c') (hpc : c'.pc = .returned)
    (hmask : c'.softirqPending ≠ 0) : c'.woken = true := by
  cases hc : c.pc <;> simp only [SoftirqCall.step, hc] at h
  case restart =>
    obtain rfl := Option.some.inj h
    rw [(SoftirqCall.restart_spec isKsoftirqd c).1] at hpc
    cases hpc
  case loop =>
    obtain rfl := Option.some.inj h
    unfold SoftirqCall.round at hpc
    dsimp only at hpc
    split at hpc
    · cases hpc
    · exact absurd (hc.symm.trans hpc) (by decide)
  case irqDisabled =>
    obtain rfl := Option.some.inj h
    unfold SoftirqCall.finish at hpc hmask ⊢
    split_ifs at hpc hmask ⊢ with hrx hnone
    · rfl
    · exact absurd hnone hmask
    · rfl
    · rfl
  case returned => cases h

theorem SoftirqCall.ksoftirqdTest_next {isKsoftirqd again : Bool} {c c' : SoftirqCall}
    (h : c.step isKsoftirqd (.next again) = some c') : c'.ksoftirqdTest = c.ksoftirqdTest := by
  cases hc : c.pc <;> simp only [SoftirqCall.step, hc] at h
  case restart =>
    obtain rfl := Option.some.inj h
    unfold SoftirqCall.restart
    split_ifs <;> rfl
  case loop =>
    obtain rfl := Option.some.inj h
    unfold SoftirqCall.round
    dsimp only
    split_ifs <;> rfl
  case irqDisabled =>
    obtain rfl := Option.some.inj h
    unfold SoftirqCall.finish
    split_ifs <;> rfl
  case returned => cases h

/-- The vectors a call has not taken over have run before it. -/
theorem SoftirqCall.Inv.ran_or_kept {log : List Occurrence} {c : SoftirqCall} {vec : ℕ}
    (h : c.Inv fun vec => .raised vec ∈ log ∧ ¬ SoftirqCall.RanSinceRaise vec log)
    (hvec : .raised vec ∈ log ++ c.log) :
    SoftirqCall.RanSinceRaise vec (log ++ c.log) ∨ c.Kept vec := by
  by_cases hdue : (.raised vec ∈ log ∧ ¬ SoftirqCall.RanSinceRaise vec log) ∨
      .raised vec ∈ c.log
  · exact (h vec hdue).imp_left fun hran => hran.after _
  · obtain ⟨hold, hnew⟩ := not_or.mp hdue
    have hbefore := (List.mem_append.mp hvec).resolve_right hnew
    have hran : SoftirqCall.RanSinceRaise vec log := by
      by_contra hran
      exact hold ⟨hbefore, hran⟩
    exact Or.inl (hran.before hnew)

theorem SoftirqCall.Inv.anti {due due' : ℕ → Prop} {c : SoftirqCall} (h : c.Inv due)
    (hle : ∀ vec, due' vec → due vec) : c.Inv due' :=
  fun vec hvec => h vec (hvec.imp_left (hle vec))

namespace SoftirqCpu
variable {s t : SoftirqCpu} {forceIrqthreads : Bool}

/-- What has happened on the CPU, that in the call under way last. -/
def history (s : SoftirqCpu) : List (Bool × Occurrence) :=
  match s.call with
  | none => s.log
  | some c => s.log ++ c.log.map fun o => (s.isKsoftirqd, o)

/-- The vector is in the mask, or in the copy of the call under way. -/
def Due (s : SoftirqCpu) (vec : ℕ) : Prop :=
  match s.call with
  | none => s.softirqPending.getLsbD vec = true
  | some c => c.Kept vec

/-- Task context with the softirqs enabled. -/
def Quiet (s : SoftirqCpu) : Prop := s.inTask = true ∧ s.bh = 0 ∧ s.bhEnable = .idle

/-- `ksoftirqd` is on the run queue and asks for the mask before it sleeps. -/
def Awake (s : SoftirqCpu) : Prop :=
  s.onRq = true ∧ (s.ksoftirqd = .schedule → s.interruptible = false)

theorem wakeupSoftirqd_awake (s : SoftirqCpu) : s.wakeupSoftirqd.Awake := ⟨rfl, fun _ => rfl⟩

/-! ## Nobody forgets the mask -/

structure Served (s : SoftirqCpu) : Prop where
  bh : s.isKsoftirqd = true → s.bh = 0 ∧ s.bhEnable = .idle
  awake : s.Quiet → s.softirqPending ≠ 0 → s.Awake

theorem served_init (test : ℤ) : (init test).Served where
  bh := nofun
  awake := fun _ hne => absurd rfl hne

theorem Quiet.hardirq (h : s.Quiet) : s.hardirq = 0 := by
  have := h.1
  rw [inTask, Bool.and_eq_true, beq_iff_eq] at this
  exact this.1

theorem Quiet.call (h : s.Quiet) : s.call = none := by
  have := h.1
  rw [inTask, Bool.and_eq_true, Option.isNone_iff_eq_none] at this
  exact this.2

theorem served_raise (h : s.Served) (vec : Fin 32) : (s.raise vec).Served := by
  unfold raise raiseIrqoff
  split
  · rename_i hint
    split
    · exact ⟨h.bh, fun hq => nomatch hq.call⟩
    · rename_i hc
      refine ⟨h.bh, fun hq => ?_⟩
      rw [inInterrupt, hc, show s.hardirq = 0 from hq.hardirq, show s.bh = 0 from hq.2.1] at hint
      cases hint
  · split <;> exact ⟨h.bh, fun _ _ => wakeupSoftirqd_awake _⟩

theorem served_irqExit (h : s.Served) : (s.irqExit forceIrqthreads).Served := by
  unfold irqExit
  dsimp only
  split
  · rename_i hcond
    refine ⟨h.bh, fun hq hne => ?_⟩
    have hint : ({ s with hardirq := s.hardirq - 1 } : SoftirqCpu).inInterrupt = false := by
      rw [inInterrupt, hq.hardirq, hq.2.1, hq.call]
      rfl
    rw [hint, Bool.false_or, beq_iff_eq] at hcond
    exact absurd hcond hne
  · split
    · exact ⟨h.bh, fun _ _ => wakeupSoftirqd_awake _⟩
    · exact ⟨h.bh, fun hq => nomatch hq.call⟩

theorem served_bhEnableStep (hk : s.isKsoftirqd ≠ true) (hst : s.bhEnableStep = some t) :
    t.Served := by
  unfold bhEnableStep at hst
  split at hst
  · rw [Option.ite_none_left_eq_some] at hst
    obtain ⟨hbh, hst⟩ := hst
    obtain rfl := Option.some.inj hst
    refine ⟨fun hs => absurd hs hk, fun hq => ?_⟩
    have hzero : s.bh - 1 = 0 := hq.2.1
    have hidle := hq.2.2
    rw [if_pos (by omega)] at hidle
    cases hidle
  · obtain rfl := Option.some.inj hst
    refine ⟨fun hs => absurd hs hk, fun hq hne => ?_⟩
    have hidle := hq.2.2
    rw [if_neg hne] at hidle
    cases hidle
  · obtain rfl := Option.some.inj hst
    split
    · rename_i hzero
      exact ⟨fun hs => absurd hs hk, fun _ hne => absurd hzero hne⟩
    · exact ⟨fun hs => absurd hs hk, fun hq => nomatch hq.call⟩

theorem served_callStep (h : s.Served) {again : Bool} (hst : s.callStep again = some t) :
    t.Served := by
  unfold callStep at hst
  split at hst
  · cases hst
  · rename_i c hc
    obtain ⟨c', hc', rfl⟩ := Option.map_eq_some_iff.mp hst
    split
    · rename_i hpc
      unfold returned
      dsimp only
      split
      · exact ⟨h.bh, fun _ _ => wakeupSoftirqd_awake _⟩
      · rename_i hwoken
        exact ⟨h.bh, fun _ hne => absurd (SoftirqCall.woken_of_returned hc' hpc hne) hwoken⟩
    · exact ⟨h.bh, fun hq => nomatch hq.call⟩

theorem served_ksoftirqdStep (h : s.Served) (htask : s.inTask = true)
    (hk : s.isKsoftirqd = true) : s.ksoftirqdStep.Served := by
  obtain ⟨hbh, hidle⟩ := h.bh hk
  have hawake : s.softirqPending ≠ 0 → s.Awake := h.awake ⟨htask, hbh, hidle⟩
  unfold ksoftirqdStep
  split
  · exact ⟨h.bh, fun _ hne => ⟨(hawake hne).1, nofun⟩⟩
  · split
    · rename_i hzero
      exact ⟨h.bh, fun _ hne => absurd hzero hne⟩
    · rename_i hne
      exact ⟨h.bh, fun _ _ => ⟨(hawake hne).1, nofun⟩⟩
  · rename_i hpc
    split
    · rename_i hint
      refine ⟨nofun, fun _ hne => ?_⟩
      rw [(hawake hne).2 hpc] at hint
      cases hint
    · exact ⟨h.bh, fun _ hne => ⟨(hawake hne).1, nofun⟩⟩
  · dsimp only
    split
    · rename_i hzero
      exact ⟨h.bh, fun _ hne => absurd hzero hne⟩
    · exact ⟨h.bh, fun hq => nomatch hq.call⟩

theorem served_step (h : s.Served) {e : CpuEvent} (hst : step forceIrqthreads s e = some t) :
    t.Served := by
  cases e with
  | raise vec =>
    simp only [step, Option.ite_none_right_eq_some, Option.some.injEq] at hst
    exact hst.2 ▸ served_raise h vec
  | setTest value =>
    obtain rfl := Option.some.inj hst
    unfold setTest
    split
    · exact ⟨h.bh, fun hq => nomatch hq.call⟩
    · exact { h with }
  | irqEnter =>
    simp only [step, Option.ite_none_right_eq_some, Option.some.injEq] at hst
    obtain ⟨-, rfl⟩ := hst
    exact ⟨h.bh, fun hq => absurd hq.hardirq (Nat.succ_ne_zero _)⟩
  | irqExit =>
    simp only [step, Option.ite_none_left_eq_some, Option.some.injEq] at hst
    exact hst.2 ▸ served_irqExit h
  | bhDisable =>
    simp only [step, Option.ite_none_right_eq_some, Option.some.injEq] at hst
    obtain ⟨⟨-, hk, -⟩, rfl⟩ := hst
    refine ⟨fun hs => ?_, fun hq => absurd hq.2.1 (Nat.succ_ne_zero _)⟩
    rw [show s.isKsoftirqd = true from hs] at hk
    cases hk
  | bhEnable =>
    simp only [step, Option.ite_none_right_eq_some] at hst
    refine served_bhEnableStep (fun hk => ?_) hst.2
    obtain ⟨hbh, hidle⟩ := h.bh hk
    have hnone := hst.2
    rw [bhEnableStep, hidle] at hnone
    simp only [hbh, if_true] at hnone
    cases hnone
  | call again =>
    simp only [step, Option.ite_none_right_eq_some] at hst
    exact served_callStep h hst.2
  | ksoftirqd =>
    simp only [step, Option.ite_none_right_eq_some, Option.some.injEq] at hst
    exact hst.2 ▸ served_ksoftirqdStep h hst.1.1 hst.1.2
  | switch =>
    simp only [step, Option.ite_none_right_eq_some] at hst
    obtain ⟨⟨-, hbh, hidle⟩, hst⟩ := hst
    split at hst
    · rw [Option.ite_none_left_eq_some] at hst
      obtain rfl := Option.some.inj hst.2
      exact ⟨nofun, h.awake⟩
    · rw [Option.ite_none_right_eq_some] at hst
      obtain rfl := Option.some.inj hst.2
      exact ⟨fun _ => ⟨hbh, hidle⟩, h.awake⟩

/-! ## What a step does to the mask, the call and the history -/

/-- The changes of the state, as far as they concern the vectors. -/
inductive Move (s : SoftirqCpu) : CpuEvent → SoftirqCpu → Prop
  | raise (vec : Fin 32) (hirq : s.irqsEnabled = true) : Move s (.raise vec) (s.raise vec)
  | setTest (value : ℤ) : Move s (.setTest value) (s.setTest value)
  | same {e : CpuEvent} {t : SoftirqCpu} (call : t.call = s.call) (log : t.log = s.log)
      (mask : t.softirqPending = s.softirqPending) (test : t.ksoftirqdTest = s.ksoftirqdTest)
      (task : t.isKsoftirqd = s.isKsoftirqd ∨ s.call = none) : Move s e t
  | enter {e : CpuEvent} {t : SoftirqCpu} (none : s.call = none)
      (call : t.call = some (.entry s.ksoftirqdTest s.softirqPending)) (log : t.log = s.log) :
      Move s e t
  | next {e : CpuEvent} (c c' : SoftirqCall) (again : Bool) (hc : s.call = some c)
      (hstep : c.step s.isKsoftirqd (.next again) = some c') : Move s e { s with call := some c' }
  | returns {e : CpuEvent} (c c' : SoftirqCall) (again : Bool) (hc : s.call = some c)
      (hstep : c.step s.isKsoftirqd (.next again) = some c') (hpc : c'.pc = .returned) :
      Move s e (s.returned c')

theorem inTask_iff : s.inTask = true ↔ s.hardirq = 0 ∧ s.call = none := by
  rw [inTask, Bool.and_eq_true, beq_iff_eq, Option.isNone_iff_eq_none]

theorem call_of_not_inInterrupt (h : s.inInterrupt = false) : s.call = none := by
  rw [inInterrupt, Bool.or_eq_false_iff] at h
  exact Option.not_isSome_iff_eq_none.mp (Bool.eq_false_iff.mp h.2)

theorem move_irqExit (e : CpuEvent) : Move s e (s.irqExit forceIrqthreads) := by
  unfold irqExit
  dsimp only
  split
  · exact .same rfl rfl rfl rfl (Or.inl rfl)
  · rename_i hcond
    rw [Bool.or_eq_true, not_or] at hcond
    split
    · exact .same rfl rfl rfl rfl (Or.inl rfl)
    · exact .enter (call_of_not_inInterrupt (s := { s with hardirq := s.hardirq - 1 })
        (Bool.eq_false_iff.mpr hcond.1)) rfl rfl

theorem move_bhEnableStep (htask : s.inTask = true) (e : CpuEvent)
    (hst : s.bhEnableStep = some t) : Move s e t := by
  unfold bhEnableStep at hst
  split at hst
  · rw [Option.ite_none_left_eq_some] at hst
    obtain rfl := Option.some.inj hst.2
    exact .same rfl rfl rfl rfl (Or.inl rfl)
  · obtain rfl := Option.some.inj hst
    exact .same rfl rfl rfl rfl (Or.inl rfl)
  · obtain rfl := Option.some.inj hst
    split
    · exact .same rfl rfl rfl rfl (Or.inl rfl)
    · exact .enter (inTask_iff.mp htask).2 rfl rfl

theorem move_callStep {again : Bool} (e : CpuEvent) (hst : s.callStep again = some t) :
    Move s e t := by
  unfold callStep at hst
  split at hst
  · cases hst
  · rename_i c hc
    obtain ⟨c', hstep, rfl⟩ := Option.map_eq_some_iff.mp hst
    split
    · rename_i hpc
      exact .returns c c' again hc hstep hpc
    · exact .next c c' again hc hstep

theorem move_ksoftirqdStep (htask : s.inTask = true) (e : CpuEvent) :
    Move s e s.ksoftirqdStep := by
  have hc := (inTask_iff.mp htask).2
  unfold ksoftirqdStep
  split
  · exact .same rfl rfl rfl rfl (Or.inl rfl)
  · split <;> exact .same rfl rfl rfl rfl (Or.inl rfl)
  · split <;> exact .same rfl rfl rfl rfl (Or.inr hc)
  · dsimp only
    split
    · exact .same rfl rfl rfl rfl (Or.inl rfl)
    · exact .enter hc rfl rfl

theorem step_move {e : CpuEvent} (hst : step forceIrqthreads s e = some t) : Move s e t := by
  cases e with
  | raise vec =>
    simp only [step, Option.ite_none_right_eq_some, Option.some.injEq] at hst
    exact hst.2 ▸ .raise vec hst.1
  | setTest value => exact Option.some.inj hst ▸ .setTest value
  | irqEnter =>
    simp only [step, Option.ite_none_right_eq_some, Option.some.injEq] at hst
    exact hst.2 ▸ .same rfl rfl rfl rfl (Or.inl rfl)
  | irqExit =>
    simp only [step, Option.ite_none_left_eq_some, Option.some.injEq] at hst
    exact hst.2 ▸ move_irqExit _
  | bhDisable =>
    simp only [step, Option.ite_none_right_eq_some, Option.some.injEq] at hst
    exact hst.2 ▸ .same rfl rfl rfl rfl (Or.inl rfl)
  | bhEnable =>
    simp only [step, Option.ite_none_right_eq_some] at hst
    exact move_bhEnableStep hst.1 _ hst.2
  | call again =>
    simp only [step, Option.ite_none_right_eq_some] at hst
    exact move_callStep _ hst.2
  | ksoftirqd =>
    simp only [step, Option.ite_none_right_eq_some, Option.some.injEq] at hst
    exact hst.2 ▸ move_ksoftirqdStep hst.1.1 _
  | switch =>
    simp only [step, Option.ite_none_right_eq_some] at hst
    obtain ⟨⟨htask, -⟩, hst⟩ := hst
    have hc := (inTask_iff.mp htask).2
    split at hst
    · rw [Option.ite_none_left_eq_some] at hst
      exact Option.some.inj hst.2 ▸ .same rfl rfl rfl rfl (Or.inr hc)
    · rw [Option.ite_none_right_eq_some] at hst
      exact Option.some.inj hst.2 ▸ .same rfl rfl rfl rfl (Or.inr hc)

/-! ## Every raise is kept -/

theorem history_none (hc : s.call = none) : s.history = s.log := by
  rw [history, hc]

theorem history_some {c : SoftirqCall} (hc : s.call = some c) :
    s.history = s.log ++ c.log.map fun o => (s.isKsoftirqd, o) := by
  rw [history, hc]

def occurred (s : SoftirqCpu) : List Occurrence := s.log.map Prod.snd

theorem occurred_append (s : SoftirqCpu) (log : List Occurrence) :
    (s.log ++ log.map fun o => (s.isKsoftirqd, o)).map Prod.snd = s.occurred ++ log := by
  rw [List.map_append, List.map_map]
  exact congrArg (s.occurred ++ ·) (List.map_id _)

/-- Between two calls every vector raised has run since or is in the mask; a call has taken over those
that have not run since. -/
def Kept (s : SoftirqCpu) : Prop :=
  match s.call with
  | none => ∀ vec, .raised vec ∈ s.occurred →
      SoftirqCall.RanSinceRaise vec s.occurred ∨ s.softirqPending.getLsbD vec = true
  | some c => c.Inv fun vec =>
      .raised vec ∈ s.occurred ∧ ¬ SoftirqCall.RanSinceRaise vec s.occurred

theorem kept_init (test : ℤ) : (init test).Kept := fun _ hvec => absurd hvec List.not_mem_nil

theorem Kept.of_none (h : s.Kept) (hc : s.call = none) (vec : ℕ) (hvec : .raised vec ∈ s.occurred) :
    SoftirqCall.RanSinceRaise vec s.occurred ∨ s.softirqPending.getLsbD vec = true := by
  rw [Kept, hc] at h
  exact h vec hvec

/-- A change of the other parts of the state. -/
theorem Kept.congr (h : s.Kept) (hc : t.call = s.call) (hl : t.log = s.log)
    (hm : t.softirqPending = s.softirqPending) : t.Kept := by
  unfold Kept occurred at h ⊢
  rwa [hc, hl, hm]

theorem kept_raiseIrqoff (h : s.Kept) (hirq : s.irqsEnabled = true) (vec : Fin 32) :
    (s.raiseIrqoff vec).Kept := by
  unfold raiseIrqoff
  split
  · rename_i c hc
    rw [irqsEnabled, hc, beq_iff_eq] at hirq
    rw [Kept, hc] at h
    exact SoftirqCall.inv_raise h hirq vec
  · rename_i hc
    rw [Kept, hc]
    intro i hi
    have hlog := s.occurred_append [.raised vec.val]
    have hi : .raised i ∈ s.occurred ++ [.raised vec.val] := hlog ▸ hi
    have hkept : SoftirqCall.RanSinceRaise i (s.occurred ++ [.raised vec.val]) ∨
        (orSoftirqPending s.softirqPending vec).getLsbD i = true := by
      rw [SoftirqCall.getLsbD_orSoftirqPending]
      by_cases hiv : i = vec
      · exact Or.inr (by simp [hiv])
      · have hne : Occurrence.raised vec.val ≠ .raised i := by
          simpa using Ne.symm hiv
        have hold : .raised i ∈ s.occurred :=
          (List.mem_append.mp hi).resolve_right fun hmem => hne (List.mem_singleton.mp hmem).symm
        refine (h.of_none hc i hold).imp (fun hran => hran.append hne) fun hbit => ?_
        rw [hbit, Bool.true_or]
    rw [← hlog] at hkept
    exact hkept

theorem kept_raise (h : s.Kept) (hirq : s.irqsEnabled = true) (vec : Fin 32) :
    (s.raise vec).Kept := by
  have hkept := kept_raiseIrqoff h hirq vec
  unfold raise
  split
  · exact hkept
  · exact hkept.congr rfl rfl rfl

/-- What the call has done is done, what it has not is in the mask. -/
theorem kept_returned (h : s.Kept) {c c' : SoftirqCall} (hc : s.call = some c)
    {again : Bool} (hst : c.step s.isKsoftirqd (.next again) = some c') (hpc : c'.pc = .returned) :
    (s.returned c').Kept := by
  rw [Kept, hc] at h
  have hinv := SoftirqCall.inv_step h hst
  have hkept : ({ s with
      softirqPending := c'.softirqPending
      ksoftirqdTest := c'.ksoftirqdTest
      call := none
      log := s.log ++ c'.log.map fun o => (s.isKsoftirqd, o) } : SoftirqCpu).Kept := by
    rw [Kept, occurred, occurred_append]
    intro vec hvec
    refine (hinv.ran_or_kept hvec).imp_right fun hkept => ?_
    rw [SoftirqCall.Kept, hpc] at hkept
    exact hkept.1
  unfold returned
  dsimp only
  split
  · exact hkept.congr rfl rfl rfl
  · exact hkept

theorem kept_move (h : s.Kept) {e : CpuEvent} (hst : Move s e t) : t.Kept := by
  cases hst with
  | raise vec hirq => exact kept_raise h hirq vec
  | setTest value =>
    unfold setTest
    split
    · rename_i c hc
      rw [Kept, hc] at h
      exact h
    · exact h.congr rfl rfl rfl
  | same call log mask => exact h.congr call log mask
  | enter none call log =>
    rw [Kept, call, occurred, log]
    exact (SoftirqCall.inv_entry s.ksoftirqdTest s.softirqPending).anti fun vec hvec =>
      (h.of_none none vec hvec.1).resolve_left hvec.2
  | next c c' again hc hstep =>
    rw [Kept, hc] at h
    exact SoftirqCall.inv_step h hstep
  | returns c c' again hc hstep hpc => exact kept_returned h hc hstep hpc

theorem Kept.ran_or_due (h : s.Kept) {vec : ℕ} (hvec : .raised vec ∈ s.history.map Prod.snd) :
    SoftirqCall.RanSinceRaise vec (s.history.map Prod.snd) ∨ s.Due vec := by
  cases hc : s.call with
  | none =>
    rw [history_none hc] at hvec ⊢
    rw [Due, hc]
    exact h.of_none hc vec hvec
  | some c =>
    rw [history_some hc, occurred_append] at hvec ⊢
    rw [Kept, hc] at h
    rw [Due, hc]
    exact h.ran_or_kept hvec

theorem history_raise (s : SoftirqCpu) (vec : Fin 32) :
    (s.raise vec).history = s.history ++ [(s.isKsoftirqd, .raised vec)] := by
  have hirqoff : (s.raiseIrqoff vec).history = s.history ++ [(s.isKsoftirqd, .raised vec)] := by
    unfold raiseIrqoff
    split
    · rename_i c hc
      rw [history_some hc, List.append_assoc]
      exact congrArg (s.log ++ ·) (List.map_append ..)
    · rename_i hc
      rw [history_none hc]
      exact history_none hc
  unfold raise
  split <;> exact hirqoff

theorem history_move {e : CpuEvent} (hst : Move s e t) : s.history <+: t.history := by
  cases hst with
  | raise vec =>
    rw [history_raise]
    exact List.prefix_append _ _
  | setTest value =>
    unfold setTest
    split
    · rename_i c hc
      rw [history_some hc]
      exact List.prefix_rfl
    · exact List.prefix_rfl
  | same call log mask test task =>
    rcases task with htask | hnone
    · rw [history, history, call, log, htask]
    · rw [history_none hnone, history_none (call.trans hnone), log]
  | enter none call log =>
    rw [history_none none, history_some call, log]
    exact List.prefix_append _ _
  | next c c' again hc hstep =>
    rw [history_some hc]
    exact (List.prefix_append_right_inj _).mpr ((SoftirqCall.log_prefix_step hstep).map _)
  | returns c c' again hc hstep =>
    have hpre : s.history <+: s.log ++ c'.log.map fun o => (s.isKsoftirqd, o) := by
      rw [history_some hc]
      exact (List.prefix_append_right_inj _).mpr ((SoftirqCall.log_prefix_step hstep).map _)
    unfold returned
    dsimp only
    split <;> exact hpre

theorem raised_mem_history {vec : Fin 32} : ∀ {es : List CpuEvent} {s : SoftirqCpu},
    run (step forceIrqthreads) s es = some t → s.history <+: t.history ∧
      (.raise vec ∈ es → .raised vec.val ∈ t.history.map Prod.snd)
  | [], s, h => by
      obtain rfl := Option.some.inj h
      exact ⟨List.prefix_rfl, fun hmem => absurd hmem List.not_mem_nil⟩
  | e :: es, s, h => by
      obtain ⟨u, hu, ht⟩ := run_cons_eq_some.mp h
      obtain ⟨hpre, hrest⟩ := raised_mem_history ht
      refine ⟨(history_move (step_move hu)).trans hpre, fun hmem => ?_⟩
      rcases List.mem_cons.mp hmem with rfl | hmem
      · simp only [step, Option.ite_none_right_eq_some, Option.some.injEq] at hu
        obtain ⟨-, rfl⟩ := hu
        refine (hpre.map _).subset ?_
        rw [history_raise]
        simp
      · exact hrest hmem

/-! ## The reception is left to `ksoftirqd` -/

/-- With the parameter at 1, no other task has run the action of the reception. -/
structure Reserved (s : SoftirqCpu) : Prop where
  test : s.call = none → s.ksoftirqdTest = 1
  call : ∀ c, s.call = some c → c.ksoftirqdTest = 1 ∧ (s.isKsoftirqd = false → c.Deferred)
  log : (false, .ran netRxSoftirq) ∉ s.log

theorem reserved_init : (init 1).Reserved where
  test := fun _ => rfl
  call := nofun
  log := List.not_mem_nil

theorem reserved_raiseIrqoff (h : s.Reserved) (vec : Fin 32) : (s.raiseIrqoff vec).Reserved := by
  unfold raiseIrqoff
  split
  · rename_i c hc
    obtain ⟨htest, hdef⟩ := h.call c hc
    refine ⟨nofun, fun c' hc' => ?_, h.log⟩
    obtain rfl := Option.some.inj hc'
    refine ⟨htest, fun hk => ⟨htest, (hdef hk).notDue, ?_⟩⟩
    simpa using (hdef hk).notRun
  · refine ⟨h.test, h.call, ?_⟩
    simpa using h.log

/-- What a call adds to the history. -/
theorem Reserved.history (h : s.Reserved) {c : SoftirqCall}
    (hdef : s.isKsoftirqd = false → c.Deferred) :
    (false, .ran netRxSoftirq) ∉ s.log ++ c.log.map fun o => (s.isKsoftirqd, o) := by
  rw [List.mem_append, List.mem_map, not_or]
  refine ⟨h.log, ?_⟩
  rintro ⟨o, ho, heq⟩
  obtain ⟨hk, rfl⟩ := Prod.mk.inj heq
  exact (hdef hk).notRun ho

theorem reserved_move (h : s.Reserved) {e : CpuEvent} (he : ∀ v, e = .setTest v → v = 1)
    (hst : Move s e t) : t.Reserved := by
  cases hst with
  | raise vec hirq =>
    have hraised := reserved_raiseIrqoff h vec
    unfold raise
    split
    · exact hraised
    · exact { hraised with }
  | setTest value =>
    obtain rfl := he value rfl
    unfold setTest
    split
    · rename_i c hc
      refine ⟨nofun, fun c' hc' => ?_, h.log⟩
      obtain rfl := Option.some.inj hc'
      have hdef := (h.call c hc).2
      exact ⟨rfl, fun hk => ⟨rfl, (hdef hk).notDue, (hdef hk).notRun⟩⟩
    · rename_i hc
      exact ⟨fun _ => rfl, h.call, h.log⟩
  | same call log mask test task =>
    refine ⟨fun hc => ?_, fun c hc => ?_, log ▸ h.log⟩
    · rw [test]
      exact h.test (call ▸ hc)
    · rw [call] at hc
      rcases task with htask | hnone
      · rw [htask]
        exact h.call c hc
      · rw [hnone] at hc
        cases hc
  | enter none call log =>
    refine ⟨fun hc => (nomatch call.symm.trans hc), fun c hc => ?_, log ▸ h.log⟩
    obtain rfl := Option.some.inj (call.symm.trans hc)
    exact ⟨h.test none, fun _ => ⟨h.test none, nofun, List.not_mem_nil⟩⟩
  | next c c' again hc hstep =>
    obtain ⟨htest, hdef⟩ := h.call c hc
    refine ⟨nofun, fun c'' hc'' => ?_, h.log⟩
    obtain rfl := Option.some.inj hc''
    refine ⟨(SoftirqCall.ksoftirqdTest_next hstep).trans htest, fun hk => ?_⟩
    have hk : s.isKsoftirqd = false := hk
    rw [hk] at hstep
    exact SoftirqCall.deferred_step (e := .next again) (hdef hk) nofun hstep
  | returns c c' again hc hstep hpc =>
    obtain ⟨htest, hdef⟩ := h.call c hc
    have htest' := (SoftirqCall.ksoftirqdTest_next hstep).trans htest
    have hlog : (false, .ran netRxSoftirq) ∉
        s.log ++ c'.log.map fun o => (s.isKsoftirqd, o) := by
      refine h.history fun hk => ?_
      rw [hk] at hstep
      exact SoftirqCall.deferred_step (e := .next again) (hdef hk) nofun hstep
    unfold returned
    dsimp only
    split <;> exact ⟨fun _ => htest', nofun, hlog⟩

theorem reserved_run : ∀ {es : List CpuEvent} {s : SoftirqCpu}, s.Reserved →
    (∀ v, .setTest v ∈ es → v = 1) → run (step forceIrqthreads) s es = some t → t.Reserved
  | [], s, hs, _, h => Option.some.inj h ▸ hs
  | e :: es, s, hs, htest, h => by
      obtain ⟨u, hu, ht⟩ := run_cons_eq_some.mp h
      have hstep : u.Reserved :=
        reserved_move hs (fun v he => htest v (he ▸ List.mem_cons_self)) (step_move hu)
      exact reserved_run hstep (fun v hv => htest v (List.mem_cons_of_mem e hv)) ht

/-! ## Runs -/

theorem kept_run {test : ℤ} {es : List CpuEvent}
    (h : run (step forceIrqthreads) (init test) es = some s) : s.Kept :=
  run_invariant (I := Kept) (fun _ _ _ hk hst => kept_move hk (step_move hst)) (kept_init test) h

theorem served_run {test : ℤ} {es : List CpuEvent}
    (h : run (step forceIrqthreads) (init test) es = some s) : s.Served :=
  run_invariant (I := Served) (fun _ _ _ hk hst => served_step hk hst) (served_init test) h

/-- **Softirqs across contexts.** In every run of a CPU, every vector raised has run since its last
raise or is due: in the mask, or still to run or in the mask of the call of `__do_softirq` under way.
Where one is due in task context with the softirqs enabled, `ksoftirqd` is on the run queue and does
not sleep without asking for the mask again. -/
theorem softirqs_served {test : ℤ} {es : List CpuEvent}
    (h : run (step forceIrqthreads) (init test) es = some s) :
    (∀ vec : Fin 32, .raise vec ∈ es →
      SoftirqCall.RanSinceRaise vec (s.history.map Prod.snd) ∨ s.Due vec) ∧
    (s.Quiet → ∀ vec, s.Due vec → s.Awake) := by
  have hkept := kept_run h
  have hserved := served_run h
  refine ⟨fun vec hvec => hkept.ran_or_due ((raised_mem_history h).2 hvec), fun hq vec hdue => ?_⟩
  unfold Due at hdue
  rw [hq.call] at hdue
  refine hserved.awake hq fun hzero => ?_
  rw [hzero] at hdue
  exact absurd (BitVec.getLsbD_zero.symm.trans hdue) Bool.false_ne_true

/-- An interrupt raises the reception; the call at its end leaves it to `ksoftirqd`. -/
def deferredReception : List CpuEvent :=
  [.irqEnter, .raise 3, .irqExit, .call true, .call true, .call true]

theorem softirqs_served_deferred :
    ∃ s, run (step false) (init 1) deferredReception = some s ∧
      s.softirqPending = rxBitmask ∧ s.Awake := by
  have hs : run (step false) (init 1) deferredReception = some
      ⟨rxBitmask, 1, 0, 0, none, .idle, false, .setState, false, true, [(false, .raised 3)]⟩ := by
    decide +kernel
  refine ⟨_, hs, rfl, (softirqs_served hs).2 ⟨rfl, rfl, rfl⟩ netRxSoftirq ?_⟩
  show rxBitmask.getLsbD netRxSoftirq = true
  decide

/-- **Reception in `ksoftirqd` only.** In every run in which `ksoftirqd_test` is 1, whatever calls
`__do_softirq`, the action of the reception runs with `ksoftirqd` on the CPU. It is not forgotten for
that: in task context with the softirqs enabled, a reception raised has run since, or it is in the mask
and `ksoftirqd` is on the run queue and asks for it before it sleeps. -/
theorem reception_in_ksoftirqd {es : List CpuEvent}
    (h : run (step forceIrqthreads) (init 1) es = some s) (htest : ∀ v, .setTest v ∈ es → v = 1) :
    (∀ task, (task, .ran netRxSoftirq) ∈ s.history → task = true) ∧
    (s.Quiet → .raise 3 ∈ es →
      SoftirqCall.RanSinceRaise netRxSoftirq (s.history.map Prod.snd) ∨
        (s.softirqPending.getLsbD netRxSoftirq = true ∧ s.Awake)) := by
  have hreserved := reserved_run reserved_init htest h
  have hkept := kept_run h
  have hserved := served_run h
  constructor
  · have hnot : (false, .ran netRxSoftirq) ∉ s.history := by
      cases hc : s.call with
      | none => exact history_none hc ▸ hreserved.log
      | some c => exact history_some hc ▸ hreserved.history (hreserved.call c hc).2
    intro task hmem
    cases task with
    | false => exact absurd hmem hnot
    | true => rfl
  · intro hq hraise
    refine (hkept.ran_or_due ((raised_mem_history h).2 hraise)).imp_right fun hdue => ?_
    unfold Due at hdue
    rw [hq.call] at hdue
    refine ⟨hdue, hserved.awake hq fun hzero => ?_⟩
    rw [hzero] at hdue
    exact absurd (BitVec.getLsbD_zero.symm.trans hdue) Bool.false_ne_true

/-- `ksoftirqd` gets the CPU and runs it. -/
theorem reception_in_ksoftirqd_deferred :
    ∃ s, run (step false) (init 1) (deferredReception ++ [.switch, .ksoftirqd, .ksoftirqd,
        .ksoftirqd, .call true, .call true, .call true, .call true]) = some s ∧
      s.history = [(false, .raised 3), (true, .ran 3)] ∧
      ∀ task, (task, .ran netRxSoftirq) ∈ s.history → task = true := by
  have hs : run (step false) (init 1) (deferredReception ++ [.switch, .ksoftirqd, .ksoftirqd,
      .ksoftirqd, .call true, .call true, .call true, .call true]) = some
      ⟨0, 1, 0, 0, none, .idle, true, .setState, false, true,
        [(false, .raised 3), (true, .ran 3)]⟩ := by decide +kernel
  refine ⟨_, hs, rfl, (reception_in_ksoftirqd hs fun v hv => ?_).1⟩
  simp [deferredReception] at hv

end SoftirqCpu

end CrosRt.Kernel
