import Mathlib.Logic.Function.Basic
import Mathlib.Algebra.Order.Ring.Int
import Mathlib.Data.Option.Basic
import CrosRt.Foundations.LabelledRuns

/-! # Switching the handlers on

`krtd_on_set` of `r8169_main.c` with the pid parameters it reads, threads that are created and exit,
and frames that `rtl_rx` looks at between any two statements. `rtl_rx` reads `knonrtd->__state` for
every frame to port 7778 while `krtd_on` is not 0. The flag is stored before the pointers behind it
are, and a pointer stays when its thread exits.

Writes to the parameters of a module are serialised, so none comes in while `krtd_on_set` runs. A
task is a number that is not used again, a pid can be.
-/

namespace CrosRt
set_option autoImplicit false

open LabelledRuns

/-- What `krtd_on_set` does next after `param_set_int`. -/
inductive SetPc
  | idle
  | testOn
  | setKmond
  | setKrtd
  | setKnonrtd
  deriving DecidableEq, Repr

/-- The parameters and task pointers of the driver, and the thread that a pid names. `bound` is a
history variable: the pid under which the last assignment of `knonrtd` found a thread, until that
thread exits. -/
structure KrtdSwitch where
  kmondPid : ℤ
  krtdPid : ℤ
  knonrtdPid : ℤ
  krtdOn : ℤ
  kmond : Option ℕ
  krtd : Option ℕ
  knonrtd : Option ℕ
  pc : SetPc
  task : ℤ → Option ℕ
  nextTask : ℕ
  bound : Option ℤ

/-- Writes to the parameters, with `none` for a text that `param_set_int` refuses, a statement of
`krtd_on_set`, threads, and a frame for a UDP port. -/
inductive SwitchEvent
  | writeKmondPid (val : Option ℤ)
  | writeKrtdPid (val : Option ℤ)
  | writeKnonrtdPid (val : Option ℤ)
  | writeKrtdOn (val : Option ℤ)
  | krtdOnSet
  | create (pid : ℤ)
  | exit (pid : ℤ)
  | frame (port : BitVec 16)

namespace KrtdSwitch

def init : KrtdSwitch := ⟨0, 0, 0, 0, none, none, none, .idle, fun _ => none, 0, none⟩

/-- `pid_task(find_get_pid(pid), PIDTYPE_PID)`. -/
def pidTask (s : KrtdSwitch) (pid : ℤ) : Option ℕ := s.task pid

def paramSetInt (old : ℤ) : Option ℤ → ℤ
  | none => old
  | some v => v

/-- The next statement of `krtd_on_set`. -/
def krtdOnSet (s : KrtdSwitch) : Option KrtdSwitch :=
  match s.pc with
  | .idle => none
  | .testOn => some { s with pc := if s.krtdOn ≠ 0 then .setKmond else .idle }
  | .setKmond => some { s with kmond := s.pidTask s.kmondPid, pc := .setKrtd }
  | .setKrtd => some { s with krtd := s.pidTask s.krtdPid, pc := .setKnonrtd }
  | .setKnonrtd =>
      some { s with
        knonrtd := s.pidTask s.knonrtdPid
        pc := .idle
        bound := (s.pidTask s.knonrtdPid).map fun _ => s.knonrtdPid }

def createTask (s : KrtdSwitch) (pid : ℤ) : KrtdSwitch :=
  { s with
    task := Function.update s.task pid (some s.nextTask)
    nextTask := s.nextTask + 1 }

def exitTask (s : KrtdSwitch) (pid : ℤ) : KrtdSwitch :=
  { s with
    task := Function.update s.task pid none
    bound := if s.bound = some pid then none else s.bound }

def step (s : KrtdSwitch) : SwitchEvent → Option KrtdSwitch
  | .writeKmondPid val =>
      if s.pc = .idle then some { s with kmondPid := paramSetInt s.kmondPid val } else none
  | .writeKrtdPid val =>
      if s.pc = .idle then some { s with krtdPid := paramSetInt s.krtdPid val } else none
  | .writeKnonrtdPid val =>
      if s.pc = .idle then some { s with knonrtdPid := paramSetInt s.knonrtdPid val } else none
  | .writeKrtdOn val =>
      if s.pc = .idle then
        some { s with
          krtdOn := paramSetInt s.krtdOn val
          pc := if val.isSome then .testOn else .idle }
      else none
  | .krtdOnSet => s.krtdOnSet
  | .create pid =>
      if 0 < pid ∧ s.task pid = none then some (s.createTask pid) else none
  | .exit pid => if s.task pid = none then none else some (s.exitTask pid)
  | .frame _ => some s

def ReadsKnonrtd (s : KrtdSwitch) (port : BitVec 16) : Prop := s.krtdOn ≠ 0 ∧ port = 7778

def KnonrtdAlive (s : KrtdSwitch) : Prop := ∃ t pid, s.knonrtd = some t ∧ s.task pid = some t

def ReadSafe (s : KrtdSwitch) : SwitchEvent → Prop
  | .frame port => s.ReadsKnonrtd port → s.KnonrtdAlive
  | _ => True

/-- The last assignment of `knonrtd` has found a thread under `knonrtd_pid`, and no thread with this
pid has exited since. -/
def BoundWhenRead (s : KrtdSwitch) : SwitchEvent → Prop
  | .frame port => s.ReadsKnonrtd port → s.bound.isSome = true
  | _ => True

/-! ## Pointers and pids -/

theorem createTask_task_self (s : KrtdSwitch) (pid : ℤ) :
    (s.createTask pid).task pid = some s.nextTask := Function.update_self ..

theorem createTask_task_ne (s : KrtdSwitch) {p pid : ℤ} (h : p ≠ pid) :
    (s.createTask pid).task p = s.task p := Function.update_of_ne h ..

theorem exitTask_task_self (s : KrtdSwitch) (pid : ℤ) : (s.exitTask pid).task pid = none :=
  Function.update_self ..

theorem exitTask_task_ne (s : KrtdSwitch) {p pid : ℤ} (h : p ≠ pid) :
    (s.exitTask pid).task p = s.task p := Function.update_of_ne h ..

structure Inv (s : KrtdSwitch) : Prop where
  taskOld : ∀ pid t, s.task pid = some t → t < s.nextTask
  knonrtdOld : ∀ t, s.knonrtd = some t → t < s.nextTask
  oneName : ∀ p q t, s.task p = some t → s.task q = some t → p = q
  bound : ∀ pid, s.bound = some pid ↔ ∃ t, s.knonrtd = some t ∧ s.task pid = some t

theorem inv_init : init.Inv where
  taskOld := fun _ _ h => absurd h (by simp [init])
  knonrtdOld := fun _ h => absurd h (by simp [init])
  oneName := fun _ _ _ h => absurd h (by simp [init])
  bound := fun _ => by simp [init]

theorem Inv.bound_isSome {s : KrtdSwitch} (hs : s.Inv) :
    s.bound.isSome = true ↔ s.KnonrtdAlive := by
  rw [Option.isSome_iff_exists]
  constructor
  · rintro ⟨pid, hpid⟩
    obtain ⟨t, ht⟩ := (hs.bound pid).mp hpid
    exact ⟨t, pid, ht⟩
  · rintro ⟨t, pid, ht⟩
    exact ⟨pid, (hs.bound pid).mpr ⟨t, ht⟩⟩

theorem Inv.of_same {s t : KrtdSwitch} (hs : s.Inv) (hknonrtd : t.knonrtd = s.knonrtd)
    (htask : t.task = s.task) (hnext : t.nextTask = s.nextTask) (hbound : t.bound = s.bound) :
    t.Inv := by
  obtain ⟨h₁, h₂, h₃, h₄⟩ := hs
  refine ⟨?_, ?_, ?_, ?_⟩
  · rw [htask, hnext]
    exact h₁
  · rw [hknonrtd, hnext]
    exact h₂
  · rw [htask]
    exact h₃
  · rw [hbound, hknonrtd, htask]
    exact h₄

theorem inv_krtdOnSet {s t : KrtdSwitch} (hs : s.Inv) (h : s.krtdOnSet = some t) : t.Inv := by
  unfold krtdOnSet at h
  cases hpc : s.pc <;> simp only [hpc] at h
  case idle => cases h
  case setKnonrtd =>
    obtain rfl := Option.some.inj h
    refine ⟨hs.taskOld, fun t ht => hs.taskOld s.knonrtdPid t ht, hs.oneName, fun pid => ?_⟩
    simp only [Option.map_eq_some_iff]
    constructor
    · rintro ⟨t, ht, rfl⟩
      exact ⟨t, ht, ht⟩
    · rintro ⟨t, ht, hpid⟩
      exact ⟨t, ht, hs.oneName _ _ t ht hpid⟩
  all_goals
    obtain rfl := Option.some.inj h
    exact hs.of_same rfl rfl rfl rfl

theorem inv_createTask {s : KrtdSwitch} (hs : s.Inv) {pid : ℤ} (hfree : s.task pid = none) :
    (s.createTask pid).Inv where
  taskOld := by
    intro p t ht
    by_cases hp : p = pid
    · rw [hp, createTask_task_self, Option.some.injEq] at ht
      exact ht ▸ Nat.lt_succ_self _
    · rw [createTask_task_ne s hp] at ht
      exact Nat.lt_succ_of_lt (hs.taskOld p t ht)
  knonrtdOld := fun t ht => Nat.lt_succ_of_lt (hs.knonrtdOld t ht)
  oneName := by
    -- The new task is younger than every other.
    have hnew : ∀ q t, s.task q = some t → t ≠ s.nextTask :=
      fun q t ht => ne_of_lt (hs.taskOld q t ht)
    intro p q t hp hq
    by_cases hpp : p = pid <;> by_cases hqq : q = pid
    · rw [hpp, hqq]
    · rw [hpp, createTask_task_self, Option.some.injEq] at hp
      rw [createTask_task_ne s hqq] at hq
      exact absurd hp.symm (hnew q t hq)
    · rw [hqq, createTask_task_self, Option.some.injEq] at hq
      rw [createTask_task_ne s hpp] at hp
      exact absurd hq.symm (hnew p t hp)
    · rw [createTask_task_ne s hpp] at hp
      rw [createTask_task_ne s hqq] at hq
      exact hs.oneName p q t hp hq
  bound := by
    intro p
    refine (hs.bound p).trans (exists_congr fun t => and_congr_right fun ht => ?_)
    by_cases hp : p = pid
    · rw [hp, createTask_task_self, hfree, Option.some.injEq]
      exact iff_of_false (by simp) (ne_of_gt (hs.knonrtdOld t ht))
    · rw [createTask_task_ne s hp]

theorem inv_exitTask {s : KrtdSwitch} (hs : s.Inv) (pid : ℤ) : (s.exitTask pid).Inv := by
  have hkeep : ∀ p t, (s.exitTask pid).task p = some t → p ≠ pid ∧ s.task p = some t := by
    intro p t ht
    by_cases hp : p = pid
    · rw [hp, exitTask_task_self] at ht
      cases ht
    · rw [exitTask_task_ne s hp] at ht
      exact ⟨hp, ht⟩
  refine ⟨fun p t ht => hs.taskOld p t (hkeep p t ht).2, hs.knonrtdOld,
    fun p q t hp hq => hs.oneName p q t (hkeep p t hp).2 (hkeep q t hq).2, fun p => ?_⟩
  by_cases hp : p = pid
  · refine iff_of_false ?_ fun ⟨t, _, ht⟩ => (hkeep p t ht).1 hp
    simp only [exitTask]
    split_ifs with hbound
    · simp
    · rwa [hp]
  · rw [exitTask_task_ne s hp, show (s.exitTask pid).knonrtd = s.knonrtd from rfl, ← hs.bound p]
    simp only [exitTask]
    split_ifs with hbound
    · rw [hbound, Option.some.injEq]
      exact iff_of_false (by simp) fun h => hp h.symm
    · exact Iff.rfl

theorem inv_step {s t : KrtdSwitch} {e : SwitchEvent} (hs : s.Inv) (h : step s e = some t) :
    t.Inv := by
  cases e with
  | writeKmondPid val | writeKrtdPid val | writeKnonrtdPid val | writeKrtdOn val =>
    simp only [step] at h
    split_ifs at h
    all_goals
      obtain rfl := Option.some.inj h
      exact hs.of_same rfl rfl rfl rfl
  | krtdOnSet => exact inv_krtdOnSet hs h
  | create pid =>
    simp only [step] at h
    split_ifs at h with hfree
    exact Option.some.inj h ▸ inv_createTask hs hfree.2
  | exit pid =>
    simp only [step] at h
    by_cases hnone : s.task pid = none
    · rw [if_pos hnone] at h
      cases h
    · rw [if_neg hnone] at h
      exact Option.some.inj h ▸ inv_exitTask hs pid
  | frame port =>
    obtain rfl := Option.some.inj h
    exact hs

theorem readSafe_iff {s : KrtdSwitch} (hs : s.Inv) (e : SwitchEvent) :
    s.ReadSafe e ↔ s.BoundWhenRead e := by
  cases e with
  | frame port =>
    simp only [ReadSafe, BoundWhenRead]
    rw [hs.bound_isSome]
  | _ => exact Iff.rfl

/-- **When `rtl_rx` reads a living thread.** In a run every read of `knonrtd->__state` is of a thread
that has not exited exactly when, at every frame that causes one, the last assignment of `knonrtd`
has found a thread under `knonrtd_pid` and no thread with this pid has exited since. -/
theorem readSafe_iff_boundWhenRead (es : List SwitchEvent) :
    StepsMeet step ReadSafe init es ↔ StepsMeet step BoundWhenRead init es :=
  stepsMeet_congr (fun _ _ _ => inv_step) (fun _ e _ hs _ => readSafe_iff hs e) inv_init

/-- With the pid of a living thread, a frame comes in behind `param_set_int`; and with all pointers
assigned, behind the exit of the thread. -/
theorem frame_reads_null :
    ¬ StepsMeet step ReadSafe init
        [.create 40, .writeKnonrtdPid (some 40), .writeKrtdOn (some 1), .frame 7778] ∧
      ¬ StepsMeet step ReadSafe init
        [.create 40, .writeKnonrtdPid (some 40), .writeKrtdOn (some 1), .krtdOnSet, .krtdOnSet,
          .krtdOnSet, .krtdOnSet, .exit 40, .frame 7778] := by
  constructor
  · intro h
    obtain ⟨_, h⟩ := h _ rfl
    obtain ⟨_, h⟩ := h _ rfl
    obtain ⟨_, h⟩ := h _ rfl
    obtain ⟨h, _⟩ := h _ rfl
    obtain ⟨t, pid, hnull, _⟩ := h ⟨by decide, rfl⟩
    cases hnull
  · intro h
    obtain ⟨_, h⟩ := h _ rfl
    obtain ⟨_, h⟩ := h _ rfl
    obtain ⟨_, h⟩ := h _ rfl
    obtain ⟨_, h⟩ := h _ rfl
    obtain ⟨_, h⟩ := h _ rfl
    obtain ⟨_, h⟩ := h _ rfl
    obtain ⟨_, h⟩ := h _ rfl
    obtain ⟨_, h⟩ := h _ rfl
    obtain ⟨h, _⟩ := h _ rfl
    obtain ⟨t, pid, _, htask⟩ := h ⟨by decide, rfl⟩
    by_cases hpid : pid = 40
    · subst hpid
      cases htask
    · rw [exitTask_task_ne _ hpid] at htask
      simp [init, createTask, hpid] at htask

end KrtdSwitch

end CrosRt
