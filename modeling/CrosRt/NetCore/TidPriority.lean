import Mathlib.Data.Fintype.EquivFin
import CrosRt.Foundations.ChainedTable
import CrosRt.Kernel.Primitives

/-! # Priorities of user threads

`tid_priority_map` of `net/core/dev.c` with `add_tid_priority`, `remove_tid_priority` and
`wake_up_by_priority`. Like the port table the map keeps a stack of additions for every tid: an
addition never replaces an older one and a removal takes back the newest.

`wake_up_by_priority` compares each entry with its local `prio`, which nothing assigns: the loop
that did is commented out, and the argument `priority` is not read.
-/

namespace CrosRt
set_option autoImplicit false

/-- `struct tid_entry` without its hash node. -/
structure TidEntry where
  tid : ℤ
  priority : ℤ
  deriving DecidableEq, Repr

abbrev TidPriorityMap (hash : ℤ → Fin 256) := ChainedTable hash TidEntry.tid

/-- `__state` of the task that `pid_task(find_vpid(tid), PIDTYPE_PID)` finds. -/
abbrev TaskTable := ℤ → Option (BitVec 32)

inductive TidCall
  | add (tid priority : ℤ)
  | remove (tid : ℤ)
  deriving DecidableEq, Repr

namespace TidPriority
open ChainedTable

def taskRunning : BitVec 32 := 0
def taskInterruptible : BitVec 32 := 1
def taskUninterruptible : BitVec 32 := 2
def taskNormal : BitVec 32 := taskInterruptible ||| taskUninterruptible

/-- `try_to_wake_up(p, TASK_NORMAL, 0)` on the state of the task. -/
def wakeUpProcess (state : BitVec 32) : BitVec 32 :=
  if state &&& taskNormal ≠ 0 then taskRunning else state

def Sleeps (state : BitVec 32) : Prop := state = taskInterruptible ∨ state = taskUninterruptible

instance : DecidablePred Sleeps := fun _ => inferInstanceAs (Decidable (_ ∨ _))

def Asleep (tasks : TaskTable) (tid : ℤ) : Prop := ∃ state, tasks tid = some state ∧ Sleeps state

/-- The states of the tasks and the calls of `wake_up_process`, in order. -/
structure Wakes where
  tasks : TaskTable
  woken : List ℤ

section Model
variable {hash : ℤ → Fin 256}

/-- `add_tid_priority`; `allocated` says whether `kmalloc` returned an entry. -/
def addTidPriority (map : TidPriorityMap hash) (allocated : Bool) (tid priority : ℤ) :
    TidPriorityMap hash :=
  if allocated then map.hashAdd ⟨tid, priority⟩ else map

def removeTidPriority (map : TidPriorityMap hash) (tid : ℤ) : TidPriorityMap hash :=
  map.eraseIn (hash tid) (hasKey TidEntry.tid tid)

def wakeEntry (prio : ℤ) (w : Wakes) (entry : TidEntry) : Wakes :=
  if entry.priority = prio then
    match w.tasks entry.tid with
    | none => w
    | some state =>
        if Sleeps state then
          ⟨Function.update w.tasks entry.tid (some (wakeUpProcess state)), w.woken ++ [entry.tid]⟩
        else w
  else w

/-- `wake_up_by_priority`; `prio` is what the stack holds where the local of this name is. -/
def wakeUpByPriority (map : TidPriorityMap hash) (tasks : TaskTable) (_priority prio : ℤ) : Wakes :=
  map.toList.foldl (wakeEntry prio) ⟨tasks, []⟩

/-- The system calls `add_tp_syscall` and `remove_tp_syscall`, every allocation succeeding. -/
def call (map : TidPriorityMap hash) : TidCall → TidPriorityMap hash
  | .add tid priority => addTidPriority map true tid priority
  | .remove tid => removeTidPriority map tid

def after (hash : ℤ → Fin 256) (calls : List TidCall) : TidPriorityMap hash :=
  calls.foldl call .empty

end Model

/-! ## What a history says -/

def lastCall (m : ℤ → Option ℤ) : TidCall → ℤ → Option ℤ
  | .add tid priority => Function.update m tid (some priority)
  | .remove tid => Function.update m tid none

/-- The priority a tid was last added with, none once it was removed after that. -/
def lastAdded (calls : List TidCall) : ℤ → Option ℤ := calls.foldl lastCall fun _ => none

def standingCall (m : ℤ → List ℤ) : TidCall → ℤ → List ℤ
  | .add tid priority => Function.update m tid (priority :: m tid)
  | .remove tid => Function.update m tid (m tid).tail

/-- The priorities of the additions of a tid that no removal has taken back, the newest first. -/
def standing (calls : List TidCall) : ℤ → List ℤ := calls.foldl standingCall fun _ => []

/-- With `prio` left on the stack, `wake_up_by_priority(priority)` wakes exactly the sleeping tasks
whose tid was last added with this priority. -/
def WakesExactly (hash : ℤ → Fin 256) (calls : List TidCall) (tasks : TaskTable)
    (priority prio : ℤ) : Prop :=
  ∀ tid, tid ∈ (wakeUpByPriority (after hash calls) tasks priority prio).woken ↔
    Asleep tasks tid ∧ lastAdded calls tid = some priority

@[simp] theorem lastAdded_concat (calls : List TidCall) (c : TidCall) :
    lastAdded (calls ++ [c]) = lastCall (lastAdded calls) c := by
  rw [lastAdded, List.foldl_concat]
  rfl

@[simp] theorem standing_concat (calls : List TidCall) (c : TidCall) :
    standing (calls ++ [c]) = standingCall (standing calls) c := by
  rw [standing, List.foldl_concat]
  rfl

theorem standing_of_lastAdded {calls : List TidCall} {tid p : ℤ}
    (h : lastAdded calls tid = some p) : (standing calls tid).head? = some p := by
  induction calls using List.reverseRecOn with
  | nil => exact absurd h (Option.some_ne_none p).symm
  | append_singleton calls c ih =>
    rw [lastAdded_concat] at h
    rw [standing_concat]
    cases c with
    | add tid' priority =>
      rw [lastCall, Function.update_apply] at h
      rw [standingCall, Function.update_apply]
      by_cases ht : tid = tid'
      · rw [if_pos ht] at h
        rw [if_pos ht, List.head?_cons, h]
      · rw [if_neg ht] at h
        rw [if_neg ht]
        exact ih h
    | remove tid' =>
      rw [lastCall, Function.update_apply] at h
      rw [standingCall, Function.update_apply]
      by_cases ht : tid = tid'
      · rw [if_pos ht] at h
        exact absurd h (Option.some_ne_none p).symm
      · rw [if_neg ht] at h
        rw [if_neg ht]
        exact ih h

/-! ## What the map keeps -/

section Table
variable {hash : ℤ → Fin 256}

@[simp] theorem after_concat (calls : List TidCall) (c : TidCall) :
    after hash (calls ++ [c]) = call (after hash calls) c := by
  rw [after, List.foldl_concat]
  rfl

theorem entriesFor_addTidPriority (map : TidPriorityMap hash) (tid priority q : ℤ) :
    (addTidPriority map true tid priority).entriesFor q =
      if tid = q then ⟨tid, priority⟩ :: map.entriesFor q else map.entriesFor q :=
  entriesFor_hashAdd map ⟨tid, priority⟩ q

theorem entriesFor_removeTidPriority (map : TidPriorityMap hash) (tid q : ℤ) :
    (removeTidPriority map tid).entriesFor q =
      if q = tid then (map.entriesFor tid).tail else map.entriesFor q := by
  by_cases hq : q = tid
  · subst hq
    rw [if_pos rfl]
    exact entriesFor_eraseIn_self map q
  · rw [if_neg hq]
    exact entriesFor_eraseIn_ne map _ hq

/-- **The map is the family of stacks**: the entries of a tid are its standing additions. -/
theorem entriesFor_after (calls : List TidCall) (tid : ℤ) :
    ((after hash calls).entriesFor tid).map TidEntry.priority = standing calls tid := by
  induction calls using List.reverseRecOn with
  | nil => rfl
  | append_singleton calls c ih =>
    rw [after_concat, standing_concat]
    cases c with
    | add tid' priority =>
      rw [call, entriesFor_addTidPriority, standingCall, Function.update_apply]
      by_cases ht : tid' = tid
      · subst ht
        rw [if_pos rfl, if_pos rfl, List.map_cons, ih]
      · rw [if_neg ht, if_neg (Ne.symm ht), ih]
    | remove tid' =>
      rw [call, entriesFor_removeTidPriority, standingCall, Function.update_apply]
      by_cases ht : tid = tid'
      · subst ht
        rw [if_pos rfl, if_pos rfl, List.map_tail, ih]
      · rw [if_neg ht, if_neg ht, ih]

theorem exists_entry_iff (calls : List TidCall) (tid prio : ℤ) :
    (∃ entry ∈ (after hash calls).toList, entry.tid = tid ∧ entry.priority = prio) ↔
      prio ∈ standing calls tid := by
  have hstack : ((after hash calls).entriesFor tid).map TidEntry.priority = standing calls tid :=
    entriesFor_after calls tid
  rw [← hstack, List.mem_map]
  constructor
  · rintro ⟨entry, hmem, rfl, hprio⟩
    exact ⟨entry, mem_toList.mp hmem, hprio⟩
  · rintro ⟨entry, hmem, hprio⟩
    obtain ⟨hmem, htid⟩ := mem_entriesFor.mp hmem
    exact ⟨entry, hmem, htid, hprio⟩

end Table

/-! ## The loop over the map -/

theorem not_sleeps_wakeUpProcess {state : BitVec 32} (h : Sleeps state) :
    ¬ Sleeps (wakeUpProcess state) := by
  rcases h with rfl | rfl <;> decide

/-- One entry: its task is woken if it sleeps and the priority is the one looked for, and sleeps no
more then. -/
theorem wakeEntry_spec (prio : ℤ) (w : Wakes) (entry : TidEntry) (tid : ℤ) :
    (tid ∈ (wakeEntry prio w entry).woken ↔
      tid ∈ w.woken ∨ Asleep w.tasks tid ∧ entry.tid = tid ∧ entry.priority = prio) ∧
    (Asleep (wakeEntry prio w entry).tasks tid ↔
      Asleep w.tasks tid ∧ ¬ (entry.tid = tid ∧ entry.priority = prio)) := by
  rw [wakeEntry]
  by_cases hprio : entry.priority = prio
  · rw [if_pos hprio]
    by_cases htid : entry.tid = tid
    · subst htid
      cases htask : w.tasks entry.tid with
      | none => simp [Asleep, htask]
      | some state =>
        by_cases hstate : Sleeps state
        · simp [Asleep, htask, hstate, hprio, not_sleeps_wakeUpProcess hstate]
        · simp [Asleep, htask, hstate]
    · cases htask : w.tasks entry.tid with
      | none => simp [htid]
      | some state =>
        by_cases hstate : Sleeps state
        · simp [Asleep, hstate, htid, Ne.symm htid]
        · simp [hstate, htid]
  · rw [if_neg hprio]
    simp [hprio]

theorem mem_woken_foldl (prio : ℤ) (entries : List TidEntry) (w : Wakes) (tid : ℤ) :
    tid ∈ (entries.foldl (wakeEntry prio) w).woken ↔
      tid ∈ w.woken ∨
        Asleep w.tasks tid ∧ ∃ entry ∈ entries, entry.tid = tid ∧ entry.priority = prio := by
  induction entries generalizing w with
  | nil => simp
  | cons entry entries ih =>
    obtain ⟨hwoken, hasleep⟩ := wakeEntry_spec prio w entry tid
    rw [List.foldl_cons, ih, hwoken, hasleep, List.exists_mem_cons_iff]
    constructor
    · rintro ((hmem | ⟨ha, hentry⟩) | ⟨⟨ha, -⟩, hrest⟩)
      · exact Or.inl hmem
      · exact Or.inr ⟨ha, Or.inl hentry⟩
      · exact Or.inr ⟨ha, Or.inr hrest⟩
    · rintro (hmem | ⟨ha, hentry | hrest⟩)
      · exact Or.inl (Or.inl hmem)
      · exact Or.inl (Or.inr ⟨ha, hentry⟩)
      · -- a task that this entry has woken already does not sleep for a later one
        by_cases hentry : entry.tid = tid ∧ entry.priority = prio
        · exact Or.inl (Or.inr ⟨ha, hentry⟩)
        · exact Or.inr ⟨⟨ha, hentry⟩, hrest⟩

/-- `wake_up_by_priority` wakes the sleeping tasks with a standing addition of priority `prio`,
whatever its argument is. -/
theorem mem_woken_iff (hash : ℤ → Fin 256) (calls : List TidCall) (tasks : TaskTable)
    (priority prio tid : ℤ) :
    tid ∈ (wakeUpByPriority (after hash calls) tasks priority prio).woken ↔
      Asleep tasks tid ∧ prio ∈ standing calls tid := by
  rw [wakeUpByPriority, mem_woken_foldl, exists_entry_iff]
  simp

/-- For one content of the local: exact if and only if each sleeping task has a standing addition of
that priority exactly when it was last added with the one asked for. -/
theorem wakesExactly_iff (hash : ℤ → Fin 256) (calls : List TidCall) (tasks : TaskTable)
    (priority prio : ℤ) :
    WakesExactly hash calls tasks priority prio ↔
      ∀ tid, Asleep tasks tid →
        (prio ∈ standing calls tid ↔ lastAdded calls tid = some priority) := by
  unfold WakesExactly
  refine forall_congr' fun tid => ?_
  rw [mem_woken_iff]
  exact and_congr_right_iff

/-- **Waking by priority.** Whatever the local holds, exactly the sleeping tasks last added with the
priority are woken if and only if there is nobody to wake: no sleeping task has an addition that
still stands. -/
theorem wakesExactly_always_iff (hash : ℤ → Fin 256) (calls : List TidCall) (tasks : TaskTable)
    (priority : ℤ) :
    (∀ prio, WakesExactly hash calls tasks priority prio) ↔
      ∀ tid, Asleep tasks tid → standing calls tid = [] := by
  simp only [wakesExactly_iff]
  constructor
  · intro h tid hasleep
    by_contra hne
    obtain ⟨p, hp⟩ := List.exists_mem_of_ne_nil _ hne
    have hlast : lastAdded calls tid = some priority := (h p tid hasleep).mp hp
    -- a content that is the priority of no addition of this tid
    obtain ⟨prio, hprio⟩ := Infinite.exists_notMem_finset (standing calls tid).toFinset
    exact hprio (List.mem_toFinset.mpr ((h prio tid hasleep).mpr hlast))
  · intro h prio tid hasleep
    rw [h tid hasleep]
    refine iff_of_false List.not_mem_nil fun hlast => ?_
    have hhead := standing_of_lastAdded hlast
    rw [h tid hasleep] at hhead
    exact Option.some_ne_none _ hhead.symm

section Example

def oneSleeper : TaskTable := fun tid => if tid = 40 then some taskInterruptible else none

/-- Thread 40 was added with priority 50; the local happens to be 0, so the call for priority 50
wakes nobody. -/
theorem sleeper_not_woken :
    ¬ WakesExactly Kernel.hashMin [.add 40 50] oneSleeper 50 0 := by
  rw [wakesExactly_iff]
  intro h
  have hasleep : Asleep oneSleeper 40 := ⟨taskInterruptible, rfl, Or.inl rfl⟩
  exact absurd ((h 40 hasleep).mpr rfl) (by decide)

/-- Even with the priority asked for in the local, an older addition that stands wakes the thread. -/
example : ¬ WakesExactly Kernel.hashMin [.add 40 50, .add 40 60] oneSleeper 50 50 := by
  rw [wakesExactly_iff]
  intro h
  have hasleep : Asleep oneSleeper 40 := ⟨taskInterruptible, rfl, Or.inl rfl⟩
  exact absurd ((h 40 hasleep).mp (by decide)) (by decide)

end Example

end TidPriority

end CrosRt
