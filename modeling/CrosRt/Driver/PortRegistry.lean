import CrosRt.Foundations.ChainedTable
import CrosRt.Foundations.TracedArray
import CrosRt.Foundations.LabelledRuns
import CrosRt.Kernel.Primitives

/-! # The port registry of the network driver

`port_priority_table` maps UDP ports to priorities and `priority_in_use` says which priorities
occur; `set_port_priority`, `remove_port_priority` and `get_port_priority` of `r8169_main.c`. The
bucket function is a parameter: nothing below depends on which ports collide.

`set_port_priority` never looks for an entry of the same port, so the table holds a stack of
registrations for every port. `remove_port_priority` pops it and returns at once; only when it
finds no entry does it reach the line that clears a flag, and the priority it read is then 0.
-/

namespace CrosRt
set_option autoImplicit false

/-- `struct port_priority` without its hash node. -/
structure PortPriority where
  port : ℤ
  priority : ℤ
  deriving DecidableEq, Repr

structure PortRegistry (hash : ℤ → Fin 256) where
  portPriorityTable : ChainedTable hash PortPriority.port
  priorityInUse : TracedArray Bool

namespace PortRegistry
open ChainedTable

variable {hash : ℤ → Fin 256}

def empty : PortRegistry hash where
  portPriorityTable := .empty
  priorityInUse := .const false

/-- `get_port_priority`: the first entry of the port in its bucket, 0 when there is none. -/
def getPortPriority (r : PortRegistry hash) (port : ℤ) : ℤ :=
  match (r.portPriorityTable.chain (hash port)).find? (hasKey PortPriority.port port) with
  | some entry => entry.priority
  | none => 0

/-- `set_port_priority`; `allocated` says whether `kmalloc` returned an entry. -/
def setPortPriority (r : PortRegistry hash) (allocated : Bool) (priority port : ℤ) :
    PortRegistry hash :=
  if allocated then
    { portPriorityTable := r.portPriorityTable.hashAdd ⟨port, priority⟩
      priorityInUse :=
        if priority < 100 then r.priorityInUse.write priority true else r.priorityInUse }
  else r

/-- `remove_port_priority`: the scan over all buckets returns as soon as it has deleted an entry,
so the flag is only cleared when there was none. -/
def removePortPriority (r : PortRegistry hash) (port : ℤ) : PortRegistry hash :=
  let priority := r.getPortPriority port
  match r.portPriorityTable.deleteFirst (hasKey PortPriority.port port) with
  | some table => { r with portPriorityTable := table }
  | none =>
      if priority < 100 then
        { r with priorityInUse := r.priorityInUse.write priority false }
      else r

/-- The registrations of a port that were not removed, the newest first. -/
def entries (r : PortRegistry hash) (port : ℤ) : List PortPriority :=
  r.portPriorityTable.entriesFor port

/-! ## What each function does to the stacks and to the flags -/

theorem getPortPriority_eq (r : PortRegistry hash) (port : ℤ) :
    r.getPortPriority port = ((r.entries port).head?.map PortPriority.priority).getD 0 := by
  unfold getPortPriority entries
  rw [find_eq_head]
  cases (r.portPriorityTable.entriesFor port).head? <;> rfl

theorem getPortPriority_of_nil {r : PortRegistry hash} {port : ℤ} (h : r.entries port = []) :
    r.getPortPriority port = 0 := by
  rw [getPortPriority_eq, h]
  rfl

theorem getPortPriority_of_cons {r : PortRegistry hash} {port : ℤ} {e : PortPriority}
    {older : List PortPriority} (h : r.entries port = e :: older) :
    r.getPortPriority port = e.priority := by
  rw [getPortPriority_eq, h]
  rfl

theorem port_of_mem_entries {r : PortRegistry hash} {port : ℤ} {e : PortPriority}
    (h : e ∈ r.entries port) : e.port = port := (mem_entriesFor.mp h).2

@[simp] theorem entries_empty (port : ℤ) : (empty : PortRegistry hash).entries port = [] := rfl

theorem setPortPriority_false (r : PortRegistry hash) (priority port : ℤ) :
    r.setPortPriority false priority port = r := rfl

theorem entries_setPortPriority (r : PortRegistry hash) (priority port q : ℤ) :
    (r.setPortPriority true priority port).entries q =
      if port = q then ⟨port, priority⟩ :: r.entries q else r.entries q :=
  entriesFor_hashAdd r.portPriorityTable ⟨port, priority⟩ q

theorem inUse_setPortPriority (r : PortRegistry hash) (priority port : ℤ) :
    (r.setPortPriority true priority port).priorityInUse =
      if priority < 100 then r.priorityInUse.write priority true else r.priorityInUse := rfl

theorem removePortPriority_of_nil {r : PortRegistry hash} {port : ℤ} (h : r.entries port = []) :
    r.removePortPriority port = { r with priorityInUse := r.priorityInUse.write 0 false } := by
  have hdel : r.portPriorityTable.deleteFirst (hasKey PortPriority.port port) = none :=
    deleteFirst_eq_none.mpr h
  unfold removePortPriority
  rw [getPortPriority_of_nil h, hdel]
  rfl

theorem removePortPriority_of_ne_nil {r : PortRegistry hash} {port : ℤ}
    (h : r.entries port ≠ []) :
    ∃ table, r.removePortPriority port = { r with portPriorityTable := table } ∧
      ∀ q, table.entriesFor q = if q = port then (r.entries port).tail else r.entries q := by
  have hdel : r.portPriorityTable.deleteFirst (hasKey PortPriority.port port) ≠ none :=
    fun hn => h (deleteFirst_eq_none.mp hn)
  obtain ⟨table, htable⟩ := Option.ne_none_iff_exists'.mp hdel
  refine ⟨table, ?_, entriesFor_deleteFirst htable⟩
  unfold removePortPriority
  rw [htable]

theorem entries_removePortPriority (r : PortRegistry hash) (port q : ℤ) :
    (r.removePortPriority port).entries q =
      if q = port then (r.entries port).tail else r.entries q := by
  by_cases h : r.entries port = []
  · rw [removePortPriority_of_nil h]
    by_cases hq : q = port
    · subst hq
      rw [if_pos rfl, h]
      exact h
    · rw [if_neg hq]
      rfl
  · obtain ⟨table, heq, htable⟩ := removePortPriority_of_ne_nil h
    rw [heq]
    exact htable q

theorem inUse_removePortPriority (r : PortRegistry hash) (port : ℤ) :
    (r.removePortPriority port).priorityInUse =
      if r.entries port = [] then r.priorityInUse.write 0 false else r.priorityInUse := by
  by_cases h : r.entries port = []
  · rw [if_pos h, removePortPriority_of_nil h]
  · obtain ⟨table, heq, _⟩ := removePortPriority_of_ne_nil h
    rw [if_neg h, heq]

/-- No flag of a real-time priority is ever cleared by `remove_port_priority`. -/
theorem inUse_removePortPriority_cell (r : PortRegistry hash) (port : ℤ) {p : ℤ} (hp : p ≠ 0) :
    (r.removePortPriority port).priorityInUse.cell p = r.priorityInUse.cell p := by
  rw [inUse_removePortPriority]
  by_cases h : r.entries port = []
  · rw [if_pos h, TracedArray.write_cell_ne _ _ hp]
  · rw [if_neg h]

theorem inUse_setPortPriority_cell (r : PortRegistry hash) (allocated : Bool)
    (priority port : ℤ) {p : ℤ} (hp : r.priorityInUse.cell p = true) :
    (r.setPortPriority allocated priority port).priorityInUse.cell p = true := by
  cases allocated with
  | false => exact hp
  | true =>
    rw [inUse_setPortPriority]
    by_cases h : priority < 100
    · rw [if_pos h, TracedArray.write_cell, Function.update_apply]
      by_cases hpp : p = priority
      · rw [if_pos hpp]
      · rw [if_neg hpp]
        exact hp
    · rw [if_neg h]
      exact hp

/-! ## Entries of the whole table -/

theorem mem_toList_iff {r : PortRegistry hash} {e : PortPriority} :
    e ∈ r.portPriorityTable.toList ↔ e ∈ r.entries e.port := mem_toList

theorem exists_priority_iff {r : PortRegistry hash} {p : ℤ} :
    (∃ e ∈ r.portPriorityTable.toList, e.priority = p) ↔
      ∃ port, ∃ e ∈ r.entries port, e.priority = p := by
  constructor
  · rintro ⟨e, he, hp⟩
    exact ⟨e.port, e, mem_toList_iff.mp he, hp⟩
  · rintro ⟨port, e, he, hp⟩
    exact ⟨e, (mem_entriesFor.mp he).1, hp⟩

end PortRegistry

end CrosRt
