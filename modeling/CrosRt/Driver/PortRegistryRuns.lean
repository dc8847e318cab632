import CrosRt.Driver.PortRegistry

/-! # Whole histories of the port registry

Two readings of the registry are compared with what the code keeps. The flag array should be the
index of the table: a priority is in use exactly when an entry has it. And the table should be a
finite map: a port has the priority it was last given, none once it was removed. Neither holds of
every history, and each theorem says at which removals it breaks.
-/

namespace CrosRt
set_option autoImplicit false

inductive PortCall
  | set (priority port : ℤ)
  | remove (port : ℤ)
  deriving DecidableEq, Repr

namespace PortRegistry
open LabelledRuns

variable {hash : ℤ → Fin 256}

def call (r : PortRegistry hash) : PortCall → PortRegistry hash
  | .set priority port => r.setPortPriority true priority port
  | .remove port => r.removePortPriority port

def after (hash : ℤ → Fin 256) (calls : List PortCall) : PortRegistry hash :=
  calls.foldl call empty

@[simp] theorem after_concat (calls : List PortCall) (c : PortCall) :
    after hash (calls ++ [c]) = (after hash calls).call c := by
  rw [after, List.foldl_concat]
  rfl

/-- Where registering always keeps a property of the history and removing keeps it exactly when
`cond` holds, the property holds all along exactly when every removal meets `cond`. -/
theorem forall_prefix_iff_removals {P : List PortCall → Prop} {cond : List PortCall → ℤ → Prop}
    (h₀ : P [])
    (hset : ∀ pre priority port, P pre → P (pre ++ [.set priority port]))
    (hremove : ∀ pre port, P pre → (P (pre ++ [.remove port]) ↔ cond pre port))
    (calls : List PortCall) :
    (∀ pre, pre <+: calls → P pre) ↔
      ∀ pre port, pre ++ [.remove port] <+: calls → cond pre port := by
  have hstep : ∀ pre c, P pre →
      (P (pre ++ [c]) ↔ ∀ port, c = .remove port → cond pre port) := by
    intro pre c hgood
    cases c with
    | set priority port =>
      refine ⟨fun _ q hq => ?_, fun _ => hset pre priority port hgood⟩
      cases hq
    | remove port =>
      refine (hremove pre port hgood).trans ⟨fun hk q hq => ?_, fun hk => hk port rfl⟩
      obtain rfl : port = q := by injection hq
      exact hk
  rw [forall_prefix_iff h₀ hstep]
  constructor
  · intro h pre port hpre
    exact h pre (.remove port) hpre port rfl
  · intro h pre c hpre port hc
    exact h pre port (hc ▸ hpre)

/-! ## The flags as an index of the table -/

def FlagsExact (r : PortRegistry hash) : Prop :=
  ∀ p, 0 ≤ p → p ≤ 99 →
    (r.priorityInUse.cell p = true ↔ ∃ e ∈ r.portPriorityTable.toList, e.priority = p)

/-- The removal of `port` leaves the flags right: the entry it deletes shares its priority with
another one, or it deletes none and no entry has priority 0. -/
def RemovalKeepsFlags (r : PortRegistry hash) (port : ℤ) : Prop :=
  match r.entries port with
  | [] => ∀ e ∈ r.portPriorityTable.toList, e.priority ≠ 0
  | e :: older => 0 ≤ e.priority → e.priority ≤ 99 →
      (∃ e' ∈ older, e'.priority = e.priority) ∨
        ∃ e' ∈ r.portPriorityTable.toList, e'.port ≠ port ∧ e'.priority = e.priority

theorem flagsExact_empty : (empty : PortRegistry hash).FlagsExact := by
  intro p _ _
  rw [exists_priority_iff]
  simp [empty, entries]

theorem flagsExact_set {r : PortRegistry hash} (h : r.FlagsExact) (priority port : ℤ) :
    (r.setPortPriority true priority port).FlagsExact := by
  intro p h₀ h₉₉
  rw [exists_priority_iff, inUse_setPortPriority]
  by_cases hp : p = priority
  · subst hp
    rw [if_pos (by omega), TracedArray.write_cell_self]
    refine ⟨fun _ => ⟨port, ⟨port, p⟩, ?_, rfl⟩, fun _ => rfl⟩
    rw [entries_setPortPriority, if_pos rfl]
    exact List.mem_cons_self
  · have hcell : (if priority < 100 then r.priorityInUse.write priority true
        else r.priorityInUse).cell p = r.priorityInUse.cell p := by
      by_cases hlt : priority < 100
      · rw [if_pos hlt, TracedArray.write_cell_ne _ _ hp]
      · rw [if_neg hlt]
    rw [hcell, h p h₀ h₉₉, exists_priority_iff]
    -- The new entry has another priority, so it makes no difference to `p`.
    refine exists_congr fun q => ?_
    rw [entries_setPortPriority]
    by_cases hq : port = q
    · rw [if_pos hq]
      simp [Ne.symm hp]
    · rw [if_neg hq]

theorem flagsExact_remove_of_cons {r : PortRegistry hash} (h : r.FlagsExact) {port : ℤ}
    {e : PortPriority} {older : List PortPriority} (he : r.entries port = e :: older) :
    (r.removePortPriority port).FlagsExact ↔ r.RemovalKeepsFlags port := by
  have hinUse : (r.removePortPriority port).priorityInUse = r.priorityInUse := by
    rw [inUse_removePortPriority, if_neg (by rw [he]; exact List.cons_ne_nil e older)]
  have hentries : ∀ q, (r.removePortPriority port).entries q =
      if q = port then older else r.entries q := by
    intro q
    rw [entries_removePortPriority, he, List.tail_cons]
  have hleft : ∀ p, (∃ q, ∃ e' ∈ (r.removePortPriority port).entries q, e'.priority = p) ↔
      (∃ e' ∈ older, e'.priority = p) ∨
        ∃ e' ∈ r.portPriorityTable.toList, e'.port ≠ port ∧ e'.priority = p := by
    intro p
    constructor
    · rintro ⟨q, e', hmem, hp⟩
      rw [hentries] at hmem
      by_cases hq : q = port
      · rw [if_pos hq] at hmem
        exact Or.inl ⟨e', hmem, hp⟩
      · rw [if_neg hq] at hmem
        have hport := port_of_mem_entries hmem
        exact Or.inr ⟨e', mem_toList_iff.mpr (hport ▸ hmem), hport ▸ hq, hp⟩
    · rintro (⟨e', hmem, hp⟩ | ⟨e', hmem, hport, hp⟩)
      · exact ⟨port, e', by rw [hentries, if_pos rfl]; exact hmem, hp⟩
      · refine ⟨e'.port, e', ?_, hp⟩
        rw [hentries, if_neg hport]
        exact mem_toList_iff.mp hmem
  have holds : e ∈ r.portPriorityTable.toList := by
    have hmem : e ∈ r.entries port := he ▸ List.mem_cons_self
    exact mem_toList_iff.mpr (port_of_mem_entries hmem ▸ hmem)
  unfold RemovalKeepsFlags
  rw [he]
  constructor
  · intro hexact h₀ h₉₉
    rw [← hleft, ← exists_priority_iff, ← hexact _ h₀ h₉₉, hinUse]
    exact (h _ h₀ h₉₉).mpr ⟨e, holds, rfl⟩
  · intro hkeep p h₀ h₉₉
    rw [hinUse, h p h₀ h₉₉, exists_priority_iff, exists_priority_iff, hleft]
    constructor
    · rintro ⟨q, e', hmem, hp⟩
      by_cases hq : q = port
      · rw [hq, he, List.mem_cons] at hmem
        rcases hmem with rfl | hmem
        · rw [← hp] at h₀ h₉₉ ⊢
          exact hkeep h₀ h₉₉
        · exact Or.inl ⟨e', hmem, hp⟩
      · have hport := port_of_mem_entries hmem
        exact Or.inr ⟨e', mem_toList_iff.mpr (hport ▸ hmem), hport ▸ hq, hp⟩
    · rintro (⟨e', hmem, hp⟩ | ⟨e', hmem, _, hp⟩)
      · exact ⟨port, e', he ▸ List.mem_cons_of_mem e hmem, hp⟩
      · exact ⟨e'.port, e', mem_toList_iff.mp hmem, hp⟩

theorem flagsExact_remove_of_nil {r : PortRegistry hash} (h : r.FlagsExact) {port : ℤ}
    (he : r.entries port = []) :
    (r.removePortPriority port).FlagsExact ↔ r.RemovalKeepsFlags port := by
  unfold RemovalKeepsFlags
  rw [he, removePortPriority_of_nil he]
  constructor
  · intro hexact e hmem hp
    have hcell := (hexact 0 (le_refl 0) (by omega)).mpr ⟨e, hmem, hp⟩
    simp at hcell
  · intro hnone p h₀ h₉₉
    by_cases hp : p = 0
    · subst hp
      constructor
      · intro hcell
        simp at hcell
      · rintro ⟨e, hmem, hp⟩
        exact absurd hp (hnone e hmem)
    · rw [TracedArray.write_cell_ne _ _ hp]
      exact h p h₀ h₉₉

/-- **Exactness of the flags.** After every prefix of a history each flag says whether its
priority occurs in the table if and only if every removal deletes an entry whose priority another
one shares, or deletes none while no entry has priority 0. -/
theorem flagsExact_iff (hash : ℤ → Fin 256) (calls : List PortCall) :
    (∀ pre, pre <+: calls → (after hash pre).FlagsExact) ↔
      ∀ pre port, pre ++ [.remove port] <+: calls → (after hash pre).RemovalKeepsFlags port := by
  refine forall_prefix_iff_removals (P := fun pre => (after hash pre).FlagsExact)
    flagsExact_empty ?_ ?_ calls
  · intro pre priority port hgood
    rw [after_concat]
    exact flagsExact_set hgood priority port
  · intro pre port hgood
    rw [after_concat]
    cases he : (after hash pre).entries port with
    | nil => exact flagsExact_remove_of_nil hgood he
    | cons e older => exact flagsExact_remove_of_cons hgood he

theorem flagsExact_fails_after_removal :
    ¬ (after Kernel.hashMin [.set 5 7411, .remove 7411]).FlagsExact := by
  intro h
  have hflag := (h 5 (by omega) (by omega)).mp (by decide)
  rw [exists_priority_iff] at hflag
  obtain ⟨port, e, he, _⟩ := hflag
  have hnone : ∀ q, (after Kernel.hashMin [.set 5 7411, .remove 7411]).entries q = [] := by
    intro q
    simp only [after, List.foldl_cons, List.foldl_nil, call, entries_removePortPriority,
      entries_setPortPriority, entries_empty]
    by_cases hq : q = 7411
    · simp [hq]
    · simp [hq, Ne.symm hq]
  rw [hnone] at he
  cases he

/-! ## The table as a finite map -/

def mapCall (m : ℤ → Option ℤ) : PortCall → ℤ → Option ℤ
  | .set priority port => Function.update m port (some priority)
  | .remove port => Function.update m port none

/-- The finite map a history describes: the priority a port was last given, none once the port was
removed after that. -/
def registered (calls : List PortCall) : ℤ → Option ℤ := calls.foldl mapCall fun _ => none

@[simp] theorem registered_concat (calls : List PortCall) (c : PortCall) :
    registered (calls ++ [c]) = mapCall (registered calls) c := by
  rw [registered, List.foldl_concat]
  rfl

/-- `get_port_priority` answers as the finite map does, 0 standing for no priority. -/
def Refines (r : PortRegistry hash) (m : ℤ → Option ℤ) : Prop :=
  ∀ port, r.getPortPriority port = (m port).getD 0

/-- Under the newest registration of the port there is none, or one of priority 0. -/
def NothingUnder (r : PortRegistry hash) (port : ℤ) : Prop :=
  ∀ e older, (r.entries port).tail = e :: older → e.priority = 0

theorem refines_set {r : PortRegistry hash} {m : ℤ → Option ℤ} (h : r.Refines m)
    (priority port : ℤ) :
    (r.setPortPriority true priority port).Refines (mapCall m (.set priority port)) := by
  intro q
  rw [getPortPriority_eq, entries_setPortPriority, mapCall, Function.update_apply]
  by_cases hq : port = q
  · rw [if_pos hq, if_pos hq.symm]
    rfl
  · rw [if_neg hq, if_neg (Ne.symm hq), ← getPortPriority_eq]
    exact h q

theorem refines_remove_iff {r : PortRegistry hash} {m : ℤ → Option ℤ} (h : r.Refines m)
    (port : ℤ) :
    (r.removePortPriority port).Refines (mapCall m (.remove port)) ↔ r.NothingUnder port := by
  have hself : (r.removePortPriority port).getPortPriority port =
      ((r.entries port).tail.head?.map PortPriority.priority).getD 0 := by
    rw [getPortPriority_eq, entries_removePortPriority, if_pos rfl]
  constructor
  · intro href e older htail
    have hport := href port
    rw [hself, htail, mapCall, Function.update_self] at hport
    exact hport
  · intro hunder q
    rw [mapCall, Function.update_apply]
    by_cases hq : q = port
    · rw [if_pos hq, hq, hself]
      cases htail : (r.entries port).tail with
      | nil => rfl
      | cons e older => exact hunder e older htail
    · rw [if_neg hq, getPortPriority_eq, entries_removePortPriority, if_neg hq,
        ← getPortPriority_eq]
      exact h q

/-- **Refinement of the finite map.** After every prefix of a history `get_port_priority` gives
every port the priority it was last given and 0 once it was removed, if and only if no removal
uncovers an older registration with a priority other than 0. -/
theorem refines_iff (hash : ℤ → Fin 256) (calls : List PortCall) :
    (∀ pre, pre <+: calls → (after hash pre).Refines (registered pre)) ↔
      ∀ pre port, pre ++ [.remove port] <+: calls → (after hash pre).NothingUnder port := by
  refine forall_prefix_iff_removals
    (P := fun pre => (after hash pre).Refines (registered pre)) (fun _ => rfl) ?_ ?_ calls
  · intro pre priority port hgood
    rw [after_concat, registered_concat]
    exact refines_set hgood priority port
  · intro pre port hgood
    rw [after_concat, registered_concat]
    exact refines_remove_iff hgood port

/-- A port registered twice is still classified after its removal. -/
theorem refines_fails_after_reregistration :
    ¬ (after Kernel.hashMin [.set 5 7411, .set 7 7411, .remove 7411]).Refines
      (registered [.set 5 7411, .set 7 7411, .remove 7411]) := by
  intro h
  exact absurd (h 7411) (by decide)

end PortRegistry

end CrosRt
