import CrosRt.Driver.RtService

/-! # Indices into the two arrays of 100

`priority_in_use` and `priority_queue.queue` are declared with 100 elements. Opening the interface
runs `priority_queue_init`, whose loop goes to `i < 101`; afterwards the two system calls of
`priority_identifier.c` and `rt_poll` use the arrays. `set_port_priority` guards its write with
`priority < 100` only, and `connect_pp_syscall` passes its arguments on unchecked.
-/

namespace CrosRt
set_option autoImplicit false

/-- What user space and the real-time handler do to an open interface. `found` is the outcome of
`napi_by_id` in the dispatch, `allocated` that of `kmalloc`. -/
inductive OpenEvent
  | connect (found allocated : Bool) (priority port : ℤ)
  | disconnect (found : Bool) (port : ℤ)
  | poll
  deriving DecidableEq, Repr

/-- If the event registers a port, its priority is not negative. -/
def OpenEvent.Nonneg : OpenEvent → Prop
  | .connect found allocated priority port =>
      found = true → allocated = true → port.tmod 2 = 1 → 0 ≤ priority
  | _ => True

/-! ## The indices one operation uses -/

section Operations
variable {F : Type*}

theorem priorityQueueInit_used (pq : PriorityQueue F) :
    (priorityQueueInit pq).used = pq.used ++ (List.range 101).map fun i : ℕ => (i : ℤ) := by
  have h : ∀ (l : List ℕ) (a : PriorityQueue F),
      (l.foldl (fun (a : PriorityQueue F) (i : ℕ) => a.write i []) a).used =
        a.used ++ l.map fun i : ℕ => (i : ℤ) := by
    intro l
    induction l with
    | nil => intro a; simp
    | cons i l ih => intro a; simp [ih]
  exact h _ pq

theorem priorityQueueRemove_used (pq : PriorityQueue F) (p : ℤ) :
    ∃ is, (priorityQueueRemove pq p).2.used = pq.used ++ is ∧ ∀ i ∈ is, i = p := by
  unfold priorityQueueRemove
  cases pq.cell p with
  | nil => exact ⟨[p], rfl, fun i hi => List.mem_singleton.mp hi⟩
  | cons skb rest =>
    refine ⟨[p, p], by simp, fun i hi => ?_⟩
    simpa using hi

theorem rtPoll_pq_used (s : RtQueues F) :
    ∃ is, (rtPoll s).state.pq.used = s.pq.used ++ is ∧ ∀ i ∈ is, i = s.highestPri := by
  have hdrain : ∃ is, (rtDrain s).2.used = s.pq.used ++ is ∧ ∀ i ∈ is, i = s.highestPri := by
    refine drain_invariant
      (P := fun pq => ∃ is, pq.used = s.pq.used ++ is ∧ ∀ i ∈ is, i = s.highestPri)
      ?_ _ s.pq ⟨[], by simp, fun i hi => absurd hi List.not_mem_nil⟩
    rintro pq ⟨is, hused, his⟩
    obtain ⟨js, hmore, hjs⟩ := priorityQueueRemove_used pq s.highestPri
    refine ⟨is ++ js, by rw [hmore, hused, List.append_assoc], ?_⟩
    exact List.forall_mem_append.mpr ⟨his, hjs⟩
  obtain ⟨is, hused, his⟩ := hdrain
  refine ⟨is ++ [s.highestPri], ?_, ?_⟩
  · rw [rtPoll_pq, TracedArray.touch_used, hused, List.append_assoc]
  · refine List.forall_mem_append.mpr ⟨his, fun i hi => List.mem_singleton.mp hi⟩

theorem rtPoll_inUse_of_lt (s : RtQueues F) (h : s.highestPri < 2) :
    (rtPoll s).state.priorityInUse = s.priorityInUse := by
  rw [rtPoll_eq, if_pos h]

variable {hash : ℤ → Fin 256}

theorem inBounds_setPortPriority (r : PortRegistry hash) (allocated : Bool) (priority port : ℤ) :
    (r.setPortPriority allocated priority port).priorityInUse.InBounds 100 ↔
      r.priorityInUse.InBounds 100 ∧ (allocated = true → 0 ≤ priority) := by
  cases allocated with
  | false => simp [PortRegistry.setPortPriority_false]
  | true =>
    rw [PortRegistry.inUse_setPortPriority]
    by_cases h : priority < 100
    · rw [if_pos h, TracedArray.inBounds_write]
      simp [h]
    · rw [if_neg h]
      have : 0 ≤ priority := by omega
      simp [this]

theorem inBounds_removePortPriority (r : PortRegistry hash) (port : ℤ) :
    (r.removePortPriority port).priorityInUse.InBounds 100 ↔ r.priorityInUse.InBounds 100 := by
  rw [PortRegistry.inUse_removePortPriority]
  by_cases h : r.entries port = []
  · rw [if_pos h, TracedArray.inBounds_write]
    simp
  · rw [if_neg h]

end Operations

/-! ## Runs of an open interface -/

namespace RtService

variable {hash : ℤ → Fin 256} {F : Type*}

/-- `connect_pp_syscall`: a port is passed on when `port % 2 == 1`. -/
def connectPpSyscall (s : RtService hash F) (found allocated : Bool) (priority port : ℤ) :
    RtService hash F :=
  if port.tmod 2 = 1 then
    if found then { s with registry := s.registry.setPortPriority allocated priority port } else s
  else s

def disconnectPpSyscall (s : RtService hash F) (found : Bool) (port : ℤ) : RtService hash F :=
  if found then { s with registry := s.registry.removePortPriority port } else s

def openStep (s : RtService hash F) : OpenEvent → RtService hash F
  | .connect found allocated priority port => s.connectPpSyscall found allocated priority port
  | .disconnect found port => s.disconnectPpSyscall found port
  | .poll => s.afterPoll

def opened (memory : ℤ → List (RtFrame F)) : RtService hash F :=
  { (init : RtService hash F) with pq := priorityQueueInit ⟨memory, []⟩ }

def afterOpen (hash : ℤ → Fin 256) (memory : ℤ → List (RtFrame F)) (es : List OpenEvent) :
    RtService hash F := es.foldl openStep (opened memory)

def IndicesInBounds (s : RtService hash F) : Prop :=
  s.registry.priorityInUse.InBounds 100 ∧ s.pq.InBounds 100

/-- The same without the indices that `priority_queue_init` used first. -/
def LaterIndicesInBounds (s : RtService hash F) : Prop :=
  s.registry.priorityInUse.InBounds 100 ∧ ∀ i ∈ s.pq.used.drop 101, 0 ≤ i ∧ i < 100

/-- Without arrivals `highest_pri` stays 1, the queues are only used at index 1, and the flags are
used below the array exactly when a negative priority is registered. -/
structure OpenRun (s : RtService hash F) (es : List OpenEvent) : Prop where
  highest : s.highestPri = 1
  queueUsed : ∃ is, s.pq.used = ((List.range 101).map fun i : ℕ => (i : ℤ)) ++ is ∧ ∀ i ∈ is, i = 1
  flagsUsed : s.registry.priorityInUse.InBounds 100 ↔ ∀ e ∈ es, e.Nonneg

theorem openRun_opened (memory : ℤ → List (RtFrame F)) :
    OpenRun (opened memory : RtService hash F) [] where
  highest := rfl
  queueUsed := ⟨[], by rw [opened, priorityQueueInit_used]; simp,
    fun _ hi => absurd hi List.not_mem_nil⟩
  flagsUsed := by
    constructor
    · exact fun _ _ he => absurd he List.not_mem_nil
    · exact fun _ => TracedArray.inBounds_const 100 false

theorem openRun_step {s : RtService hash F} {es : List OpenEvent} (h : OpenRun s es)
    (e : OpenEvent) : OpenRun (openStep s e) (es ++ [e]) := by
  -- A step that leaves the queues alone is judged by the flags it uses.
  have hregistry : ∀ r : PortRegistry hash,
      (r.priorityInUse.InBounds 100 ↔ s.registry.priorityInUse.InBounds 100 ∧ e.Nonneg) →
      OpenRun { s with registry := r } (es ++ [e]) := by
    intro r hr
    refine ⟨h.highest, h.queueUsed, ?_⟩
    rw [hr, h.flagsUsed, List.forall_mem_append, List.forall_mem_singleton]
  cases e with
  | connect found allocated priority port =>
    simp only [openStep, connectPpSyscall]
    by_cases hodd : port.tmod 2 = 1
    · rw [if_pos hodd]
      cases found with
      | false => exact hregistry s.registry (by simp [OpenEvent.Nonneg])
      | true =>
        refine hregistry _ ?_
        rw [inBounds_setPortPriority]
        simp [OpenEvent.Nonneg, hodd]
    · rw [if_neg hodd]
      exact hregistry s.registry (by simp [OpenEvent.Nonneg, hodd])
  | disconnect found port =>
    simp only [openStep, disconnectPpSyscall]
    cases found with
    | false => exact hregistry s.registry (by simp [OpenEvent.Nonneg])
    | true =>
      refine hregistry _ ?_
      rw [inBounds_removePortPriority]
      simp [OpenEvent.Nonneg]
  | poll =>
    have hlow : s.queues.highestPri < 2 := by
      change s.highestPri < 2
      rw [h.highest]
      decide
    obtain ⟨is, hused, his⟩ := h.queueUsed
    obtain ⟨js, hmore, hjs⟩ := rtPoll_pq_used s.queues
    refine ⟨rtPoll_highest_of_lt s.queues hlow, ⟨is ++ js, ?_, ?_⟩, ?_⟩
    · change (rtPoll s.queues).state.pq.used = _
      rw [hmore]
      change s.pq.used ++ js = _
      rw [hused, List.append_assoc]
    · refine List.forall_mem_append.mpr ⟨his, fun i hi => ?_⟩
      exact (hjs i hi).trans h.highest
    · change (rtPoll s.queues).state.priorityInUse.InBounds 100 ↔ _
      rw [rtPoll_inUse_of_lt s.queues hlow, List.forall_mem_append, List.forall_mem_singleton]
      exact h.flagsUsed.trans ⟨fun hall => ⟨hall, trivial⟩, fun hall => hall.1⟩

theorem openRun_afterOpen (hash : ℤ → Fin 256) (memory : ℤ → List (RtFrame F))
    (es : List OpenEvent) : OpenRun (afterOpen hash memory es) es := by
  induction es using List.reverseRecOn with
  | nil => exact openRun_opened memory
  | append_singleton es e ih =>
    rw [afterOpen, List.foldl_concat]
    exact openRun_step ih e

theorem hundred_mem_used (hash : ℤ → Fin 256) (memory : ℤ → List (RtFrame F))
    (es : List OpenEvent) : 100 ∈ (afterOpen hash memory es).pq.used := by
  obtain ⟨is, hused, _⟩ := (openRun_afterOpen hash memory es).queueUsed
  rw [hused, List.mem_append, List.mem_map]
  exact Or.inl ⟨100, List.mem_range.mpr (by decide), rfl⟩

/-- **No run stays within the arrays**: `priority_queue_init` writes `queue[100]`. Apart from that
index every use is in bounds exactly when no port is registered with a negative priority. -/
theorem indices_never_inBounds (hash : ℤ → Fin 256) (memory : ℤ → List (RtFrame F))
    (es : List OpenEvent) :
    ¬ (afterOpen hash memory es).IndicesInBounds ∧
      ((afterOpen hash memory es).LaterIndicesInBounds ↔ ∀ e ∈ es, e.Nonneg) := by
  obtain ⟨_, ⟨is, hused, his⟩, hflags⟩ := openRun_afterOpen hash memory es
  constructor
  · rintro ⟨_, hqueue⟩
    have := hqueue 100 (hundred_mem_used hash memory es)
    omega
  · have hdrop : (afterOpen hash memory es).pq.used.drop 101 = is := by
      rw [hused]
      exact List.drop_left' (by simp)
    rw [LaterIndicesInBounds, hdrop, and_iff_left, hflags]
    intro i hi
    rw [his i hi]
    omega

/-- One registration with a negative priority: the flags are used at -1, and the queues have been
used at 100. -/
theorem indices_out_of_bounds :
    ¬ (afterOpen Kernel.hashMin (F := ℕ) (fun _ => [])
      [.connect true true (-1) 7411]).IndicesInBounds ∧
    100 ∈ (afterOpen Kernel.hashMin (F := ℕ) (fun _ => [])
      [.connect true true (-1) 7411]).pq.used ∧
    -1 ∈ (afterOpen Kernel.hashMin (F := ℕ) (fun _ => [])
      [.connect true true (-1) 7411]).registry.priorityInUse.used := by
  refine ⟨fun h => ?_, hundred_mem_used _ _ _, by decide⟩
  have := h.2 100 (hundred_mem_used _ _ _)
  omega

end RtService

end CrosRt
