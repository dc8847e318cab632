import CrosRt.NetCore.Backlog

/-! # The length of a backlog

A CPU holds at most `netdev_max_backlog + 1` frames on its input queue, and as many again that
`process_backlog` has taken over and not finished.
-/

namespace CrosRt
set_option autoImplicit false

open LabelledRuns

namespace NetRxPc
variable {n : ℕ} {Skb R : Type}

/-- The frame taken from the queue and not yet delivered. -/
def inHand : NetRxPc n Skb R → List (BacklogSkb Skb R)
  | .receive x _ => [x]
  | _ => []

/-- The frames delivered that `input_queue_head` has not counted. -/
def owed : NetRxPc n Skb R → ℕ
  | .headIncr _ => 1
  | _ => 0

end NetRxPc

namespace Backlogs
variable {n : ℕ} {Skb R : Type}

/-! ## One CPU changes -/

section Changes
variable (s : Backlogs n Skb R) (c : Fin n)

@[simp] theorem modify_sd_self (f : SoftnetData n Skb R → SoftnetData n Skb R) :
    (s.modify c f).sd c = f (s.sd c) := Function.update_self ..

@[simp] theorem modify_netRx (f : SoftnetData n Skb R → SoftnetData n Skb R) :
    (s.modify c f).netRx = s.netRx := rfl

@[simp] theorem goto_netRx_self (pc : NetRxPc n Skb R) : (s.goto c pc).netRx c = pc :=
  Function.update_self ..

@[simp] theorem goto_sd (pc : NetRxPc n Skb R) : (s.goto c pc).sd = s.sd := rfl

theorem modify_sd_of_ne {d : Fin n} (h : d ≠ c) (f : SoftnetData n Skb R → SoftnetData n Skb R) :
    (s.modify c f).sd d = s.sd d := Function.update_of_ne h ..

theorem goto_netRx_of_ne {d : Fin n} (h : d ≠ c) (pc : NetRxPc n Skb R) :
    (s.goto c pc).netRx d = s.netRx d := Function.update_of_ne h ..

theorem napiSchedule_sd : (s.napiSchedule c).sd =
    (s.modify c fun sd => { sd with linked := sd.linked ++ [.pollList] }).sd := rfl

theorem rpsIpiQueued_sd (here cpu : Fin n) : (s.rpsIpiQueued here cpu).sd =
    (s.modify here fun sd => { sd with rpsIpiList := cpu :: sd.rpsIpiList }).sd := rfl

end Changes

/-! ## The bound -/

def BoundedCpu (cfg : RpsConfig n Skb R) (sd : SoftnetData n Skb R) (pc : NetRxPc n Skb R) :
    Prop :=
  sd.inputPktQueue.length ≤ cfg.netdevMaxBacklog + 1 ∧
    pc.inHand.length + pc.owed + sd.processQueue.length ≤ cfg.netdevMaxBacklog + 1 ∧
    ∀ work, pc = .refill work → sd.processQueue = []

def Bounded (cfg : RpsConfig n Skb R) (s : Backlogs n Skb R) : Prop :=
  ∀ c, BoundedCpu cfg (s.sd c) (s.netRx c)

variable {cfg : RpsConfig n Skb R} {s t : Backlogs n Skb R} {c : Fin n}

theorem bounded_init (limits : Fin n → Option FlowLimit) :
    Bounded cfg (init limits : Backlogs n Skb R) :=
  fun _ => ⟨Nat.zero_le _, Nat.zero_le _, nofun⟩

theorem Bounded.modify (h : Bounded cfg s) {f : SoftnetData n Skb R → SoftnetData n Skb R}
    (hf : BoundedCpu cfg (f (s.sd c)) (s.netRx c)) : Bounded cfg (s.modify c f) := by
  intro d
  by_cases hd : d = c
  · subst hd
    rwa [modify_sd_self]
  · rw [modify_sd_of_ne s c hd]
    exact h d

theorem Bounded.goto (h : Bounded cfg s) {p : NetRxPc n Skb R}
    (hp : BoundedCpu cfg (s.sd c) p) : Bounded cfg (s.goto c p) := by
  intro d
  by_cases hd : d = c
  · subst hd
    rwa [goto_netRx_self]
  · rw [goto_netRx_of_ne s c hd]
    exact h d

theorem Bounded.modify_goto (h : Bounded cfg s) {f : SoftnetData n Skb R → SoftnetData n Skb R}
    {p : NetRxPc n Skb R} (hf : BoundedCpu cfg (f (s.sd c)) p) :
    Bounded cfg ((s.modify c f).goto c p) := by
  intro d
  by_cases hd : d = c
  · subst hd
    rwa [goto_netRx_self, goto_sd, modify_sd_self]
  · rw [goto_netRx_of_ne _ c hd, goto_sd, modify_sd_of_ne s c hd]
    exact h d

theorem Bounded.drop (h : Bounded cfg s) : Bounded cfg (s.drop c) := h.modify (h c)

theorem Bounded.napiSchedule (h : Bounded cfg s) : Bounded cfg (s.napiSchedule c) :=
  h.modify (c := c) (f := fun sd => { sd with linked := sd.linked ++ [.pollList] }) (h c)

theorem Bounded.wake (h : Bounded cfg s) (here cpu : Fin n) : Bounded cfg (s.wake here cpu) := by
  unfold Backlogs.wake
  split
  · exact h
  · have h₁ : Bounded cfg (s.modify cpu fun sd => { sd with sched := true }) := h.modify (h cpu)
    dsimp only
    split
    · exact h₁.modify (c := here) (f := fun sd => { sd with rpsIpiList := cpu :: sd.rpsIpiList })
        (h₁ here)
    · exact h₁.napiSchedule

section Enqueueing

theorem input_modify (s : Backlogs n Skb R) (c d : Fin n)
    {f : SoftnetData n Skb R → SoftnetData n Skb R}
    (hf : ∀ sd, (f sd).inputPktQueue = sd.inputPktQueue) :
    ((s.modify c f).sd d).inputPktQueue = (s.sd d).inputPktQueue := by
  by_cases hd : d = c
  · subst hd
    rw [modify_sd_self, hf]
  · rw [modify_sd_of_ne s c hd]

theorem input_wake (s : Backlogs n Skb R) (here cpu d : Fin n) :
    ((s.wake here cpu).sd d).inputPktQueue = (s.sd d).inputPktQueue := by
  unfold Backlogs.wake
  split
  · rfl
  · have h₁ := s.input_modify cpu d (f := fun sd => { sd with sched := true }) fun _ => rfl
    dsimp only
    split
    · refine Eq.trans ?_ h₁
      exact input_modify _ here d (f := fun sd => { sd with rpsIpiList := cpu :: sd.rpsIpiList })
        fun _ => rfl
    · refine Eq.trans ?_ h₁
      exact input_modify _ cpu d (f := fun sd => { sd with linked := sd.linked ++ [.pollList] })
        fun _ => rfl

variable [DecidableEq R]

theorem Bounded.queueTail (h : Bounded cfg s) {x : BacklogSkb Skb R}
    (hroom : (s.sd c).inputPktQueue.length ≤ cfg.netdevMaxBacklog) :
    Bounded cfg (s.queueTail c x) := by
  have hx : BoundedCpu cfg { s.sd c with inputPktQueue := (s.sd c).inputPktQueue ++ [x] }
      (s.netRx c) := by
    refine ⟨?_, (h c).2⟩
    rw [List.length_append, List.length_singleton]
    exact Nat.succ_le_succ hroom
  have h₁ := h.modify (f := fun sd => { sd with inputPktQueue := sd.inputPktQueue ++ [x] }) hx
  have h₂ := h₁.modify (c := c) (f := fun sd => { sd with
    inputQueueTail := (s.sd c).inputQueueTail + 1 }) (h₁ c)
  unfold Backlogs.queueTail tailIncrSave
  dsimp only
  rw [modify_sd_self]
  obtain ⟨skb, rflow⟩ := x
  cases rflow with
  | none => exact h₂
  | some e => exact h₂

theorem Bounded.enqueueToBacklog (h : Bounded cfg s) (here cpu : Fin n) (x : BacklogSkb Skb R)
    (running : Bool) : Bounded cfg (s.enqueueToBacklog cfg here cpu x running) := by
  unfold Backlogs.enqueueToBacklog
  dsimp only
  split
  · split
    · rename_i hroom
      generalize skbFlowLimit cfg.netdevMaxBacklog (s.sd here).flowLimit (cfg.hash x.skb)
        (s.sd cpu).inputPktQueue.length = limited
      have hlim : Bounded cfg (s.modify here fun sd => { sd with flowLimit := limited.2 }) :=
        h.modify (h here)
      have hlen := s.input_modify here cpu (f := fun sd => { sd with flowLimit := limited.2 })
        fun _ => rfl
      split
      · exact hlim.drop
      · split
        · refine (hlim.wake here cpu).queueTail ?_
          rwa [input_wake, hlen]
        · refine hlim.queueTail ?_
          rwa [hlen]
    · exact h.drop
  · exact h.drop

end Enqueueing

/-! ## The softirq -/

theorem Bounded.pollReturns (h : Bounded cfg s)
    (hloop : BoundedCpu cfg (s.sd c) (.loop : NetRxPc n Skb R)) (work : ℕ) :
    Bounded cfg (s.pollReturns cfg c work) := by
  unfold Backlogs.pollReturns
  split
  · exact h.goto hloop
  · exact h.modify_goto (f := fun sd => { sd with linked := sd.linked ++ [.repoll] }) hloop

/-- A statement that leaves the queues alone and holds no frame, or one that held none. -/
theorem BoundedCpu.of_empty {sd : SoftnetData n Skb R} {pc pc' : NetRxPc n Skb R}
    (h : BoundedCpu cfg sd pc) (hhand : pc'.inHand = []) (howed : pc'.owed = 0)
    (hrefill : ∀ work, pc' ≠ .refill work) : BoundedCpu cfg sd pc' := by
  refine ⟨h.1, ?_, fun work he => absurd he (hrefill work)⟩
  have := h.2.1
  rw [hhand, howed, List.length_nil]
  omega

theorem Bounded.netRxStep (h : Bounded cfg s) (hst : s.netRxStep cfg c = some t) :
    Bounded cfg t := by
  have hc := h c
  unfold Backlogs.netRxStep at hst
  split at hst
  case h_1 | h_2 => cases hst
  case h_3 hpc =>
    split at hst
    · obtain rfl := Option.some.inj hst
      exact h.goto (hc.of_empty rfl rfl nofun)
    · obtain rfl := Option.some.inj hst
      exact h.modify_goto (f := fun sd => { sd with rpsIpiList := [] }) (hc.of_empty rfl rfl nofun)
  case h_4 remsd next polling hpc =>
    obtain rfl := Option.some.inj hst
    have hsend : Bounded cfg (s.sendIpi cfg remsd) ∧
        (s.sendIpi cfg remsd).sd = s.sd := by
      unfold Backlogs.sendIpi
      split <;> exact ⟨h, rfl⟩
    refine hsend.1.goto ?_
    rw [hsend.2]
    exact hc.of_empty rfl rfl nofun
  case h_5 polling hpc =>
    obtain rfl := Option.some.inj hst
    refine h.goto (hc.of_empty ?_ ?_ ?_) <;> cases polling <;> first | rfl | nofun
  case h_6 work hpc =>
    rw [hpc] at hc
    split at hst
    · rename_i x rest hq
      obtain rfl := Option.some.inj hst
      refine h.modify_goto (f := fun sd => { sd with processQueue := rest }) ⟨hc.1, ?_, nofun⟩
      have := hc.2.1
      rw [hq] at this
      simpa [NetRxPc.inHand, NetRxPc.owed, Nat.add_comm] using this
    · rename_i hq
      obtain rfl := Option.some.inj hst
      exact h.goto ⟨hc.1, hc.2.1, fun _ _ => hq⟩
  case h_7 x work hpc =>
    rw [hpc] at hc
    obtain rfl := Option.some.inj hst
    have := hc.2.1
    exact h.goto (p := .headIncr work) ⟨hc.1, this, nofun⟩
  case h_8 work hpc =>
    have hhead : ∀ pc : NetRxPc n Skb R, pc.inHand = [] → pc.owed = 0 →
        (∀ work, pc ≠ .refill work) →
        BoundedCpu cfg { s.sd c with inputQueueHead := (s.sd c).inputQueueHead + 1 } pc :=
      fun pc hhand howed hrefill => hc.of_empty hhand howed hrefill
    have h₁ : Bounded cfg (s.modify c fun sd => { sd with
        inputQueueHead := sd.inputQueueHead + 1 }) := h.modify hc
    dsimp only at hst
    split at hst
    · obtain rfl := Option.some.inj hst
      refine h₁.pollReturns ?_ _
      rw [modify_sd_self]
      exact hhead .loop rfl rfl nofun
    · obtain rfl := Option.some.inj hst
      exact h.modify_goto (hhead (.dequeue (work + 1)) rfl rfl nofun)
  case h_9 work hpc =>
    split at hst
    · obtain rfl := Option.some.inj hst
      have h₁ : Bounded cfg (s.modify c fun sd => { sd with sched := false }) := h.modify hc
      refine h₁.pollReturns ?_ _
      rw [modify_sd_self]
      exact hc.of_empty rfl rfl nofun
    · obtain rfl := Option.some.inj hst
      rw [hpc] at hc
      refine h.modify_goto (f := fun sd => { sd with
        processQueue := sd.processQueue ++ sd.inputPktQueue
        inputPktQueue := [] }) ⟨Nat.zero_le _, ?_, nofun⟩
      -- All of the input queue moves, and nothing was left to process.
      have := hc.1
      rw [hc.2.2 work rfl]
      simpa [NetRxPc.inHand, NetRxPc.owed] using this
  case h_10 unregistering hpc =>
    obtain rfl := Option.some.inj hst
    rw [hpc] at hc
    have hle := List.length_filter_le (fun x => !unregistering x.skb) (s.sd c).processQueue
    refine h.modify_goto (c := c) (f := fun sd => { sd with
      processQueue := sd.processQueue.filter fun x => !unregistering x.skb
      inputQueueHead := sd.inputQueueHead + BitVec.ofNat 32
        ((s.sd c).processQueue.filter fun x => unregistering x.skb).length })
      (p := .idle) ⟨hc.1, ?_, nofun⟩
    exact (Nat.add_le_add_left hle _).trans hc.2.1

theorem Bounded.flush (h : Bounded cfg s) (hpc : s.netRx c = .idle) (unregistering : Skb → Bool) :
    Bounded cfg (s.flush c unregistering) := by
  have hc := h c
  rw [hpc] at hc
  have hle := List.length_filter_le (fun x => !unregistering x.skb) (s.sd c).inputPktQueue
  exact h.modify_goto (c := c) (f := fun sd => { sd with
    inputPktQueue := sd.inputPktQueue.filter fun x => !unregistering x.skb
    inputQueueHead := sd.inputQueueHead + BitVec.ofNat 32
      ((s.sd c).inputPktQueue.filter fun x => unregistering x.skb).length })
    (p := .flushProcess unregistering) ⟨hle.trans hc.1, hc.2.1, nofun⟩

theorem Bounded.step [DecidableEq R] (h : Bounded cfg s) {e : BacklogEvent n Skb R}
    (hst : step cfg s e = some t) : Bounded cfg t := by
  cases e with
  | steer r skb ident map =>
    dsimp only [Backlogs.step] at hst
    split at hst
    · cases hst
    · split at hst <;> (obtain rfl := Option.some.inj hst; exact h)
  | enqueue r here running =>
    dsimp only [Backlogs.step] at hst
    split at hst
    · cases hst
    · obtain rfl := Option.some.inj hst
      exact h.enqueueToBacklog here _ _ running
  | netifRx here cpu skb running =>
    dsimp only [Backlogs.step] at hst
    rw [Option.ite_none_right_eq_some] at hst
    obtain rfl := Option.some.inj hst.2
    exact h.enqueueToBacklog here cpu ⟨skb, none⟩ running
  | ipi c =>
    dsimp only [Backlogs.step] at hst
    rw [Option.ite_none_right_eq_some] at hst
    obtain rfl := Option.some.inj hst.2
    have h₁ := h.napiSchedule (c := c)
    exact h₁.modify (c := c) (f := fun sd => { sd with receivedRps := sd.receivedRps + 1 }) (h₁ c)
  | raise c =>
    obtain rfl := Option.some.inj hst
    exact h
  | softirq c =>
    dsimp only [Backlogs.step] at hst
    split at hst
    · rw [Option.ite_none_right_eq_some] at hst
      obtain rfl := Option.some.inj hst.2
      exact h.modify_goto (c := c) (f := fun sd => { sd with
        linked := sd.linked.map fun _ => .list }) (p := .loop) ((h c).of_empty rfl rfl nofun)
    · cases hst
  | poll c =>
    dsimp only [Backlogs.step] at hst
    split at hst
    · rw [Option.ite_none_right_eq_some] at hst
      obtain rfl := Option.some.inj hst.2
      refine h.modify_goto (f := fun sd => { sd with linked := sd.linked.erase .list })
        ((h c).of_empty ?_ ?_ ?_) <;> split <;> first | rfl | nofun
    · cases hst
  | netRx c => exact h.netRxStep hst
  | splice c others =>
    dsimp only [Backlogs.step] at hst
    split at hst
    · obtain rfl := Option.some.inj hst
      refine h.modify_goto (c := c) (f := fun sd => { sd with
        linked := sd.linked.map fun _ => .pollList
        rpsIpiList := [] }) ((h c).of_empty ?_ ?_ ?_) <;> split <;> first | rfl | nofun
    · cases hst
  | leave c =>
    dsimp only [Backlogs.step] at hst
    split at hst
    · rw [Option.ite_none_right_eq_some] at hst
      obtain rfl := Option.some.inj hst.2
      exact h.goto ((h c).of_empty rfl rfl nofun)
    · cases hst
  | flush c unregistering =>
    dsimp only [Backlogs.step] at hst
    split at hst
    · rename_i hpc
      obtain rfl := Option.some.inj hst
      exact h.flush hpc unregistering
    · cases hst

end Backlogs

end CrosRt
