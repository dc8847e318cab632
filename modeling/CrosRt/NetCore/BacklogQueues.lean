import CrosRt.NetCore.BacklogBounds
import Mathlib.Logic.Relation

/-! # The backlogs as queues

What is left of the backlogs when the softirqs, the lists and the interrupts between processors are
forgotten: one queue for each CPU with the two counters, the flow tables, and the records of what was
accepted, delivered and flushed. Every step of the CPUs is a few steps of these queues, or none
(`queues_step`); what holds of the queues is proved of their steps.
-/

namespace CrosRt
set_option autoImplicit false

open LabelledRuns

/-- The frames of a CPU that are not delivered, the oldest first, and how many delivered frames the head
has still to count. -/
structure CpuQueue (Skb R : Type) where
  frames : List (BacklogSkb Skb R)
  owed : ℕ
  head : BitVec 32
  tail : BitVec 32

structure Queues (n : ℕ) (Skb R : Type) where
  cpu : Fin n → CpuQueue Skb R
  flows : R → BitVec 32 → RpsDevFlow
  rx : R → RxPc n Skb R
  accepted : List (Fin n × BacklogSkb Skb R)
  delivered : List (Fin n × BacklogSkb Skb R)
  flushed : List (Fin n × BacklogSkb Skb R)

namespace Queues
variable {n : ℕ} {Skb R : Type} [DecidableEq R]

def setFlow (flows : R → BitVec 32 → RpsDevFlow) (e : RpsEntry R) (rflow : RpsDevFlow) :
    R → BitVec 32 → RpsDevFlow :=
  Function.update flows e.1 (Function.update (flows e.1) e.2 rflow)

/-- The tickets after a frame that came through `rflow`. -/
def saveTail (flows : R → BitVec 32 → RpsDevFlow) (rflow : Option (RpsEntry R))
    (tail : BitVec 32) : R → BitVec 32 → RpsDevFlow :=
  match rflow with
  | none => flows
  | some e => setFlow flows e { flows e.1 e.2 with lastQtail := tail }

def accept (q : Queues n Skb R) (c : Fin n) (x : BacklogSkb Skb R) : Queues n Skb R :=
  { q with
    cpu := Function.update q.cpu c { q.cpu c with
      frames := (q.cpu c).frames ++ [x]
      tail := (q.cpu c).tail + 1 }
    flows := saveTail q.flows x.rflow ((q.cpu c).tail + 1)
    accepted := q.accepted ++ [(c, x)] }

inductive Step (cfg : RpsConfig n Skb R) : Queues n Skb R → Queues n Skb R → Prop
  | switch {q} (e : RpsEntry R) (nextCpu : ℕ) (lastQtail : BitVec 32) (hidle : q.rx e.1 = .idle)
      (hmay : ∀ c : Fin n, (q.flows e.1 e.2).cpu = c.val → cfg.online c = true →
        0 ≤ ((q.cpu c).head - (q.flows e.1 e.2).lastQtail).toInt)
      (hticket : ∀ c : Fin n, nextCpu = c.val → lastQtail = (q.cpu c).head) :
      Step cfg q { q with flows := setFlow q.flows e ⟨nextCpu, lastQtail⟩ }
  | steer {q} (r : R) (x : BacklogSkb Skb R) (c : Fin n) (hidle : q.rx r = .idle)
      (honline : cfg.online c = true)
      (hentry : ∀ e, x.rflow = some e → e.1 = r ∧ (q.flows e.1 e.2).cpu = c.val) :
      Step cfg q { q with rx := Function.update q.rx r (.enqueue x c) }
  | refuse {q} (r : R) : Step cfg q { q with rx := Function.update q.rx r .idle }
  | accept {q} (r : R) (x : BacklogSkb Skb R) (c : Fin n) (hrx : q.rx r = .enqueue x c)
      (hroom : (q.cpu c).frames.length + (q.cpu c).owed ≤ 2 * cfg.netdevMaxBacklog + 1) :
      Step cfg q { q.accept c x with rx := Function.update q.rx r .idle }
  | netifRx {q} (skb : Skb) (c : Fin n) (honline : cfg.online c = true)
      (hroom : (q.cpu c).frames.length + (q.cpu c).owed ≤ 2 * cfg.netdevMaxBacklog + 1) :
      Step cfg q (q.accept c ⟨skb, none⟩)
  | deliver {q} (c : Fin n) (x : BacklogSkb Skb R) (rest : List (BacklogSkb Skb R))
      (hframes : (q.cpu c).frames = x :: rest) (howed : (q.cpu c).owed = 0) :
      Step cfg q { q with
        cpu := Function.update q.cpu c { q.cpu c with frames := rest, owed := 1 }
        delivered := q.delivered ++ [(c, x)] }
  | count {q} (c : Fin n) (howed : (q.cpu c).owed = 1) :
      Step cfg q { q with
        cpu := Function.update q.cpu c { q.cpu c with head := (q.cpu c).head + 1, owed := 0 } }
  | flush {q} (c : Fin n) (kept gone : List (BacklogSkb Skb R))
      (hsub : kept.Sublist (q.cpu c).frames) (hperm : (kept ++ gone).Perm (q.cpu c).frames) :
      Step cfg q { q with
        cpu := Function.update q.cpu c { q.cpu c with
          frames := kept
          head := (q.cpu c).head + BitVec.ofNat 32 gone.length }
        flushed := q.flushed ++ gone.map fun x => (c, x) }

end Queues

/-! ## The queues of a state -/

def cpuQueue {n : ℕ} {Skb R : Type} (sd : SoftnetData n Skb R) (pc : NetRxPc n Skb R) :
    CpuQueue Skb R where
  frames := pc.inHand ++ sd.processQueue ++ sd.inputPktQueue
  owed := pc.owed
  head := sd.inputQueueHead
  tail := sd.inputQueueTail

namespace Backlogs
variable {n : ℕ} {Skb R : Type}

def queues (s : Backlogs n Skb R) : Queues n Skb R where
  cpu c := cpuQueue (s.sd c) (s.netRx c)
  flows := s.flows
  rx := s.rx
  accepted := s.accepted
  delivered := s.delivered
  flushed := s.flushed

section Views
variable (s : Backlogs n Skb R) (c : Fin n)

theorem queues_modify (f : SoftnetData n Skb R → SoftnetData n Skb R) :
    (s.modify c f).queues = { s.queues with
      cpu := Function.update s.queues.cpu c (cpuQueue (f (s.sd c)) (s.netRx c)) } := by
  have hcpu : (s.modify c f).queues.cpu =
      Function.update s.queues.cpu c (cpuQueue (f (s.sd c)) (s.netRx c)) := by
    funext d
    by_cases hd : d = c
    · subst hd
      rw [Function.update_self]
      show cpuQueue ((s.modify d f).sd d) (s.netRx d) = _
      rw [modify_sd_self]
    · rw [Function.update_of_ne hd]
      show cpuQueue (Function.update s.sd c (f (s.sd c)) d) (s.netRx d) = _
      rw [Function.update_of_ne hd]
      rfl
  rw [← hcpu]
  rfl

theorem queues_goto (pc : NetRxPc n Skb R) :
    (s.goto c pc).queues = { s.queues with
      cpu := Function.update s.queues.cpu c (cpuQueue (s.sd c) pc) } := by
  have hcpu : (s.goto c pc).queues.cpu =
      Function.update s.queues.cpu c (cpuQueue (s.sd c) pc) := by
    funext d
    by_cases hd : d = c
    · subst hd
      rw [Function.update_self]
      show cpuQueue (s.sd d) ((s.goto d pc).netRx d) = _
      rw [goto_netRx_self]
    · rw [Function.update_of_ne hd]
      show cpuQueue (s.sd d) (Function.update s.netRx c pc d) = _
      rw [Function.update_of_ne hd]
      rfl
  rw [← hcpu]
  rfl

/-- A change that leaves the two queues and the two counters alone. -/
theorem queues_modify_of_eq {f : SoftnetData n Skb R → SoftnetData n Skb R}
    (h : ∀ sd pc, cpuQueue (f sd) pc = cpuQueue sd pc) : (s.modify c f).queues = s.queues := by
  have hself : Function.update s.queues.cpu c (cpuQueue (s.sd c) (s.netRx c)) = s.queues.cpu :=
    Function.update_eq_self c s.queues.cpu
  rw [queues_modify, h, hself]

theorem queues_modify_goto (f : SoftnetData n Skb R → SoftnetData n Skb R)
    (pc : NetRxPc n Skb R) :
    ((s.modify c f).goto c pc).queues = { s.queues with
      cpu := Function.update s.queues.cpu c (cpuQueue (f (s.sd c)) pc) } := by
  rw [queues_goto, queues_modify, modify_sd_self]
  simp only [Function.update_idem]

theorem queues_eq_of_cpuQueue {t : Backlogs n Skb R} {v : CpuQueue Skb R}
    (ht : t.queues = { s.queues with cpu := Function.update s.queues.cpu c v })
    (hv : v = cpuQueue (s.sd c) (s.netRx c)) : t.queues = s.queues := by
  have hself : Function.update s.queues.cpu c (cpuQueue (s.sd c) (s.netRx c)) = s.queues.cpu :=
    Function.update_eq_self c s.queues.cpu
  rw [ht, hv, hself]

end Views

/-! ## Enqueueing and steering -/

section Enqueueing
variable (s : Backlogs n Skb R)

theorem queues_raiseNetRx (c : Fin n) : (s.raiseNetRx c).queues = s.queues := rfl

theorem queues_napiSchedule (c : Fin n) : (s.napiSchedule c).queues = s.queues := by
  unfold napiSchedule
  rw [queues_raiseNetRx, queues_modify_of_eq]
  exact fun _ _ => rfl

theorem queues_rpsIpiQueued (here cpu : Fin n) : (s.rpsIpiQueued here cpu).queues = s.queues := by
  unfold rpsIpiQueued
  rw [queues_raiseNetRx, queues_modify_of_eq]
  exact fun _ _ => rfl

theorem queues_wake (here cpu : Fin n) : (s.wake here cpu).queues = s.queues := by
  unfold wake
  split
  · rfl
  · have h₁ : (s.modify cpu fun sd => { sd with sched := true }).queues = s.queues :=
      s.queues_modify_of_eq cpu fun _ _ => rfl
    dsimp only
    split
    · exact (queues_rpsIpiQueued _ here cpu).trans h₁
    · exact (queues_napiSchedule _ cpu).trans h₁

theorem queues_drop (cpu : Fin n) : (s.drop cpu).queues = s.queues :=
  s.queues_modify_of_eq cpu fun _ _ => rfl

variable [DecidableEq R]

theorem queues_queueTail (cpu : Fin n) (x : BacklogSkb Skb R) :
    (s.queueTail cpu x).queues = s.queues.accept cpu x := by
  have hcpu : ((s.modify cpu fun sd => { sd with
      inputPktQueue := sd.inputPktQueue ++ [x] }).modify cpu fun sd => { sd with
        inputQueueTail := (s.sd cpu).inputQueueTail + 1 }).queues.cpu =
      (s.queues.accept cpu x).cpu := by
    rw [queues_modify, queues_modify]
    simp only [modify_sd_self, modify_netRx, Function.update_idem, Queues.accept]
    congr 1
    simp only [queues, cpuQueue, List.append_assoc]
  unfold queueTail tailIncrSave
  simp only [modify_sd_self]
  rw [show (s.queues.accept cpu x) = { s.queues with
    cpu := (s.queues.accept cpu x).cpu
    flows := (s.queues.accept cpu x).flows
    accepted := (s.queues.accept cpu x).accepted } from rfl, ← hcpu]
  obtain ⟨skb, rflow⟩ := x
  cases rflow with
  | none => rfl
  | some e => rfl

/-- A frame is dropped, or accepted by a queue that has room. -/
theorem queues_enqueueToBacklog {cfg : RpsConfig n Skb R} (hb : Bounded cfg s) (here cpu : Fin n)
    (x : BacklogSkb Skb R) (running : Bool) :
    (s.enqueueToBacklog cfg here cpu x running).queues = s.queues ∨
      (s.enqueueToBacklog cfg here cpu x running).queues = s.queues.accept cpu x ∧
        (s.queues.cpu cpu).frames.length + (s.queues.cpu cpu).owed ≤
          2 * cfg.netdevMaxBacklog + 1 := by
  unfold enqueueToBacklog
  dsimp only
  split
  · split
    · rename_i hlen
      have hroom : (s.queues.cpu cpu).frames.length + (s.queues.cpu cpu).owed ≤
          2 * cfg.netdevMaxBacklog + 1 := by
        have := (hb cpu).2.1
        simp only [queues, cpuQueue, List.length_append]
        omega
      generalize (skbFlowLimit cfg.netdevMaxBacklog (s.sd here).flowLimit (cfg.hash x.skb)
        (s.sd cpu).inputPktQueue.length) = limited
      have hlim : (s.modify here fun sd => { sd with flowLimit := limited.2 }).queues = s.queues :=
        s.queues_modify_of_eq here fun _ _ => rfl
      split
      · exact Or.inl ((queues_drop _ cpu).trans hlim)
      · refine Or.inr ⟨?_, hroom⟩
        split
        · rw [queues_queueTail, queues_wake, hlim]
        · rw [queues_queueTail, hlim]
    · exact Or.inl (queues_drop s cpu)
  · exact Or.inl (queues_drop s cpu)

end Enqueueing

/-! ## The softirq -/

section Softirq
variable {cfg : RpsConfig n Skb R} {s t : Backlogs n Skb R} {c : Fin n}

theorem perm_filter_split {A : Type} (p : A → Bool) (as bs : List A) :
    ((as.filter (fun a => !p a) ++ bs) ++ as.filter p).Perm (as ++ bs) := by
  refine List.perm_append_comm.trans ?_
  rw [← List.append_assoc]
  exact (List.filter_append_perm p as).append_right bs

theorem queues_pollReturns (s : Backlogs n Skb R) (c : Fin n) (work : ℕ) :
    (s.pollReturns cfg c work).queues = (s.goto c .loop).queues := by
  unfold pollReturns
  split
  · rfl
  · rw [queues_modify_goto, queues_goto]
    rfl

variable [DecidableEq R]

theorem queues_netRxStep (hst : s.netRxStep cfg c = some t) :
    t.queues = s.queues ∨ Queues.Step cfg s.queues t.queues := by
  unfold netRxStep at hst
  split at hst
  case h_1 | h_2 => cases hst
  case h_3 hpc =>
    split at hst
    · obtain rfl := Option.some.inj hst
      exact Or.inl (s.queues_eq_of_cpuQueue c (s.queues_goto c _) (by rw [hpc]; rfl))
    · obtain rfl := Option.some.inj hst
      exact Or.inl (s.queues_eq_of_cpuQueue c (s.queues_modify_goto c _ _) (by rw [hpc]; rfl))
  case h_4 remsd next polling hpc =>
    obtain rfl := Option.some.inj hst
    have hsend : (s.sendIpi cfg remsd).queues = s.queues := by
      unfold sendIpi
      split <;> rfl
    have hsd : (s.sendIpi cfg remsd).sd = s.sd ∧ (s.sendIpi cfg remsd).netRx = s.netRx := by
      unfold sendIpi
      split <;> exact ⟨rfl, rfl⟩
    refine Or.inl ((queues_eq_of_cpuQueue _ c (queues_goto _ c _) ?_).trans hsend)
    rw [hsd.1, hsd.2, hpc]
    rfl
  case h_5 polling hpc =>
    obtain rfl := Option.some.inj hst
    refine Or.inl (s.queues_eq_of_cpuQueue c (s.queues_goto c _) ?_)
    rw [hpc]
    cases polling <;> rfl
  case h_6 work hpc =>
    split at hst
    · rename_i x rest hq
      obtain rfl := Option.some.inj hst
      refine Or.inl (s.queues_eq_of_cpuQueue c (s.queues_modify_goto c _ _) ?_)
      simp only [cpuQueue, hpc, NetRxPc.inHand, NetRxPc.owed, hq, List.nil_append,
        List.singleton_append]
    · obtain rfl := Option.some.inj hst
      exact Or.inl (s.queues_eq_of_cpuQueue c (s.queues_goto c _) (by rw [hpc]; rfl))
  case h_7 x work hpc =>
    obtain rfl := Option.some.inj hst
    have hframes : (s.queues.cpu c).frames =
        x :: ((s.sd c).processQueue ++ (s.sd c).inputPktQueue) := by
      simp only [queues, cpuQueue, hpc, NetRxPc.inHand, List.cons_append, List.nil_append]
    have howed : (s.queues.cpu c).owed = 0 := by
      simp only [queues, cpuQueue, hpc, NetRxPc.owed]
    refine Or.inr ?_
    show Queues.Step cfg s.queues { (s.goto c (.headIncr work)).queues with
      delivered := s.delivered ++ [(c, x)] }
    rw [queues_goto]
    exact .deliver c x _ hframes howed
  case h_8 work hpc =>
    have howed : (s.queues.cpu c).owed = 1 := by
      simp only [queues, cpuQueue, hpc, NetRxPc.owed]
    have hcount : ∀ pc : NetRxPc n Skb R, pc.inHand = [] → pc.owed = 0 → Queues.Step cfg s.queues
        ((s.modify c fun sd => { sd with
          inputQueueHead := sd.inputQueueHead + 1 }).goto c pc).queues := by
      intro pc hhand hpcowed
      have hstep : Queues.Step cfg s.queues _ := .count c howed
      have hview : cpuQueue { s.sd c with inputQueueHead := (s.sd c).inputQueueHead + 1 } pc =
          { s.queues.cpu c with head := (s.queues.cpu c).head + 1, owed := 0 } := by
        simp only [queues, cpuQueue, hpc, hhand, hpcowed]
        rfl
      rw [queues_modify_goto, hview]
      exact hstep
    dsimp only at hst
    split at hst
    · obtain rfl := Option.some.inj hst
      rw [queues_pollReturns]
      exact Or.inr (hcount .loop rfl rfl)
    · obtain rfl := Option.some.inj hst
      exact Or.inr (hcount (.dequeue (work + 1)) rfl rfl)
  case h_9 work hpc =>
    split at hst
    · obtain rfl := Option.some.inj hst
      rw [queues_pollReturns]
      exact Or.inl (s.queues_eq_of_cpuQueue c (s.queues_modify_goto c _ _) (by rw [hpc]; rfl))
    · obtain rfl := Option.some.inj hst
      refine Or.inl (s.queues_eq_of_cpuQueue c (s.queues_modify_goto c _ _) ?_)
      simp only [cpuQueue, hpc, NetRxPc.inHand, NetRxPc.owed, List.nil_append, List.append_nil]
  case h_10 unregistering hpc =>
    obtain rfl := Option.some.inj hst
    refine Or.inr ?_
    have hstep := @Queues.Step.flush n Skb R _ cfg s.queues c
      ((s.sd c).processQueue.filter (fun x => !unregistering x.skb) ++ (s.sd c).inputPktQueue)
      ((s.sd c).processQueue.filter fun x => unregistering x.skb)
    have hq : s.queues.cpu c = ⟨(s.sd c).processQueue ++ (s.sd c).inputPktQueue, 0,
        (s.sd c).inputQueueHead, (s.sd c).inputQueueTail⟩ := by
      simp only [queues, cpuQueue, hpc]
      rfl
    rw [hq] at hstep
    have hstep := hstep (List.filter_sublist.append_right _) (perm_filter_split _ _ _)
    show Queues.Step cfg s.queues { ((s.modify c _).goto c .idle).queues with
      flushed := s.flushed ++ ((s.sd c).processQueue.filter fun x => unregistering x.skb).map
        fun x => (c, x) }
    rw [queues_modify_goto]
    exact hstep

theorem queues_flush (s : Backlogs n Skb R) (hpc : s.netRx c = .idle)
    (unregistering : Skb → Bool) :
    Queues.Step cfg s.queues (s.flush c unregistering).queues := by
  have hstep := @Queues.Step.flush n Skb R _ cfg s.queues c
    ((s.sd c).processQueue ++ (s.sd c).inputPktQueue.filter (fun x => !unregistering x.skb))
    ((s.sd c).inputPktQueue.filter fun x => unregistering x.skb)
  have hq : s.queues.cpu c = ⟨(s.sd c).processQueue ++ (s.sd c).inputPktQueue, 0,
      (s.sd c).inputQueueHead, (s.sd c).inputQueueTail⟩ := by
    simp only [queues, cpuQueue, hpc]
    rfl
  rw [hq] at hstep
  have hperm := perm_filter_split (fun x => unregistering x.skb) (s.sd c).inputPktQueue []
  rw [List.append_nil, List.append_nil] at hperm
  have hstep := hstep (List.filter_sublist.append_left _)
    (by rw [List.append_assoc]; exact hperm.append_left _)
  show Queues.Step cfg s.queues
    { ((s.modify c _).goto c (.flushProcess unregistering)).queues with
      flushed := s.flushed ++ ((s.sd c).inputPktQueue.filter fun x => unregistering x.skb).map
        fun x => (c, x) }
  rw [queues_modify_goto]
  exact hstep

end Softirq

/-! ## Steering -/

section Steering
variable [DecidableEq R] {cfg : RpsConfig n Skb R} {s : Backlogs n Skb R}

omit [DecidableEq R] in
theorem tryRps_online {hash : BitVec 32} {map : List (Fin n)} {c : Fin n}
    (h : tryRps cfg hash map = some c) : cfg.online c = true := by
  unfold tryRps at h
  split at h
  · rw [Option.ite_none_right_eq_some] at h
    obtain ⟨hon, h⟩ := h
    obtain rfl := Option.some.inj h
    exact hon
  · cases h

omit [DecidableEq R] in
theorem onlineCpu_eq_some {tcpu : ℕ} {c : Fin n} (h : onlineCpu cfg tcpu = some c) :
    cfg.online c = true ∧ tcpu = c.val := by
  unfold onlineCpu at h
  split at h
  · rw [Option.ite_none_right_eq_some] at h
    obtain ⟨hon, h⟩ := h
    obtain rfl := Option.some.inj h
    exact ⟨hon, rfl⟩
  · cases h

theorem setFlow_eq_self (flows : R → BitVec 32 → RpsDevFlow) (e : RpsEntry R) :
    Queues.setFlow flows e (flows e.1 e.2) = flows := by
  unfold Queues.setFlow
  rw [Function.update_eq_self, Function.update_eq_self]

/-- The entry is what it was, or has gone to another CPU. -/
theorem step_switchCpu (cfg : RpsConfig n Skb R) {e : RpsEntry R} (hidle : s.rx e.1 = .idle) (nextCpu : ℕ) :
    s.switchCpu cfg (s.flows e.1 e.2) nextCpu = s.flows e.1 e.2 ∨
      Queues.Step cfg s.queues { s.queues with
        flows := Queues.setFlow s.flows e (s.switchCpu cfg (s.flows e.1 e.2) nextCpu) } := by
  unfold switchCpu
  split
  · rename_i h
    refine Or.inr (.switch e nextCpu _ hidle (fun c hc hon => ?_) fun c hc => ?_)
    · have hmay := h.2
      unfold maySwitch at hmay
      have hlt : (s.flows e.1 e.2).cpu < n := hc ▸ c.isLt
      have hfin : (⟨(s.flows e.1 e.2).cpu, hlt⟩ : Fin n) = c := Fin.ext hc
      rw [dif_pos hlt, hfin, hon, Bool.not_true, Bool.false_or, decide_eq_true_iff] at hmay
      exact hmay
    · obtain rfl := hc
      rw [dif_pos c.isLt]
      rfl
  · exact Or.inl rfl

/-- What `get_rps_cpu` does: it may send one entry to another CPU, and chooses an online CPU, that of
the entry where it gives one. -/
theorem getRpsCpu_spec {r : R} (hidle : s.rx r = .idle) (skb : Skb) (ident : Option (BitVec 32))
    (map : List (Fin n)) {cpu : Option (Fin n)} {rflow : Option (RpsEntry R)}
    {flows : R → BitVec 32 → RpsDevFlow}
    (h : s.getRpsCpu cfg r skb ident map = (cpu, rflow, flows)) :
    Relation.ReflTransGen (Queues.Step cfg) s.queues { s.queues with flows := flows } ∧
      ∀ c, cpu = some c → cfg.online c = true ∧
        ∀ e, rflow = some e → e.1 = r ∧ (flows e.1 e.2).cpu = c.val := by
  have htry : ∀ c, tryRps cfg (cfg.hash skb) map = some c → cfg.online c = true ∧
      ∀ e : RpsEntry R, none = some e → e.1 = r ∧ (flows e.1 e.2).cpu = c.val :=
    fun c hc => ⟨tryRps_online hc, nofun⟩
  unfold getRpsCpu at h
  dsimp only at h
  split at h
  · obtain ⟨rfl, rfl, rfl⟩ := h
    exact ⟨.refl, nofun⟩
  split at h
  · obtain ⟨rfl, rfl, rfl⟩ := h
    exact ⟨.refl, nofun⟩
  split at h
  case h_2 =>
    obtain ⟨rfl, rfl, rfl⟩ := h
    exact ⟨.refl, htry⟩
  case h_1 mask ident _ =>
    split at h
    · obtain ⟨rfl, rfl, rfl⟩ := h
      exact ⟨.refl, htry⟩
    · have hstep := step_switchCpu cfg (e := (r, cfg.hash skb &&& mask)) hidle
        (ident &&& cfg.rpsCpuMask).toNat
      have hreach : Relation.ReflTransGen (Queues.Step cfg) s.queues { s.queues with
          flows := Queues.setFlow s.flows (r, cfg.hash skb &&& mask)
            (s.switchCpu cfg (s.flows r (cfg.hash skb &&& mask))
              (ident &&& cfg.rpsCpuMask).toNat) } := by
        rcases hstep with heq | hstep
        · dsimp only at heq
          rw [heq, setFlow_eq_self s.flows (r, cfg.hash skb &&& mask)]
          exact .refl
        · exact .single hstep
      split at h
      · rename_i tcpu hcpu
        obtain ⟨rfl, rfl, rfl⟩ := h
        refine ⟨hreach, fun c hc => ?_⟩
        obtain rfl := Option.some.inj hc
        obtain ⟨hon, hval⟩ := onlineCpu_eq_some hcpu
        refine ⟨hon, fun e he => ?_⟩
        obtain rfl := Option.some.inj he
        refine ⟨rfl, ?_⟩
        rw [Function.update_self, Function.update_self]
        exact hval
      · obtain ⟨rfl, rfl, rfl⟩ := h
        exact ⟨hreach, htry⟩

end Steering

/-- **The CPUs refine the queues.** -/
theorem queues_step [DecidableEq R] {cfg : RpsConfig n Skb R} {s t : Backlogs n Skb R}
    {e : BacklogEvent n Skb R} (hb : Bounded cfg s) (hst : step cfg s e = some t) :
    Relation.ReflTransGen (Queues.Step cfg) s.queues t.queues := by
  have same : ∀ {u : Backlogs n Skb R}, u.queues = s.queues →
      Relation.ReflTransGen (Queues.Step cfg) s.queues u.queues := fun h => h ▸ .refl
  cases e with
  | steer r skb ident map =>
    dsimp only [step] at hst
    split at hst
    · cases hst
    · rename_i hidle
      split at hst <;> rename_i hget <;> obtain rfl := Option.some.inj hst
      · exact (getRpsCpu_spec hidle skb ident map hget).1
      · obtain ⟨hreach, hon⟩ := getRpsCpu_spec hidle skb ident map hget
        obtain ⟨honline, hentry⟩ := hon _ rfl
        exact hreach.tail (.steer r _ _ hidle honline hentry)
  | enqueue r here running =>
    dsimp only [step] at hst
    split at hst
    · cases hst
    · rename_i x cpu hrx
      obtain rfl := Option.some.inj hst
      have hview : ∀ u : Backlogs n Skb R,
          ({ u with rx := Function.update s.rx r .idle } : Backlogs n Skb R).queues =
            { u.queues with rx := Function.update s.queues.rx r .idle } := fun _ => rfl
      rw [hview]
      rcases s.queues_enqueueToBacklog hb here cpu x running with h | ⟨h, hroom⟩
      · rw [h]
        exact .single (.refuse r)
      · rw [h]
        exact .single (.accept r x cpu hrx hroom)
  | netifRx here cpu skb running =>
    dsimp only [step] at hst
    rw [Option.ite_none_right_eq_some] at hst
    obtain ⟨hon, hst⟩ := hst
    obtain rfl := Option.some.inj hst
    rcases s.queues_enqueueToBacklog hb here cpu ⟨skb, none⟩ running with h | ⟨h, hroom⟩
    · exact same h
    · rw [h]
      exact .single (.netifRx skb cpu hon hroom)
  | ipi c =>
    dsimp only [step] at hst
    rw [Option.ite_none_right_eq_some] at hst
    obtain rfl := Option.some.inj hst.2
    have hview : ((s.napiSchedule c).modify c fun sd => { sd with
        receivedRps := sd.receivedRps + 1 }).queues = s.queues := by
      refine (queues_modify_of_eq _ c ?_).trans (s.queues_napiSchedule c)
      exact fun _ _ => rfl
    exact same hview
  | raise c =>
    obtain rfl := Option.some.inj hst
    exact same rfl
  | softirq c =>
    dsimp only [step] at hst
    split at hst
    · rename_i hpc
      rw [Option.ite_none_right_eq_some] at hst
      obtain rfl := Option.some.inj hst.2
      refine same ?_
      show ((s.modify c _).goto c .loop).queues = s.queues
      exact s.queues_eq_of_cpuQueue c (s.queues_modify_goto c _ _) (by rw [hpc]; rfl)
    · cases hst
  | poll c =>
    dsimp only [step] at hst
    split at hst
    · rename_i hpc
      rw [Option.ite_none_right_eq_some] at hst
      obtain rfl := Option.some.inj hst.2
      refine same (s.queues_eq_of_cpuQueue c (s.queues_modify_goto c _ _) ?_)
      rw [hpc]
      split <;> rfl
    · cases hst
  | netRx c =>
    rcases queues_netRxStep hst with h | h
    · exact same h
    · exact .single h
  | splice c others =>
    dsimp only [step] at hst
    split at hst
    · rename_i hpc
      obtain rfl := Option.some.inj hst
      refine same ?_
      show ((s.modify c _).goto c _).queues = s.queues
      refine s.queues_eq_of_cpuQueue c (s.queues_modify_goto c _ _) ?_
      rw [hpc]
      split <;> rfl
    · cases hst
  | leave c =>
    dsimp only [step] at hst
    split at hst
    · rename_i hpc
      rw [Option.ite_none_right_eq_some] at hst
      obtain rfl := Option.some.inj hst.2
      exact same (s.queues_eq_of_cpuQueue c (s.queues_goto c _) (by rw [hpc]; rfl))
    · cases hst
  | flush c unregistering =>
    dsimp only [step] at hst
    split at hst
    · rename_i hpc
      obtain rfl := Option.some.inj hst
      exact .single (s.queues_flush hpc unregistering)
    · cases hst

theorem queues_run [DecidableEq R] {cfg : RpsConfig n Skb R} {s t : Backlogs n Skb R}
    {es : List (BacklogEvent n Skb R)} (hb : Bounded cfg s) (h : run (step cfg) s es = some t) :
    Bounded cfg t ∧ Relation.ReflTransGen (Queues.Step cfg) s.queues t.queues :=
  run_invariant (I := fun u : Backlogs n Skb R =>
      Bounded cfg u ∧ Relation.ReflTransGen (Queues.Step cfg) s.queues u.queues)
    (fun _ _ _ hu hst => ⟨hu.1.step hst, hu.2.trans (queues_step hu.1 hst)⟩) ⟨hb, .refl⟩ h

end Backlogs

end CrosRt
