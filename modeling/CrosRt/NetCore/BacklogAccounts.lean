import CrosRt.NetCore.BacklogQueues
import Mathlib.Data.List.Perm.Basic

/-! # Where the frames of a backlog are

What a CPU has accepted is what it has delivered, what was flushed from it and what waits; waiting
frames are delivered in the order in which they came. `input_queue_tail` is ahead of
`input_queue_head` by the frames that the head has still to count.
-/

namespace CrosRt
set_option autoImplicit false

open LabelledRuns

section Records
variable {n : ℕ} {A : Type}

/-- What a record holds of a CPU. -/
def onCpu (c : Fin n) (log : List (Fin n × A)) : List A :=
  (log.filter fun p => p.1 = c).map Prod.snd

theorem onCpu_append (c : Fin n) (log log' : List (Fin n × A)) :
    onCpu c (log ++ log') = onCpu c log ++ onCpu c log' := by
  rw [onCpu, List.filter_append, List.map_append]
  rfl

theorem onCpu_map (c d : Fin n) (xs : List A) :
    onCpu d (xs.map fun x => (c, x)) = if d = c then xs else [] := by
  unfold onCpu
  split
  · rename_i h
    subst h
    rw [List.filter_eq_self.mpr, List.map_map]
    · exact List.map_id xs
    · intro p hp
      obtain ⟨x, -, rfl⟩ := List.mem_map.mp hp
      exact decide_eq_true rfl
  · rename_i h
    rw [List.filter_eq_nil_iff.mpr]
    · rfl
    · intro p hp
      obtain ⟨x, -, rfl⟩ := List.mem_map.mp hp
      simpa using Ne.symm h

theorem onCpu_singleton (c d : Fin n) (x : A) :
    onCpu d [(c, x)] = if d = c then [x] else [] := onCpu_map c d [x]

end Records

namespace Queues
variable {n : ℕ} {Skb R : Type} [DecidableEq R] {cfg : RpsConfig n Skb R} {q q' : Queues n Skb R}

structure Accounts (cfg : RpsConfig n Skb R) (q : Queues n Skb R) (c : Fin n) : Prop where
  tail : (q.cpu c).tail =
    (q.cpu c).head + BitVec.ofNat 32 ((q.cpu c).frames.length + (q.cpu c).owed)
  room : (q.cpu c).frames.length + (q.cpu c).owed ≤ 2 * cfg.netdevMaxBacklog + 2
  order : (onCpu c q.delivered ++ (q.cpu c).frames).Sublist (onCpu c q.accepted)
  whole : (onCpu c q.delivered ++ onCpu c q.flushed ++ (q.cpu c).frames).Perm
    (onCpu c q.accepted)

theorem Accounts.accept {c d : Fin n} {x : BacklogSkb Skb R} (h : q.Accounts cfg d)
    (hroom : (q.cpu c).frames.length + (q.cpu c).owed ≤ 2 * cfg.netdevMaxBacklog + 1) :
    (q.accept c x).Accounts cfg d := by
  by_cases hd : d = c
  · subst hd
    have hacc : onCpu d (q.accept d x).accepted = onCpu d q.accepted ++ [x] := by
      show onCpu d (q.accepted ++ [(d, x)]) = _
      rw [onCpu_append, onCpu_singleton, if_pos rfl]
    have hcpu : (q.accept d x).cpu d = { q.cpu d with
        frames := (q.cpu d).frames ++ [x]
        tail := (q.cpu d).tail + 1 } := Function.update_self ..
    refine ⟨?_, ?_, ?_, ?_⟩
    · rw [hcpu]
      dsimp only
      rw [h.tail, List.length_append, List.length_singleton, Nat.add_right_comm, BitVec.add_assoc,
        BitVec.ofNat_add _ 1]
      rfl
    · rw [hcpu]
      dsimp only
      rw [List.length_append, List.length_singleton]
      omega
    · rw [hcpu, hacc]
      show (onCpu d q.delivered ++ ((q.cpu d).frames ++ [x])).Sublist _
      rw [← List.append_assoc]
      exact h.order.append_right [x]
    · rw [hcpu, hacc]
      show (onCpu d q.delivered ++ onCpu d q.flushed ++ ((q.cpu d).frames ++ [x])).Perm _
      rw [← List.append_assoc]
      exact h.whole.append_right [x]
  · have hacc : onCpu d (q.accept c x).accepted = onCpu d q.accepted := by
      show onCpu d (q.accepted ++ [(c, x)]) = _
      rw [onCpu_append, onCpu_singleton, if_neg hd, List.append_nil]
    have hcpu : (q.accept c x).cpu d = q.cpu d := Function.update_of_ne hd ..
    refine ⟨?_, ?_, ?_, ?_⟩
    · rw [hcpu]
      exact h.tail
    · rw [hcpu]
      exact h.room
    · rw [hcpu, hacc]
      exact h.order
    · rw [hcpu, hacc]
      exact h.whole

omit [DecidableEq R] in
/-- A step that changes one CPU, and records things of that CPU alone. -/
theorem Accounts.of_ne {c d : Fin n} (hd : d ≠ c) (h : q.Accounts cfg d) (v : CpuQueue Skb R)
    (xs ys : List (BacklogSkb Skb R)) :
    ({ q with
      cpu := Function.update q.cpu c v
      delivered := q.delivered ++ xs.map fun x => (c, x)
      flushed := q.flushed ++ ys.map fun x => (c, x) } : Queues n Skb R).Accounts cfg d := by
  have hcpu : Function.update q.cpu c v d = q.cpu d := Function.update_of_ne hd ..
  have hlog : ∀ (log : List (Fin n × BacklogSkb Skb R)) (zs : List (BacklogSkb Skb R)),
      onCpu d (log ++ zs.map fun x => (c, x)) = onCpu d log := by
    intro log zs
    rw [onCpu_append, onCpu_map, if_neg hd, List.append_nil]
  refine ⟨?_, ?_, ?_, ?_⟩
  · dsimp only
    rw [hcpu]
    exact h.tail
  · dsimp only
    rw [hcpu]
    exact h.room
  · dsimp only
    rw [hcpu, hlog]
    exact h.order
  · dsimp only
    rw [hcpu, hlog, hlog]
    exact h.whole

variable (cfg) in
omit [DecidableEq R] in
theorem Accounts.of_self {c : Fin n} {v : CpuQueue Skb R} (xs ys : List (BacklogSkb Skb R))
    (tail : v.tail = v.head + BitVec.ofNat 32 (v.frames.length + v.owed))
    (room : v.frames.length + v.owed ≤ 2 * cfg.netdevMaxBacklog + 2)
    (order : (onCpu c q.delivered ++ xs ++ v.frames).Sublist (onCpu c q.accepted))
    (whole : (onCpu c q.delivered ++ xs ++ (onCpu c q.flushed ++ ys) ++ v.frames).Perm
      (onCpu c q.accepted)) :
    ({ q with
      cpu := Function.update q.cpu c v
      delivered := q.delivered ++ xs.map fun x => (c, x)
      flushed := q.flushed ++ ys.map fun x => (c, x) } : Queues n Skb R).Accounts cfg c := by
  have hcpu : Function.update q.cpu c v c = v := Function.update_self ..
  have hlog : ∀ (log : List (Fin n × BacklogSkb Skb R)) (zs : List (BacklogSkb Skb R)),
      onCpu c (log ++ zs.map fun x => (c, x)) = onCpu c log ++ zs := by
    intro log zs
    rw [onCpu_append, onCpu_map, if_pos rfl]
  refine ⟨?_, ?_, ?_, ?_⟩
  · dsimp only
    rwa [hcpu]
  · dsimp only
    rwa [hcpu]
  · dsimp only
    rwa [hcpu, hlog]
  · dsimp only
    rwa [hcpu, hlog, hlog]

theorem Accounts.step {d : Fin n} (h : q.Accounts cfg d) (hst : Step cfg q q') :
    q'.Accounts cfg d := by
  cases hst with
  | switch | steer | refuse => exact { h with }
  | accept r x c hrx hroom => exact { h.accept hroom with }
  | netifRx skb c honline hroom => exact h.accept hroom
  | deliver c x rest hframes howed =>
    by_cases hd : d = c
    · subst hd
      have htail := h.tail
      have hroom := h.room
      have horder := h.order
      have hwhole := h.whole
      rw [hframes, howed] at htail hroom
      rw [hframes] at horder hwhole
      have := of_self cfg (q := q) (c := d) [x] []
        (v := { q.cpu d with frames := rest, owed := 1 }) htail hroom
        (by rwa [List.append_assoc, List.singleton_append])
        (by
          refine List.Perm.trans ?_ hwhole
          rw [List.append_nil, List.append_assoc, List.append_assoc, List.append_assoc,
            List.singleton_append]
          exact List.perm_middle.symm.append_left _)
      simpa using this
    · simpa using h.of_ne hd { q.cpu c with frames := rest, owed := 1 } [x] []
  | count c howed =>
    by_cases hd : d = c
    · subst hd
      have htail := h.tail
      have hroom := h.room
      rw [howed] at htail hroom
      have := of_self cfg (q := q) (c := d) [] []
        (v := { q.cpu d with head := (q.cpu d).head + 1, owed := 0 })
        (by
          dsimp only
          rw [htail, Nat.add_comm, BitVec.ofNat_add, ← BitVec.add_assoc]
          rfl)
        (Nat.le_of_succ_le hroom)
        (by simpa using h.order) (by simpa using h.whole)
      simpa using this
    · simpa using h.of_ne hd { q.cpu c with head := (q.cpu c).head + 1, owed := 0 } [] []
  | flush c kept gone hsub hperm =>
    by_cases hd : d = c
    · subst hd
      have htail := h.tail
      have hroom := h.room
      have hlen : (q.cpu d).frames.length = kept.length + gone.length := by
        rw [← hperm.length_eq, List.length_append]
      rw [hlen] at htail hroom
      have := of_self cfg (q := q) (c := d) [] gone
        (v := { q.cpu d with
          frames := kept
          head := (q.cpu d).head + BitVec.ofNat 32 gone.length })
        (by
          dsimp only
          rw [htail, BitVec.add_assoc, ← BitVec.ofNat_add]
          congr 2
          omega)
        (by
          dsimp only
          omega)
        (by
          rw [List.append_nil]
          exact (hsub.append_left _).trans h.order)
        (by
          refine List.Perm.trans ?_ h.whole
          rw [List.append_nil, List.append_assoc, List.append_assoc, List.append_assoc]
          exact ((List.perm_append_comm.trans hperm).append_left _).append_left _)
      simpa using this
    · simpa using h.of_ne hd { q.cpu c with
        frames := kept
        head := (q.cpu c).head + BitVec.ofNat 32 gone.length } [] gone

theorem Accounts.reach {d : Fin n} (h : q.Accounts cfg d)
    (hst : Relation.ReflTransGen (Step cfg) q q') : q'.Accounts cfg d := by
  induction hst with
  | refl => exact h
  | tail _ hst ih => exact ih.step hst

end Queues

namespace Backlogs
variable {n : ℕ} {Skb R : Type} [DecidableEq R] {cfg : RpsConfig n Skb R} {s : Backlogs n Skb R}

omit [DecidableEq R] in
theorem accounts_init (limits : Fin n → Option FlowLimit) (c : Fin n) :
    (init limits : Backlogs n Skb R).queues.Accounts cfg c where
  tail := rfl
  room := Nat.zero_le _
  order := List.Sublist.refl _
  whole := List.Perm.refl _

/-- The frames of a CPU that are neither delivered nor flushed, the oldest first. -/
def waiting (s : Backlogs n Skb R) (c : Fin n) : List (BacklogSkb Skb R) :=
  (s.netRx c).inHand ++ (s.sd c).processQueue ++ (s.sd c).inputPktQueue

/-- **Where the frames are.** In every run and for every CPU: what it accepted is what it delivered,
what was flushed from it and what waits there; it delivers in the order of acceptance, the waiting
frames next; at most `netdev_max_backlog + 1` frames are on each of its two queues; and the tail is
ahead of the head by the frames that wait and the one delivered but not counted. -/
theorem backlog_conservation {limits : Fin n → Option FlowLimit} {es : List (BacklogEvent n Skb R)}
    (h : run (step cfg) (init limits) es = some s) (c : Fin n) :
    (onCpu c s.delivered ++ onCpu c s.flushed ++ s.waiting c).Perm (onCpu c s.accepted) ∧
      (onCpu c s.delivered ++ s.waiting c).Sublist (onCpu c s.accepted) ∧
      (s.sd c).inputPktQueue.length ≤ cfg.netdevMaxBacklog + 1 ∧
      (s.sd c).processQueue.length ≤ cfg.netdevMaxBacklog + 1 ∧
      (s.sd c).inputQueueTail = (s.sd c).inputQueueHead +
        BitVec.ofNat 32 ((s.waiting c).length + (s.netRx c).owed) := by
  obtain ⟨hb, hreach⟩ := queues_run (bounded_init limits) h
  have hacc := (accounts_init limits c).reach hreach
  obtain ⟨hinput, hprocess, -⟩ := hb c
  exact ⟨hacc.whole, hacc.order, hinput, (Nat.le_add_left _ _).trans hprocess, hacc.tail⟩

/-! ## Two CPUs -/

/-- A receive queue with a flow table, whose frames all hash alike, and two CPUs. -/
def twoCpus : RpsConfig 2 ℕ Unit where
  netdevMaxBacklog := 1000
  devRxWeight := 64
  weight_pos := by decide
  rpsCpuMask := 1
  online _ := true
  flowMask _ := some 7
  hash _ := 4

/-- CPU 0 takes a frame for CPU 1, which is woken and delivers it; a second one stays. -/
def twoFrames : List (BacklogEvent 2 ℕ Unit) :=
  [.steer () 10 (some 5) [], .enqueue () 0 true, .softirq 0, .splice 0 false, .netRx 0, .netRx 0,
    .ipi 1, .softirq 1, .poll 1, .netRx 1, .netRx 1, .netRx 1, .netRx 1, .netRx 1,
    .steer () 11 (some 5) [], .enqueue () 0 true]

theorem backlog_conservation_two_frames :
    ∃ s, run (step twoCpus) (init fun _ => none) twoFrames = some s ∧
      onCpu 1 s.delivered = [⟨10, some ((), 4)⟩] ∧ s.waiting 1 = [⟨11, some ((), 4)⟩] ∧
      (onCpu 1 s.delivered ++ onCpu 1 s.flushed ++ s.waiting 1).Perm (onCpu 1 s.accepted) := by
  obtain ⟨s, hs, hdelivered, hwaiting⟩ :
      ∃ s, run (step twoCpus) (init fun _ => none) twoFrames = some s ∧
        onCpu 1 s.delivered = [⟨10, some ((), 4)⟩] ∧ s.waiting 1 = [⟨11, some ((), 4)⟩] :=
    ⟨_, rfl, by decide, by decide⟩
  exact ⟨s, hs, hdelivered, hwaiting, (backlog_conservation hs 1).1⟩

end Backlogs

end CrosRt
