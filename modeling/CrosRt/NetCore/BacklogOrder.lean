import CrosRt.Foundations.TicketLanes
import CrosRt.NetCore.BacklogAccounts

/-! # A flow stays in order when it changes CPU

`get_rps_cpu` sends an entry of a flow table to another CPU only when the head of the queue of its CPU
has passed `last_qtail`. Heads and tails are counters of 32 bits compared through the sign of their
difference; behind them stand the counts of the lanes of `TicketLanes`, which never wrap, and a queue
holds so few frames that the sign tells the same.
-/

namespace CrosRt
set_option autoImplicit false

open LabelledRuns TicketLanes

/-- The sign of a difference of counters tells which count is ahead, where it is ahead by less than
half of the range. -/
theorem toInt_ofNat_sub_neg {a b : ℕ} (hlt : a < b) (hnear : b - a < 2 ^ 31) :
    (BitVec.ofNat 32 a - BitVec.ofNat 32 b).toInt < 0 := by
  rw [BitVec.toInt_neg_iff, BitVec.toNat_sub, BitVec.toNat_ofNat, BitVec.toNat_ofNat]
  omega

namespace Queues
variable {n : ℕ} {Skb R : Type} [DecidableEq R] {cfg : RpsConfig n Skb R} {q q' : Queues n Skb R}

def flowOf (x : BacklogSkb Skb R) : Option (RpsEntry R) := x.rflow

/-- The lane behind the queue of a CPU. -/
structure LaneOf (cfg : RpsConfig n Skb R) (v : CpuQueue Skb R) (queue : List (BacklogSkb Skb R))
    (served issued : ℕ) : Prop where
  queue : queue = v.frames
  head : v.head = BitVec.ofNat 32 served
  tail : v.tail = BitVec.ofNat 32 issued
  count : served + v.frames.length + v.owed = issued
  room : v.frames.length + v.owed ≤ 2 * cfg.netdevMaxBacklog + 2

/-- The lanes behind the queues. -/
structure LanesOf (cfg : RpsConfig n Skb R) (q : Queues n Skb R)
    (l : Lanes (Fin n) (RpsEntry R) (BacklogSkb Skb R)) : Prop where
  cpu : ∀ c, LaneOf cfg (q.cpu c) (l.queue c) (l.served c) (l.issued c)
  lane : ∀ e, l.lane e = Backlogs.onlineCpu cfg (q.flows e.1 e.2).cpu
  ticket : ∀ e c, l.lane e = some c →
    (q.flows e.1 e.2).lastQtail = BitVec.ofNat 32 (l.ticket e) ∧ l.ticket e ≤ l.issued c
  steered : ∀ r x c, q.rx r = .enqueue x c → cfg.online c = true ∧
    ∀ e, x.rflow = some e → e.1 = r ∧ (q.flows e.1 e.2).cpu = c.val
  accepted : l.accepted = q.accepted.map Prod.snd
  delivered : l.delivered = q.delivered.map Prod.snd

omit [DecidableEq R] in
theorem onlineCpu_val {c : Fin n} (h : cfg.online c = true) :
    Backlogs.onlineCpu cfg c.val = some c := by
  unfold Backlogs.onlineCpu
  rw [dif_pos c.isLt, if_pos h]

section Flows

theorem setFlow_self (flows : R → BitVec 32 → RpsDevFlow) (e : RpsEntry R) (f : RpsDevFlow) :
    setFlow flows e f e.1 e.2 = f := by
  rw [setFlow, Function.update_self, Function.update_self]

theorem setFlow_of_ne (flows : R → BitVec 32 → RpsDevFlow) {e g : RpsEntry R} (h : g ≠ e)
    (f : RpsDevFlow) : setFlow flows e f g.1 g.2 = flows g.1 g.2 := by
  unfold setFlow
  by_cases h₁ : g.1 = e.1
  · have h₂ : g.2 ≠ e.2 := fun h₂ => h (Prod.ext h₁ h₂)
    rw [h₁, Function.update_self, Function.update_of_ne h₂]
  · rw [Function.update_of_ne h₁]

theorem saveTail_cpu (flows : R → BitVec 32 → RpsDevFlow) (rflow : Option (RpsEntry R))
    (tail : BitVec 32) (e : RpsEntry R) :
    (saveTail flows rflow tail e.1 e.2).cpu = (flows e.1 e.2).cpu := by
  cases rflow with
  | none => rfl
  | some g =>
    show (setFlow flows g _ e.1 e.2).cpu = _
    by_cases h : e = g
    · subst h
      rw [setFlow_self]
    · rw [setFlow_of_ne flows h]

theorem saveTail_lastQtail (flows : R → BitVec 32 → RpsDevFlow) (rflow : Option (RpsEntry R))
    (tail : BitVec 32) (e : RpsEntry R) :
    (saveTail flows rflow tail e.1 e.2).lastQtail =
      if rflow = some e then tail else (flows e.1 e.2).lastQtail := by
  cases rflow with
  | none => rfl
  | some g =>
    show (setFlow flows g _ e.1 e.2).lastQtail = _
    by_cases h : e = g
    · subst h
      rw [setFlow_self, if_pos rfl]
    · rw [setFlow_of_ne flows h, if_neg fun he => h (Option.some.inj he).symm]

end Flows

variable {l : Lanes (Fin n) (RpsEntry R) (BacklogSkb Skb R)}

/-! ## The steps -/

theorem LanesOf.accept (h : q.LanesOf cfg l) {c : Fin n} {x : BacklogSkb Skb R}
    (hroom : (q.cpu c).frames.length + (q.cpu c).owed ≤ 2 * cfg.netdevMaxBacklog + 1)
    (hlane : ∀ e, x.rflow = some e → l.lane e = some c) :
    (q.accept c x).LanesOf cfg { l with
      queue := Function.update l.queue c (l.queue c ++ [x])
      issued := Function.update l.issued c (l.issued c + 1)
      ticket := fun e => if flowOf x = some e then l.issued c + 1 else l.ticket e
      accepted := l.accepted ++ [x] } := by
  have htail : (q.cpu c).tail + 1 = BitVec.ofNat 32 (l.issued c + 1) := by
    rw [(h.cpu c).tail, BitVec.ofNat_add]
    rfl
  refine ⟨fun d => ?_, fun e => ?_, fun e d he => ?_, fun r y d hy => ?_, ?_, h.delivered⟩
  · simp only [Queues.accept]
    by_cases hd : d = c
    · subst hd
      simp only [Function.update_self]
      have hcount := (h.cpu d).count
      refine ⟨?_, (h.cpu d).head, htail, ?_, ?_⟩
      · rw [(h.cpu d).queue]
      · rw [List.length_append, List.length_singleton]
        dsimp only
        omega
      · rw [List.length_append, List.length_singleton]
        dsimp only
        omega
    · simp only [Function.update_of_ne hd]
      exact h.cpu d
  · show l.lane e = Backlogs.onlineCpu cfg (saveTail q.flows x.rflow _ e.1 e.2).cpu
    rw [saveTail_cpu]
    exact h.lane e
  · show (saveTail q.flows x.rflow _ e.1 e.2).lastQtail = _ ∧ _
    rw [saveTail_lastQtail]
    have he : l.lane e = some d := he
    by_cases hx : x.rflow = some e
    · obtain rfl : c = d := Option.some.inj ((hlane e hx).symm.trans he)
      simp only [flowOf, hx, if_true, Function.update_self]
      exact ⟨htail, le_rfl⟩
    · simp only [flowOf, hx, if_false]
      obtain ⟨hq, hle⟩ := h.ticket e d he
      refine ⟨hq, ?_⟩
      by_cases hd : d = c
      · subst hd
        rw [Function.update_self]
        exact hle.trans (Nat.le_succ _)
      · rwa [Function.update_of_ne hd]
  · obtain ⟨hon, hentry⟩ := h.steered r y d hy
    refine ⟨hon, fun e he => ?_⟩
    show e.1 = r ∧ (saveTail q.flows x.rflow _ e.1 e.2).cpu = d.val
    rw [saveTail_cpu]
    exact hentry e he
  · show l.accepted ++ [x] = (q.accepted ++ [(c, x)]).map Prod.snd
    rw [List.map_append, h.accepted]
    rfl

omit [DecidableEq R] in
/-- A CPU gets a new queue; the tables and the contexts stay. -/
theorem LanesOf.change_cpu (h : q.LanesOf cfg l) {c : Fin n} {v : CpuQueue Skb R} {served : ℕ}
    {log : List (Fin n × BacklogSkb Skb R)} {xs : List (BacklogSkb Skb R)}
    (hv : LaneOf cfg v v.frames served (l.issued c)) (hlog : xs = log.map Prod.snd) :
    ({ q with cpu := Function.update q.cpu c v, delivered := log } : Queues n Skb R).LanesOf cfg
      { l with
        queue := Function.update l.queue c v.frames
        served := Function.update l.served c served
        delivered := xs } := by
  refine { h with cpu := fun d => ?_, delivered := hlog }
  dsimp only
  by_cases hd : d = c
  · subst hd
    simpa only [Function.update_self] using hv
  · simpa only [Function.update_of_ne hd] using h.cpu d

theorem LanesOf.switch (h : q.LanesOf cfg l) {e : RpsEntry R} {nextCpu : ℕ}
    {lastQtail : BitVec 32} (hidle : q.rx e.1 = .idle)
    (hticket : ∀ c : Fin n, nextCpu = c.val → lastQtail = (q.cpu c).head) :
    ({ q with flows := setFlow q.flows e ⟨nextCpu, lastQtail⟩ } : Queues n Skb R).LanesOf cfg
      { l with
        lane := Function.update l.lane e (Backlogs.onlineCpu cfg nextCpu)
        ticket := Function.update l.ticket e
          ((Backlogs.onlineCpu cfg nextCpu).elim 0 fun c => l.served c) } := by
  refine { h with lane := fun g => ?_, ticket := fun g c hg => ?_, steered := fun r x c hx => ?_ }
  · dsimp only
    by_cases hge : g = e
    · subst hge
      rw [Function.update_self, setFlow_self]
    · rw [Function.update_of_ne hge, setFlow_of_ne _ hge]
      exact h.lane g
  · dsimp only at hg ⊢
    by_cases hge : g = e
    · subst hge
      rw [Function.update_self] at hg
      rw [Function.update_self, setFlow_self, hg]
      refine ⟨(hticket c (Backlogs.onlineCpu_eq_some hg).2).trans (h.cpu c).head, ?_⟩
      have := (h.cpu c).count
      show l.served c ≤ l.issued c
      omega
    · rw [Function.update_of_ne hge] at hg
      rw [Function.update_of_ne hge, setFlow_of_ne _ hge]
      exact h.ticket g c hg
  · obtain ⟨hon, hentry⟩ := h.steered r x c hx
    refine ⟨hon, fun g hg => ?_⟩
    obtain ⟨hr, hcpu⟩ := hentry g hg
    -- The entry of a frame on its way belongs to a receive queue that is not idle.
    have hge : g ≠ e := by
      rintro rfl
      have hrx : q.rx r = .enqueue x c := hx
      rw [← hr, hidle] at hrx
      cases hrx
    dsimp only
    rw [setFlow_of_ne _ hge]
    exact ⟨hr, hcpu⟩

omit [DecidableEq R] in
/-- The test of `get_rps_cpu` lets an entry go only when its ticket is served. -/
theorem LanesOf.served (h : q.LanesOf cfg l) (hsmall : 2 * cfg.netdevMaxBacklog + 2 < 2 ^ 31)
    {e : RpsEntry R} (hmay : ∀ c : Fin n, (q.flows e.1 e.2).cpu = c.val → cfg.online c = true →
      0 ≤ ((q.cpu c).head - (q.flows e.1 e.2).lastQtail).toInt) (c : Fin n)
    (hc : l.lane e = some c) : l.ticket e ≤ l.served c := by
  obtain ⟨hon, hcpu⟩ := Backlogs.onlineCpu_eq_some ((h.lane e).symm.trans hc)
  obtain ⟨hticket, hle⟩ := h.ticket e c hc
  by_contra hlt
  have hneg := toInt_ofNat_sub_neg (Nat.lt_of_not_le hlt) (by
    have := (h.cpu c).count
    have := (h.cpu c).room
    omega)
  have hnonneg := hmay c hcpu hon
  rw [(h.cpu c).head, hticket] at hnonneg
  omega

theorem LanesOf.setRx (h : q.LanesOf cfg l) (r : R) (pc : RxPc n Skb R)
    (hpc : ∀ x c, pc = .enqueue x c → cfg.online c = true ∧
      ∀ e, x.rflow = some e → e.1 = r ∧ (q.flows e.1 e.2).cpu = c.val) :
    ({ q with rx := Function.update q.rx r pc } : Queues n Skb R).LanesOf cfg l := by
  refine { h with steered := fun r' x c hx => ?_ }
  dsimp only at hx
  by_cases hr : r' = r
  · subst hr
    rw [Function.update_self] at hx
    exact hpc x c hx
  · rw [Function.update_of_ne hr] at hx
    exact h.steered r' x c hx

/-- **The queues refine the lanes**, as long as no frame is flushed. -/
theorem LanesOf.step (h : q.LanesOf cfg l) (hsmall : 2 * cfg.netdevMaxBacklog + 2 < 2 ^ 31)
    (hst : Step cfg q q') (hno : q'.flushed = []) :
    ∃ l', q'.LanesOf cfg l' ∧ Relation.ReflTransGen (TicketLanes.Step flowOf) l l' := by
  cases hst with
  | switch e nextCpu lastQtail hidle hmay hticket =>
    exact ⟨_, h.switch hidle hticket, .single (.switch e _ _ (h.served hsmall hmay))⟩
  | steer r x c hidle honline hentry =>
    refine ⟨l, h.setRx r _ fun y d hy => ?_, .refl⟩
    obtain ⟨rfl, rfl⟩ := RxPc.enqueue.inj hy
    exact ⟨honline, hentry⟩
  | refuse r => exact ⟨l, h.setRx r .idle nofun, .refl⟩
  | accept r x c hrx hroom =>
    obtain ⟨hon, hentry⟩ := h.steered r x c hrx
    have hlane : ∀ e, x.rflow = some e → l.lane e = some c := by
      intro e he
      rw [h.lane, (hentry e he).2, onlineCpu_val hon]
    exact ⟨_, (h.accept hroom hlane).setRx r .idle nofun, .single (.join c x hlane)⟩
  | netifRx skb c honline hroom =>
    exact ⟨_, h.accept hroom nofun, .single (.join c _ nofun)⟩
  | deliver c x rest hframes howed =>
    have hc := h.cpu c
    have hcount := hc.count
    have hroom := hc.room
    rw [hframes, howed, List.length_cons] at hcount hroom
    have hlane : LaneOf cfg { q.cpu c with frames := rest, owed := 1 } rest (l.served c)
        (l.issued c) := by
      refine ⟨rfl, hc.head, hc.tail, ?_, ?_⟩
      · dsimp only
        omega
      · dsimp only
        omega
    have hlog : l.delivered ++ [x] = (q.delivered ++ [(c, x)]).map Prod.snd := by
      rw [h.delivered, List.map_append]
      rfl
    have hv := h.change_cpu hlane hlog
    rw [Function.update_eq_self] at hv
    exact ⟨_, hv, .single (.deliver c x rest (hc.queue.trans hframes))⟩
  | count c howed =>
    have hc := h.cpu c
    have hcount := hc.count
    have hroom := hc.room
    rw [howed] at hcount hroom
    have hlane : LaneOf cfg { q.cpu c with head := (q.cpu c).head + 1, owed := 0 }
        (q.cpu c).frames (l.served c + 1) (l.issued c) := by
      refine ⟨rfl, ?_, hc.tail, ?_, ?_⟩
      · dsimp only
        rw [hc.head, BitVec.ofNat_add]
        rfl
      · dsimp only
        omega
      · dsimp only
        omega
    have hv := h.change_cpu hlane h.delivered
    dsimp only at hv
    have hqueue : Function.update l.queue c (q.cpu c).frames = l.queue := by
      rw [← hc.queue, Function.update_eq_self]
    rw [hqueue] at hv
    refine ⟨_, hv, .single (.serve c ?_)⟩
    rw [hc.queue]
    omega
  | flush c kept gone hsub hperm =>
    -- Nothing was flushed, so that the queue is what it was.
    obtain rfl : gone = [] := by
      have := (List.append_eq_nil_iff.mp hno).2
      exact List.map_eq_nil_iff.mp this
    have hkept : kept = (q.cpu c).frames := by
      refine hsub.eq_of_length ?_
      rw [← hperm.length_eq, List.append_nil]
    subst hkept
    have hhead : (q.cpu c).head + BitVec.ofNat 32 ([] : List (BacklogSkb Skb R)).length =
        (q.cpu c).head := BitVec.add_zero _
    have hcpu : Function.update q.cpu c { q.cpu c with
        frames := (q.cpu c).frames
        head := (q.cpu c).head + BitVec.ofNat 32 ([] : List (BacklogSkb Skb R)).length } =
        q.cpu := by
      rw [hhead]
      exact Function.update_eq_self c q.cpu
    refine ⟨l, ?_, .refl⟩
    rw [hcpu]
    exact { h with }

/-- What was flushed stays flushed. -/
theorem flushed_step (hst : Step cfg q q') : q.flushed <+: q'.flushed := by
  cases hst with
  | switch | steer | refuse | accept | netifRx | deliver | count => exact List.prefix_rfl
  | flush => exact List.prefix_append _ _

theorem LanesOf.reach (hsmall : 2 * cfg.netdevMaxBacklog + 2 < 2 ^ 31) (h : q.LanesOf cfg l)
    (ho : InOrder flowOf l) (hst : Relation.ReflTransGen (Step cfg) q q')
    (hno : q'.flushed = []) : ∃ l', q'.LanesOf cfg l' ∧ InOrder flowOf l' := by
  induction hst with
  | refl => exact ⟨l, h, ho⟩
  | tail _ hst ih =>
    have hno' := List.prefix_nil.mp (hno ▸ flushed_step hst)
    obtain ⟨l₁, h₁, ho₁⟩ := ih hno'
    obtain ⟨l₂, h₂, hreach⟩ := h₁.step hsmall hst hno
    exact ⟨l₂, h₂, ho₁.run hreach⟩

end Queues

namespace Backlogs
variable {n : ℕ} {Skb R : Type} [DecidableEq R] {cfg : RpsConfig n Skb R} {s : Backlogs n Skb R}

/-- The lanes at the start; no entry has a CPU. -/
def emptyLanes (cfg : RpsConfig n Skb R) : Lanes (Fin n) (RpsEntry R) (BacklogSkb Skb R) where
  queue _ := []
  served _ := 0
  issued _ := 0
  lane _ := onlineCpu cfg 0xffff
  ticket _ := 0
  accepted := []
  delivered := []

omit [DecidableEq R] in
theorem lanesOf_init (limits : Fin n → Option FlowLimit) :
    (init limits : Backlogs n Skb R).queues.LanesOf cfg (emptyLanes cfg) where
  cpu _ := ⟨rfl, rfl, rfl, rfl, Nat.zero_le _⟩
  lane _ := rfl
  ticket _ _ _ := ⟨rfl, le_rfl⟩
  steered := nofun
  accepted := rfl
  delivered := rfl

theorem inOrder_emptyLanes : InOrder Queues.flowOf (emptyLanes cfg) where
  counted _ := le_rfl
  lane := nofun
  ticket _ pre _ _ _ hq _ := absurd hq (by simp [emptyLanes])
  order _ := by
    unfold TicketLanes.waiting
    split <;> rfl

/-- The frames of a record that came through an entry. -/
def through (e : RpsEntry R) (log : List (Fin n × BacklogSkb Skb R)) : List (BacklogSkb Skb R) :=
  (log.map Prod.snd).filter fun x => x.rflow = some e

/-- **In order across CPUs.** In every run in which no frame is flushed, where the backlogs hold fewer
than `2 ^ 31` frames: the frames that came through an entry of a flow table are delivered in the order
in which they were accepted, on whatever CPUs; and those still waiting wait on the CPU of the entry. A
receive queue has one frame between `get_rps_cpu` and `enqueue_to_backlog` at a time, so two CPUs never
go through one entry at once, and the hardware does not steer. -/
theorem steered_in_order {limits : Fin n → Option FlowLimit} {es : List (BacklogEvent n Skb R)}
    (hsmall : 2 * cfg.netdevMaxBacklog + 2 < 2 ^ 31)
    (h : run (step cfg) (init limits) es = some s) (hno : s.flushed = []) (e : RpsEntry R) :
    through e s.delivered <+: through e s.accepted ∧
      ∀ c, ∀ x ∈ s.waiting c, x.rflow = some e → (s.flows e.1 e.2).cpu = c.val := by
  obtain ⟨-, hreach⟩ := queues_run (bounded_init limits) h
  obtain ⟨l, hl, ho⟩ := (lanesOf_init limits).reach hsmall inOrder_emptyLanes hreach hno
  refine ⟨?_, fun c x hx he => ?_⟩
  · have := ho.in_order e
    rw [hl.accepted, hl.delivered] at this
    exact this
  · have hmem : x ∈ l.queue c := by
      rw [(hl.cpu c).queue]
      exact hx
    have hlane := ho.lane c x hmem e he
    exact (onlineCpu_eq_some ((hl.lane e).symm.trans hlane)).2

/-- The flow goes from CPU 0 to CPU 1 once its first frame is delivered and counted; `c` is CPU 0. -/
def movedFlow (c : Fin 2) : List (BacklogEvent 2 ℕ Unit) :=
  [.steer () 10 (some 4) [], .enqueue () c true, .softirq c, .poll c, .netRx c, .netRx c, .netRx c,
    .netRx c, .netRx c, .netRx c, .steer () 11 (some 5) [], .enqueue () c true]

theorem steered_in_order_moved_flow :
    ∃ s, run (step twoCpus) (init fun _ => none) (movedFlow 0) = some s ∧
      through ((), 4) s.delivered = [⟨10, some ((), 4)⟩] ∧ (s.flows () 4).cpu = 1 ∧
      s.waiting 1 = [⟨11, some ((), 4)⟩] ∧
      through ((), 4) s.delivered <+: through ((), 4) s.accepted := by
  obtain ⟨s, hs, hno, hdelivered, hcpu, hwaiting⟩ :
      ∃ s, run (step twoCpus) (init fun _ => none) (movedFlow 0) = some s ∧ s.flushed = [] ∧
        through ((), 4) s.delivered = [⟨10, some ((), 4)⟩] ∧ (s.flows () 4).cpu = 1 ∧
        s.waiting 1 = [⟨11, some ((), 4)⟩] :=
    ⟨_, rfl, by decide, by decide, by decide, by decide⟩
  exact ⟨s, hs, hdelivered, hcpu, hwaiting,
    (steered_in_order (by decide) hs hno ((), 4)).1⟩

end Backlogs

end CrosRt
