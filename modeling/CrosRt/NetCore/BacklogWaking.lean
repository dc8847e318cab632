import CrosRt.NetCore.BacklogAccounts
import Mathlib.Algebra.Order.BigOperators.Group.Finset
import Mathlib.Data.Fintype.BigOperators

/-! # Nobody forgets a backlog

A scheduled backlog is a token: it lies on a list of its CPU, is being polled there, waits on the list
of calls of one CPU or in the hands of one that sends them, or is on its way as an interrupt. Counting
all of these over all CPUs gives one for a scheduled backlog and none for another.
-/

namespace CrosRt
set_option autoImplicit false

open LabelledRuns

/-- A sum in which one summand changes. -/
theorem sum_add_of_eq_off {n : ℕ} {f g : Fin n → ℕ} (h : Fin n) (hne : ∀ d ≠ h, g d = f d) :
    ∑ d, g d + f h = ∑ d, f d + g h := by
  have hf := Finset.add_sum_erase Finset.univ f (Finset.mem_univ h)
  have hg := Finset.add_sum_erase Finset.univ g (Finset.mem_univ h)
  have hrest : ∑ d ∈ Finset.univ.erase h, g d = ∑ d ∈ Finset.univ.erase h, f d :=
    Finset.sum_congr rfl fun d hd => hne d (Finset.ne_of_mem_erase hd)
  omega

namespace NetRxPc
variable {n : ℕ} {Skb R : Type}

/-- `process_backlog` is running. -/
def polls : NetRxPc n Skb R → Bool
  | .processBacklog | .sendIpi _ true | .dequeue _ | .receive _ _ | .headIncr _ | .refill _ => true
  | _ => false

/-- `net_rx_action` has not come to its last splices. -/
def active : NetRxPc n Skb R → Bool
  | .loop => true
  | pc => pc.polls

/-- The calls in the hands of `net_rps_send_ipi`. -/
def sending : NetRxPc n Skb R → List (Fin n)
  | .sendIpi remsd _ => remsd
  | _ => []

/-- The frames delivered so far by the poll. -/
def work : NetRxPc n Skb R → ℕ
  | .dequeue work | .receive _ work | .headIncr work | .refill work => work
  | _ => 0

end NetRxPc

namespace Backlogs
variable {n : ℕ} {Skb R : Type}

/-! ## The tokens -/

/-- What a CPU `h` holds of the backlog of `c`. -/
def share (sd : SoftnetData n Skb R) (pc : NetRxPc n Skb R) (h c : Fin n) : ℕ :=
  (if h = c then sd.linked.length + pc.polls.toNat else 0) + sd.rpsIpiList.count c +
    pc.sending.count c

def tokens (s : Backlogs n Skb R) (c : Fin n) : ℕ :=
  ∑ h, share (s.sd h) (s.netRx h) h c + (s.ipi c).toNat

/-- What holds at one CPU. -/
structure CpuAwake (cfg : RpsConfig n Skb R) (sd : SoftnetData n Skb R) (pc : NetRxPc n Skb R)
    (raised : Bool) : Prop where
  sched : pc.inHand ++ sd.processQueue ++ sd.inputPktQueue ≠ [] → sd.sched = true
  pollList : .pollList ∈ sd.linked → raised = true
  lists : .list ∈ sd.linked ∨ .repoll ∈ sd.linked → pc.active = true
  calls : sd.rpsIpiList ≠ [] → (raised || pc.active) = true
  online : ∀ c, c ∈ sd.rpsIpiList ∨ c ∈ pc.sending → cfg.online c = true
  work : pc.work < cfg.devRxWeight

structure Awake (cfg : RpsConfig n Skb R) (s : Backlogs n Skb R) : Prop where
  token : ∀ c, s.tokens c = (s.sd c).sched.toNat
  cpu : ∀ c, CpuAwake cfg (s.sd c) (s.netRx c) (s.raised c)
  steered : ∀ r x c, s.rx r = .enqueue x c → cfg.online c = true

variable {cfg : RpsConfig n Skb R} {s t : Backlogs n Skb R} {c : Fin n}

theorem awake_init (limits : Fin n → Option FlowLimit) :
    Awake cfg (init limits : Backlogs n Skb R) where
  token c := by
    have hzero : ∀ h, share ((init limits : Backlogs n Skb R).sd h) .idle h c = 0 := by
      intro h
      unfold share
      split <;> rfl
    show ∑ h, share ((init limits : Backlogs n Skb R).sd h) .idle h c + 0 = 0
    simp only [hzero, Finset.sum_const_zero]
  cpu _ := {
    sched := fun h => absurd rfl h
    pollList := nofun
    lists := by rintro (h | h) <;> cases h
    calls := fun h => absurd rfl h
    online := by rintro _ (h | h) <;> cases h
    work := cfg.weight_pos }
  steered := nofun

/-- One CPU changes. -/
theorem tokens_of_eq_off {h : Fin n} (hsd : ∀ d ≠ h, t.sd d = s.sd d)
    (hpc : ∀ d ≠ h, t.netRx d = s.netRx d) (c : Fin n) :
    t.tokens c + share (s.sd h) (s.netRx h) h c + (s.ipi c).toNat =
      s.tokens c + share (t.sd h) (t.netRx h) h c + (t.ipi c).toNat := by
  have hsum := sum_add_of_eq_off (f := fun d => share (s.sd d) (s.netRx d) d c)
    (g := fun d => share (t.sd d) (t.netRx d) d c) h fun d hd => by
      rw [hsd d hd, hpc d hd]
  unfold tokens
  omega

/-- One CPU changes and holds what it held. -/
theorem Awake.change (ha : Awake cfg s) {h : Fin n} (hsd : ∀ d ≠ h, t.sd d = s.sd d)
    (hpc : ∀ d ≠ h, t.netRx d = s.netRx d) (hraised : ∀ d ≠ h, t.raised d = s.raised d)
    (hrx : ∀ r x c, t.rx r = .enqueue x c → cfg.online c = true) (hipi : t.ipi = s.ipi)
    (hcpu : CpuAwake cfg (t.sd h) (t.netRx h) (t.raised h))
    (htoken : ∀ c, share (t.sd h) (t.netRx h) h c + (if h = c then (s.sd h).sched.toNat else 0) =
      share (s.sd h) (s.netRx h) h c + if h = c then (t.sd h).sched.toNat else 0) :
    Awake cfg t where
  token c := by
    have htok := tokens_of_eq_off (s := s) (t := t) hsd hpc c
    have hold := ha.token c
    have hshare := htoken c
    rw [hipi] at htok
    by_cases hc : h = c
    · subst hc
      rw [if_pos rfl, if_pos rfl] at hshare
      omega
    · rw [if_neg hc, if_neg hc] at hshare
      rw [hsd c (Ne.symm hc)]
      omega
  cpu d := by
    by_cases hd : d = h
    · subst hd
      exact hcpu
    · rw [hsd d hd, hpc d hd, hraised d hd]
      exact ha.cpu d
  steered := hrx

theorem Awake.modify_goto (ha : Awake cfg s) {f : SoftnetData n Skb R → SoftnetData n Skb R}
    {p : NetRxPc n Skb R} (hcpu : CpuAwake cfg (f (s.sd c)) p (s.raised c))
    (htoken : ∀ d, share (f (s.sd c)) p c d + (if c = d then (s.sd c).sched.toNat else 0) =
      share (s.sd c) (s.netRx c) c d + if c = d then (f (s.sd c)).sched.toNat else 0) :
    Awake cfg ((s.modify c f).goto c p) := by
  refine ha.change (h := c) (fun d hd => modify_sd_of_ne s c hd f)
    (fun d hd => goto_netRx_of_ne _ c hd p) (fun _ _ => rfl) ha.steered rfl ?_ ?_
  · rw [goto_netRx_self, goto_sd, modify_sd_self]
    exact hcpu
  · rw [goto_netRx_self, goto_sd, modify_sd_self]
    exact htoken

theorem Awake.modify (ha : Awake cfg s) {f : SoftnetData n Skb R → SoftnetData n Skb R}
    (hcpu : CpuAwake cfg (f (s.sd c)) (s.netRx c) (s.raised c))
    (htoken : ∀ d, share (f (s.sd c)) (s.netRx c) c d +
        (if c = d then (s.sd c).sched.toNat else 0) =
      share (s.sd c) (s.netRx c) c d + if c = d then (f (s.sd c)).sched.toNat else 0) :
    Awake cfg (s.modify c f) := by
  refine ha.change (h := c) (fun d hd => modify_sd_of_ne s c hd f) (fun _ _ => rfl)
    (fun _ _ => rfl) ha.steered rfl ?_ ?_
  · rw [modify_sd_self]
    exact hcpu
  · rw [modify_sd_self]
    exact htoken

theorem Awake.goto (ha : Awake cfg s) {p : NetRxPc n Skb R}
    (hcpu : CpuAwake cfg (s.sd c) p (s.raised c))
    (htoken : ∀ d, share (s.sd c) p c d = share (s.sd c) (s.netRx c) c d) :
    Awake cfg (s.goto c p) := by
  refine ha.change (h := c) (fun _ _ => rfl) (fun d hd => goto_netRx_of_ne s c hd p)
    (fun _ _ => rfl) ha.steered rfl ?_ ?_
  · rw [goto_netRx_self, goto_sd]
    exact hcpu
  · intro d
    rw [goto_netRx_self, goto_sd, htoken d]

theorem share_le_tokens (s : Backlogs n Skb R) (h c : Fin n) :
    share (s.sd h) (s.netRx h) h c + (s.ipi c).toNat ≤ s.tokens c := by
  have := Finset.single_le_sum (f := fun h => share (s.sd h) (s.netRx h) h c)
    (fun _ _ => Nat.zero_le _) (Finset.mem_univ h)
  unfold tokens
  omega

/-- Who holds a backlog holds all of it. -/
theorem Awake.sched_of_share (ha : Awake cfg s) {h : Fin n}
    (hshare : 0 < share (s.sd h) (s.netRx h) h c) :
    (s.sd c).sched = true ∧ share (s.sd h) (s.netRx h) h c = 1 ∧ s.ipi c = false := by
  have hle := s.share_le_tokens h c
  have htoken := ha.token c
  cases hs : (s.sd c).sched with
  | false =>
    rw [hs, Bool.toNat_false] at htoken
    omega
  | true =>
    rw [hs, Bool.toNat_true] at htoken
    refine ⟨rfl, by omega, ?_⟩
    cases hi : s.ipi c with
    | false => rfl
    | true =>
      rw [hi, Bool.toNat_true] at hle
      omega

theorem Awake.sched_of_polls (ha : Awake cfg s) (hp : (s.netRx c).polls = true) :
    (s.sd c).sched = true ∧ (s.sd c).linked = [] := by
  have hpos : 0 < share (s.sd c) (s.netRx c) c c := by
    unfold share
    rw [if_pos rfl, hp, Bool.toNat_true]
    omega
  obtain ⟨hs, hone, -⟩ := ha.sched_of_share hpos
  refine ⟨hs, List.length_eq_zero_iff.mp ?_⟩
  unfold share at hone
  rw [if_pos rfl, hp, Bool.toNat_true] at hone
  omega

/-! ## Enqueueing -/

theorem Awake.drop (ha : Awake cfg s) : Awake cfg (s.drop c) :=
  ha.modify { ha.cpu c with } fun _ => rfl

/-- `____napi_schedule` of a backlog that nobody holds, with the bit set. -/
theorem Awake.wake_local (ha : Awake cfg s) (hs : (s.sd c).sched = false) :
    Awake cfg ((s.modify c fun sd => { sd with sched := true }).napiSchedule c) := by
  have hsd : ((s.modify c fun sd => { sd with sched := true }).napiSchedule c).sd c =
      { s.sd c with sched := true, linked := (s.sd c).linked ++ [.pollList] } := by
    rw [napiSchedule_sd, modify_sd_self, modify_sd_self]
  have hcpu := ha.cpu c
  refine ha.change (h := c) (fun d hd => ?_) (fun _ _ => rfl)
    (fun d hd => Function.update_of_ne hd ..) ha.steered rfl ?_ ?_
  · rw [napiSchedule_sd, modify_sd_of_ne _ c hd, modify_sd_of_ne _ c hd]
  · have hraised : ((s.modify c fun sd => { sd with sched := true }).napiSchedule c).raised c =
        true := Function.update_self ..
    rw [hsd, hraised]
    refine ⟨fun _ => rfl, fun _ => rfl, fun hl => hcpu.lists ?_, fun _ => rfl, hcpu.online,
      hcpu.work⟩
    simpa using hl
  · intro d
    rw [hsd, hs]
    show share _ (s.netRx c) c d + _ = _
    unfold share
    dsimp only
    by_cases hd : c = d
    · simp only [if_pos hd, List.length_append, List.length_singleton, Bool.toNat_false,
        Bool.toNat_true]
      omega
    · simp only [if_neg hd]

theorem tokens_modify (s : Backlogs n Skb R) (c : Fin n)
    {f : SoftnetData n Skb R → SoftnetData n Skb R}
    (hf : ∀ sd (pc : NetRxPc n Skb R) h d, share (f sd) pc h d = share sd pc h d)
    (d : Fin n) : (s.modify c f).tokens d = s.tokens d := by
  have := tokens_of_eq_off (s := s) (t := s.modify c f) (h := c)
    (fun d hd => modify_sd_of_ne s c hd f) (fun _ _ => rfl) d
  rw [modify_sd_self, hf] at this
  have hipi : (s.modify c f).ipi = s.ipi := rfl
  rw [hipi, modify_netRx] at this
  omega

/-- `rps_ipi_queued` for a backlog that nobody holds, with the bit set. -/
theorem Awake.wake_remote (ha : Awake cfg s) {here cpu : Fin n} (hne : cpu ≠ here)
    (hs : (s.sd cpu).sched = false) (hon : cfg.online cpu = true) :
    Awake cfg ((s.modify cpu fun sd => { sd with sched := true }).rpsIpiQueued here cpu) := by
  set s₁ := s.modify cpu fun sd => { sd with sched := true } with hs₁
  have hcpu₁ : s₁.sd cpu = { s.sd cpu with sched := true } := modify_sd_self ..
  have hother₁ : ∀ d, d ≠ cpu → s₁.sd d = s.sd d := fun d hd => modify_sd_of_ne s cpu hd _
  have hhere : (s₁.rpsIpiQueued here cpu).sd here =
      { s.sd here with rpsIpiList := cpu :: (s.sd here).rpsIpiList } := by
    rw [rpsIpiQueued_sd, modify_sd_self, hother₁ here (Ne.symm hne)]
  have hother : ∀ d, d ≠ here → (s₁.rpsIpiQueued here cpu).sd d = s₁.sd d := by
    intro d hd
    rw [rpsIpiQueued_sd, modify_sd_of_ne s₁ here hd]
  have hraised : (s₁.rpsIpiQueued here cpu).raised here = true := Function.update_self ..
  refine ⟨fun d => ?_, fun d => ?_, ha.steered⟩
  · have htok := tokens_of_eq_off (s := s₁) (t := s₁.rpsIpiQueued here cpu) (h := here)
      hother (fun _ _ => rfl) d
    have htok₁ : s₁.tokens d = s.tokens d := by
      rw [hs₁, tokens_modify]
      exact fun _ _ _ _ => rfl
    have hipi : (s₁.rpsIpiQueued here cpu).ipi = s₁.ipi := rfl
    have hold := ha.token d
    have hshare : share ((s₁.rpsIpiQueued here cpu).sd here)
        ((s₁.rpsIpiQueued here cpu).netRx here) here d =
        share (s₁.sd here) (s₁.netRx here) here d + if cpu = d then 1 else 0 := by
      rw [hhere, hother₁ here (Ne.symm hne)]
      show share _ (s.netRx here) here d = share _ (s.netRx here) here d + _
      unfold share
      dsimp only
      rw [List.count_cons]
      simp only [beq_iff_eq]
      omega
    rw [hshare, htok₁, hold, hipi] at htok
    by_cases hd : cpu = d
    · subst hd
      rw [hother cpu hne, hcpu₁]
      rw [hs, if_pos rfl] at htok
      simp only [Bool.toNat_false, Bool.toNat_true] at htok ⊢
      omega
    · rw [if_neg hd] at htok
      by_cases hdh : d = here
      · subst hdh
        rw [hhere]
        dsimp only
        omega
      · rw [hother d hdh, hother₁ d (Ne.symm hd)]
        omega
  · by_cases hdh : d = here
    · subst hdh
      rw [hhere, hraised]
      have hc := ha.cpu d
      refine ⟨hc.sched, fun _ => rfl, hc.lists, fun _ => rfl, fun c hcm => ?_, hc.work⟩
      rcases hcm with hcm | hcm
      · rcases List.mem_cons.mp hcm with rfl | hcm
        · exact hon
        · exact hc.online c (Or.inl hcm)
      · exact hc.online c (Or.inr hcm)
    · have hr : (s₁.rpsIpiQueued here cpu).raised d = s.raised d := Function.update_of_ne hdh ..
      rw [hother d hdh, hr]
      by_cases hd : d = cpu
      · subst hd
        rw [hcpu₁]
        exact { ha.cpu d with sched := fun _ => rfl }
      · rw [hother₁ d hd]
        exact ha.cpu d

theorem Awake.wake (ha : Awake cfg s) (here : Fin n) {cpu : Fin n} (hon : cfg.online cpu = true) :
    Awake cfg (s.wake here cpu) ∧ ((s.wake here cpu).sd cpu).sched = true := by
  unfold Backlogs.wake
  split
  · rename_i hs
    exact ⟨ha, hs⟩
  · rename_i hs
    have hs : (s.sd cpu).sched = false := Bool.eq_false_iff.mpr hs
    dsimp only
    split
    · rename_i hne
      refine ⟨ha.wake_remote hne hs hon, ?_⟩
      rw [rpsIpiQueued_sd, modify_sd_of_ne _ here hne, modify_sd_self]
    · refine ⟨ha.wake_local hs, ?_⟩
      rw [napiSchedule_sd, modify_sd_self, modify_sd_self]

section Enqueueing
variable [DecidableEq R]

theorem Awake.queueTail (ha : Awake cfg s) {x : BacklogSkb Skb R} (hs : (s.sd c).sched = true) :
    Awake cfg (s.queueTail c x) := by
  have h₁ : Awake cfg (s.modify c fun sd => { sd with
      inputPktQueue := sd.inputPktQueue ++ [x] }) :=
    ha.modify { ha.cpu c with sched := fun _ => hs } fun _ => rfl
  have h₂ := h₁.modify (c := c) (f := fun sd => { sd with
    inputQueueTail := (s.sd c).inputQueueTail + 1 }) { h₁.cpu c with } fun _ => rfl
  unfold Backlogs.queueTail tailIncrSave
  dsimp only
  rw [modify_sd_self]
  obtain ⟨skb, rflow⟩ := x
  cases rflow with
  | none => exact { h₂ with }
  | some e => exact { h₂ with }

theorem Awake.enqueueToBacklog (ha : Awake cfg s) (here : Fin n) {cpu : Fin n}
    (hon : cfg.online cpu = true) (x : BacklogSkb Skb R) (running : Bool) :
    Awake cfg (s.enqueueToBacklog cfg here cpu x running) := by
  unfold Backlogs.enqueueToBacklog
  dsimp only
  split
  · split
    · generalize skbFlowLimit cfg.netdevMaxBacklog (s.sd here).flowLimit (cfg.hash x.skb)
        (s.sd cpu).inputPktQueue.length = limited
      have hlim : Awake cfg (s.modify here fun sd => { sd with flowLimit := limited.2 }) :=
        ha.modify { ha.cpu here with } fun _ => rfl
      have hlen := s.input_modify here cpu (f := fun sd => { sd with flowLimit := limited.2 })
        fun _ => rfl
      split
      · exact hlim.drop
      · split
        · obtain ⟨hw, hs⟩ := hlim.wake here hon
          exact hw.queueTail hs
        · -- The queue holds a frame, so that its backlog is scheduled.
          rename_i hne
          refine hlim.queueTail ((hlim.cpu cpu).sched ?_)
          rw [hlen]
          intro hnil
          exact hne (List.length_eq_zero_iff.mpr (List.append_eq_nil_iff.mp hnil).2)
    · exact ha.drop
  · exact ha.drop

end Enqueueing

/-! ## The softirq -/

theorem polls_active {pc : NetRxPc n Skb R} (h : pc.polls = true) : pc.active = true := by
  cases pc <;> first | rfl | exact h

/-- A poll that goes on. -/
theorem Awake.polling (ha : Awake cfg s) {f : SoftnetData n Skb R → SoftnetData n Skb R}
    {pc : NetRxPc n Skb R} (hp : (s.netRx c).polls = true) (hsend : (s.netRx c).sending = [])
    (hp' : pc.polls = true) (hsend' : pc.sending = []) (hwork : pc.work < cfg.devRxWeight)
    (hf : (f (s.sd c)).sched = (s.sd c).sched ∧ (f (s.sd c)).linked = (s.sd c).linked ∧
      (f (s.sd c)).rpsIpiList = (s.sd c).rpsIpiList) :
    Awake cfg ((s.modify c f).goto c pc) := by
  obtain ⟨hs, hl⟩ := ha.sched_of_polls hp
  obtain ⟨hfs, hfl, hfr⟩ := hf
  have hactive := polls_active hp'
  refine ha.modify_goto ⟨fun _ => hfs.trans hs, ?_, fun _ => hactive, fun _ => ?_, fun d hd => ?_,
    hwork⟩ fun d => ?_
  · rw [hfl]
    exact (ha.cpu c).pollList
  · rw [hactive, Bool.or_true]
  · rw [hfr, hsend'] at hd
    exact (ha.cpu c).online d (hd.imp id fun h => absurd h List.not_mem_nil)
  · unfold share
    rw [hfs, hfl, hfr, hp, hp', hsend, hsend']

theorem Awake.polling_goto (ha : Awake cfg s) {p : NetRxPc n Skb R}
    (hp : (s.netRx c).polls = true) (hsend : (s.netRx c).sending = []) (hp' : p.polls = true)
    (hsend' : p.sending = []) (hwork : p.work < cfg.devRxWeight) : Awake cfg (s.goto c p) := by
  have hid : s.modify c id = s := by
    unfold Backlogs.modify
    rw [id, Function.update_eq_self]
  have := ha.polling (f := id) hp hsend hp' hsend' hwork ⟨rfl, rfl, rfl⟩
  rwa [hid] at this

/-- The poll is over with its weight used up: the backlog is put on `repoll`. -/
theorem Awake.pollReturns_full (ha : Awake cfg s) (hp : (s.netRx c).polls = true)
    (hsend : (s.netRx c).sending = []) {work : ℕ} (hfull : cfg.devRxWeight ≤ work) :
    Awake cfg (s.pollReturns cfg c work) := by
  obtain ⟨hs, hl⟩ := ha.sched_of_polls hp
  unfold Backlogs.pollReturns
  rw [if_neg (Nat.not_lt.mpr hfull)]
  refine ha.modify_goto ⟨fun _ => hs, ?_, fun _ => rfl, fun _ => Bool.or_true _, fun d hd => ?_,
    cfg.weight_pos⟩ fun d => ?_
  · intro hm
    rw [hl] at hm
    cases hm with
    | tail _ h => cases h
  · exact (ha.cpu c).online d (hd.imp id fun h => absurd h List.not_mem_nil)
  · unfold share
    rw [hp, hsend]
    by_cases hd : c = d
    · simp only [if_pos hd, List.length_append, List.length_singleton]
      rfl
    · simp only [if_neg hd]
      rfl

/-- The queues are empty: the backlog is let go. -/
theorem Awake.pollReturns_empty (ha : Awake cfg s) (hp : (s.netRx c).polls = true)
    (hsend : (s.netRx c).sending = []) (hinput : (s.sd c).inputPktQueue = [])
    (hprocess : (s.sd c).processQueue = []) {work : ℕ} (hwork : work < cfg.devRxWeight) :
    Awake cfg ((s.modify c fun sd => { sd with sched := false }).pollReturns cfg c work) := by
  obtain ⟨hs, hl⟩ := ha.sched_of_polls hp
  unfold Backlogs.pollReturns
  rw [if_pos hwork]
  refine ha.modify_goto ⟨fun hne => ?_, (ha.cpu c).pollList, fun _ => rfl, fun _ => Bool.or_true _,
    fun d hd => ?_, cfg.weight_pos⟩ fun d => ?_
  · refine absurd ?_ hne
    dsimp only
    rw [hinput, hprocess]
    rfl
  · exact (ha.cpu c).online d (hd.imp id fun h => absurd h List.not_mem_nil)
  · unfold share
    rw [hp, hsend, hs]
    by_cases hd : c = d
    · simp only [if_pos hd, NetRxPc.polls, NetRxPc.sending, Bool.toNat_true, Bool.toNat_false]
      omega
    · simp only [if_neg hd]
      rfl

/-- The next call on the list is sent; none for that CPU is on its way. -/
theorem Awake.sendIpi (ha : Awake cfg s) {remsd : Fin n} {next : List (Fin n)} {polling : Bool}
    (hpc : s.netRx c = .sendIpi (remsd :: next) polling) :
    Awake cfg ((s.sendIpi cfg remsd).goto c (.sendIpi next polling)) := by
  have hc := ha.cpu c
  rw [hpc] at hc
  have hon : cfg.online remsd = true := hc.online remsd (Or.inr List.mem_cons_self)
  have hpos : 0 < share (s.sd c) (s.netRx c) c remsd := by
    rw [hpc]
    unfold share
    show 0 < _ + (remsd :: next).count remsd
    rw [List.count_cons_self]
    omega
  obtain ⟨-, -, hfree⟩ := ha.sched_of_share hpos
  have hsend : s.sendIpi cfg remsd = { s with ipi := Function.update s.ipi remsd true } := by
    unfold Backlogs.sendIpi
    rw [if_pos hon]
  rw [hsend]
  refine ⟨fun d => ?_, fun d => ?_, ha.steered⟩
  · have htok := tokens_of_eq_off (s := s)
      (t := ({ s with ipi := Function.update s.ipi remsd true } : Backlogs n Skb R).goto c
        (.sendIpi next polling)) (h := c) (fun _ _ => rfl)
      (fun d hd => goto_netRx_of_ne _ c hd _) d
    have hshare : share (s.sd c) (.sendIpi (remsd :: next) polling) c d =
        share (s.sd c) (.sendIpi next polling) c d + if remsd = d then 1 else 0 := by
      unfold share
      show _ + (remsd :: next).count d = _ + next.count d + _
      rw [List.count_cons]
      simp only [beq_iff_eq]
      cases polling <;> exact (Nat.add_assoc _ _ _).symm
    have hipi : (Function.update s.ipi remsd true d).toNat =
        (s.ipi d).toNat + if remsd = d then 1 else 0 := by
      by_cases hd : d = remsd
      · subst hd
        rw [Function.update_self, hfree, if_pos rfl]
        rfl
      · rw [Function.update_of_ne hd, if_neg (Ne.symm hd), Nat.add_zero]
    rw [goto_netRx_self, goto_sd, hpc, hshare] at htok
    have hold := ha.token d
    show _ = (s.sd d).sched.toNat
    have hnew : (({ s with ipi := Function.update s.ipi remsd true } : Backlogs n Skb R).goto c
        (.sendIpi next polling)).ipi d = Function.update s.ipi remsd true d := rfl
    rw [hnew, hipi] at htok
    dsimp only at htok
    omega
  · by_cases hd : d = c
    · subst hd
      rw [goto_netRx_self]
      refine ⟨hc.sched, hc.pollList, fun h => ?_, fun h => ?_, fun e he => ?_, hc.work⟩
      · have := hc.lists h
        cases polling <;> exact this
      · have := hc.calls h
        cases polling <;> exact this
      · exact hc.online e (he.imp id (List.mem_cons_of_mem _))
    · rw [goto_netRx_of_ne _ c hd]
      exact ha.cpu d

theorem Awake.netRxStep (ha : Awake cfg s) (hb : Bounded cfg s)
    (hst : s.netRxStep cfg c = some t) : Awake cfg t := by
  have hc := ha.cpu c
  unfold Backlogs.netRxStep at hst
  split at hst
  case h_1 | h_2 => cases hst
  case h_3 hpc =>
    rw [hpc] at hc
    split at hst
    · obtain rfl := Option.some.inj hst
      exact ha.polling_goto (by rw [hpc]; rfl) (by rw [hpc]; rfl) rfl rfl cfg.weight_pos
    · obtain rfl := Option.some.inj hst
      refine ha.modify_goto ⟨hc.sched, hc.pollList, fun _ => rfl, fun h => absurd rfl h,
        fun d hd => ?_, cfg.weight_pos⟩ fun d => ?_
      · exact hc.online d (hd.elim (fun h => absurd h List.not_mem_nil) Or.inl)
      · rw [hpc]
        unfold share
        simp only [NetRxPc.polls, NetRxPc.sending, List.count_nil]
        omega
  case h_4 remsd next polling hpc =>
    obtain rfl := Option.some.inj hst
    exact ha.sendIpi hpc
  case h_5 polling hpc =>
    obtain rfl := Option.some.inj hst
    cases polling with
    | true => exact ha.polling_goto (by rw [hpc]; rfl) (by rw [hpc]; rfl) rfl rfl cfg.weight_pos
    | false =>
      rw [hpc] at hc
      refine ha.goto (p := .idle) ⟨hc.sched, hc.pollList, hc.lists, hc.calls, hc.online,
        hc.work⟩ fun d => ?_
      rw [hpc]
      rfl
  case h_6 work hpc =>
    rw [hpc] at hc
    split at hst
    · obtain rfl := Option.some.inj hst
      exact ha.polling (by rw [hpc]; rfl) (by rw [hpc]; rfl) rfl rfl hc.work ⟨rfl, rfl, rfl⟩
    · obtain rfl := Option.some.inj hst
      exact ha.polling_goto (by rw [hpc]; rfl) (by rw [hpc]; rfl) rfl rfl hc.work
  case h_7 x work hpc =>
    rw [hpc] at hc
    obtain rfl := Option.some.inj hst
    have := ha.polling_goto (c := c) (p := .headIncr work) (by rw [hpc]; rfl) (by rw [hpc]; rfl)
      rfl rfl hc.work
    exact { this with }
  case h_8 work hpc =>
    have hhead : Awake cfg (s.modify c fun sd => { sd with
        inputQueueHead := sd.inputQueueHead + 1 }) := ha.modify { ha.cpu c with } fun _ => rfl
    dsimp only at hst
    split at hst
    · rename_i hfull
      obtain rfl := Option.some.inj hst
      exact hhead.pollReturns_full (by rw [modify_netRx, hpc]; rfl) (by rw [modify_netRx, hpc]; rfl)
        hfull
    · rename_i hless
      obtain rfl := Option.some.inj hst
      exact ha.polling (by rw [hpc]; rfl) (by rw [hpc]; rfl) rfl rfl (Nat.lt_of_not_le hless)
        ⟨rfl, rfl, rfl⟩
  case h_9 work hpc =>
    rw [hpc] at hc
    split at hst
    · rename_i hinput
      obtain rfl := Option.some.inj hst
      exact ha.pollReturns_empty (by rw [hpc]; rfl) (by rw [hpc]; rfl) hinput
        ((hb c).2.2 work hpc) hc.work
    · obtain rfl := Option.some.inj hst
      exact ha.polling (by rw [hpc]; rfl) (by rw [hpc]; rfl) rfl rfl hc.work ⟨rfl, rfl, rfl⟩
  case h_10 unregistering hpc =>
    rw [hpc] at hc
    obtain rfl := Option.some.inj hst
    have := ha.modify_goto (c := c) (f := fun sd => { sd with
        processQueue := sd.processQueue.filter fun x => !unregistering x.skb
        inputQueueHead := sd.inputQueueHead + BitVec.ofNat 32
          ((s.sd c).processQueue.filter fun x => unregistering x.skb).length })
      (p := .idle) ⟨fun hne => hc.sched fun hnil => hne ?_, hc.pollList, hc.lists, hc.calls,
        hc.online, hc.work⟩ fun d => by rw [hpc]; rfl
    · exact { this with }
    · obtain ⟨hp, hi⟩ := List.append_eq_nil_iff.mp hnil
      have hp : (s.sd c).processQueue = [] := hp
      dsimp only
      rw [hp, hi]
      rfl

/-! ## The other events -/

/-- `rps_trigger_softirq`: the call on its way becomes a link. -/
theorem Awake.ipi (ha : Awake cfg s) (hi : s.ipi c = true) :
    Awake cfg { (s.napiSchedule c).modify c fun sd => { sd with
      receivedRps := sd.receivedRps + 1 } with ipi := Function.update s.ipi c false } := by
  have hle := s.share_le_tokens c c
  have htoken := ha.token c
  have hs : (s.sd c).sched = true := by
    cases hs : (s.sd c).sched with
    | true => rfl
    | false =>
      rw [hs] at htoken
      rw [hi] at hle
      simp only [Bool.toNat_true, Bool.toNat_false] at hle htoken
      omega
  have hc := ha.cpu c
  have hsd : ∀ d, d ≠ c → ((s.napiSchedule c).modify c fun sd => { sd with
      receivedRps := sd.receivedRps + 1 }).sd d = s.sd d := by
    intro d hd
    rw [modify_sd_of_ne _ c hd, napiSchedule_sd, modify_sd_of_ne _ c hd]
  have hself : ((s.napiSchedule c).modify c fun sd => { sd with
      receivedRps := sd.receivedRps + 1 }).sd c = { s.sd c with
        linked := (s.sd c).linked ++ [.pollList]
        receivedRps := (s.sd c).receivedRps + 1 } := by
    rw [modify_sd_self, napiSchedule_sd, modify_sd_self]
  have hraised : (s.napiSchedule c).raised c = true := Function.update_self ..
  refine ⟨fun d => ?_, fun d => ?_, ha.steered⟩
  · have htok := tokens_of_eq_off (s := s) (t := { (s.napiSchedule c).modify c fun sd => { sd with
      receivedRps := sd.receivedRps + 1 } with ipi := Function.update s.ipi c false }) (h := c)
      hsd (fun _ _ => rfl) d
    have hold := ha.token d
    have hshare : share { s.sd c with
        linked := (s.sd c).linked ++ [.pollList]
        receivedRps := (s.sd c).receivedRps + 1 } (s.netRx c) c d =
        share (s.sd c) (s.netRx c) c d + if c = d then 1 else 0 := by
      unfold share
      by_cases hd : c = d
      · simp only [if_pos hd, List.length_append, List.length_singleton]
        omega
      · simp only [if_neg hd]
        rfl
    dsimp only at htok ⊢
    have hpc : ((s.napiSchedule c).modify c fun sd => { sd with
      receivedRps := sd.receivedRps + 1 }).netRx c = s.netRx c := rfl
    rw [hself, hpc, hshare] at htok
    by_cases hd : d = c
    · subst hd
      rw [hself]
      rw [if_pos rfl, Function.update_self, hi] at htok
      simp only [Bool.toNat_true, Bool.toNat_false] at htok
      dsimp only
      omega
    · rw [hsd d hd]
      rw [if_neg (Ne.symm hd), Function.update_of_ne hd] at htok
      omega
  · dsimp only
    by_cases hd : d = c
    · subst hd
      rw [hself]
      show CpuAwake cfg _ (s.netRx d) ((s.napiSchedule d).raised d)
      rw [hraised]
      refine ⟨fun _ => hs, fun _ => rfl, fun hl => hc.lists ?_, fun _ => rfl, hc.online, hc.work⟩
      simpa using hl
    · rw [hsd d hd]
      have hr : (s.napiSchedule c).raised d = s.raised d := Function.update_of_ne hd ..
      show CpuAwake cfg _ (s.netRx d) ((s.napiSchedule c).raised d)
      rw [hr]
      exact ha.cpu d

theorem Awake.raise (ha : Awake cfg s) : Awake cfg (s.raiseNetRx c) := by
  refine ha.change (h := c) (fun _ _ => rfl) (fun _ _ => rfl)
    (fun d hd => Function.update_of_ne hd ..) ha.steered rfl ?_ fun _ => rfl
  have hraised : (s.raiseNetRx c).raised c = true := Function.update_self ..
  rw [hraised]
  exact { ha.cpu c with pollList := fun _ => rfl, calls := fun _ => rfl }

theorem Awake.softirq (ha : Awake cfg s) (hpc : s.netRx c = .idle) :
    Awake cfg { (s.modify c fun sd => { sd with linked := sd.linked.map fun _ => .list }).goto c
      .loop with raised := Function.update s.raised c false } := by
  have hc := ha.cpu c
  rw [hpc] at hc
  refine ha.change (h := c) (fun d hd => Function.update_of_ne hd ..)
    (fun d hd => Function.update_of_ne hd ..) (fun d hd => Function.update_of_ne hd ..) ha.steered
    rfl ?_ fun d => ?_
  · dsimp only
    rw [goto_netRx_self, goto_sd, modify_sd_self, Function.update_self]
    exact ⟨hc.sched, fun hm => by simp at hm, fun _ => rfl, fun _ => rfl, hc.online, hc.work⟩
  · dsimp only
    rw [goto_netRx_self, goto_sd, modify_sd_self, hpc]
    unfold share
    rw [List.length_map]
    rfl

theorem Awake.poll (ha : Awake cfg s) (hpc : s.netRx c = .loop)
    (hl : NapiList.list ∈ (s.sd c).linked) :
    Awake cfg ((s.modify c fun sd => { sd with linked := sd.linked.erase .list }).goto c
      (if (s.sd c).sched then .processBacklog else .loop)) := by
  have hc := ha.cpu c
  rw [hpc] at hc
  have hlen : 0 < (s.sd c).linked.length := List.length_pos_of_mem hl
  have hpos : 0 < share (s.sd c) (s.netRx c) c c := by
    unfold share
    rw [if_pos rfl]
    omega
  obtain ⟨hs, -, -⟩ := ha.sched_of_share hpos
  rw [if_pos hs]
  refine ha.modify_goto ⟨hc.sched, fun hm => hc.pollList (List.mem_of_mem_erase hm), fun _ => rfl,
    fun _ => Bool.or_true _, hc.online, cfg.weight_pos⟩ fun d => ?_
  rw [hpc]
  unfold share
  by_cases hd : c = d
  · simp only [if_pos hd, List.length_erase_of_mem hl, NetRxPc.polls, NetRxPc.sending,
      Bool.toNat_true, Bool.toNat_false]
    omega
  · simp only [if_neg hd]
    rfl

section Splice
variable (s : Backlogs n Skb R) (c : Fin n) (others : Bool)

theorem splice_sd_self : (s.splice c others).sd c = { s.sd c with
    linked := (s.sd c).linked.map fun _ => .pollList
    rpsIpiList := [] } := Function.update_self ..

theorem splice_netRx_self : (s.splice c others).netRx c =
    if (s.sd c).rpsIpiList = [] then .idle else .sendIpi (s.sd c).rpsIpiList false :=
  Function.update_self ..

theorem splice_raised_self : (s.splice c others).raised c =
    (s.raised c || others || !(s.sd c).linked.isEmpty) := Function.update_self ..

end Splice

theorem Awake.splice (ha : Awake cfg s) (hpc : s.netRx c = .loop) (others : Bool) :
    Awake cfg (s.splice c others) := by
  have hc := ha.cpu c
  rw [hpc] at hc
  obtain ⟨pc, hpc', hsend⟩ : ∃ pc : NetRxPc n Skb R,
      (if (s.sd c).rpsIpiList = [] then NetRxPc.idle else .sendIpi (s.sd c).rpsIpiList false) = pc ∧
        pc.sending = (s.sd c).rpsIpiList ∧ pc.polls = false ∧ pc.inHand = [] ∧ pc.work = 0 := by
    refine ⟨_, rfl, ?_⟩
    split
    · rename_i hnil
      exact ⟨hnil.symm, rfl, rfl, rfl⟩
    · exact ⟨rfl, rfl, rfl, rfl⟩
  refine ha.change (h := c) (fun d hd => Function.update_of_ne hd ..)
    (fun d hd => Function.update_of_ne hd ..) (fun d hd => Function.update_of_ne hd ..) ha.steered
    rfl ?_ fun d => ?_
  · rw [splice_sd_self, splice_netRx_self, splice_raised_self, hpc']
    refine ⟨fun hne => hc.sched ?_, fun hm => ?_, ?_, fun h => absurd rfl h, fun d hd => ?_, ?_⟩
    · rw [hsend.2.2.1] at hne
      exact hne
    · cases hl : (s.sd c).linked with
      | nil =>
        dsimp only at hm
        rw [hl] at hm
        cases hm
      | cons => exact Bool.or_true _
    · rintro (hm | hm) <;> simp at hm
    · rw [hsend.1] at hd
      exact hc.online d (hd.elim (fun h => absurd h List.not_mem_nil) Or.inl)
    · rw [hsend.2.2.2]
      exact cfg.weight_pos
  · rw [splice_sd_self, splice_netRx_self, hpc', hpc]
    unfold share
    rw [hsend.1, hsend.2.1]
    simp only [List.length_map, List.count_nil, NetRxPc.polls, NetRxPc.sending]
    omega

theorem Awake.step [DecidableEq R] (ha : Awake cfg s) (hb : Bounded cfg s)
    {e : BacklogEvent n Skb R} (hst : step cfg s e = some t) : Awake cfg t := by
  cases e with
  | steer r skb ident map =>
    dsimp only [Backlogs.step] at hst
    split at hst
    · cases hst
    · rename_i hidle
      split at hst <;> rename_i hget <;> obtain rfl := Option.some.inj hst
      · exact { ha with }
      · refine { ha with steered := fun r' x c hx => ?_ }
        dsimp only at hx
        by_cases hr : r' = r
        · subst hr
          rw [Function.update_self] at hx
          obtain ⟨rfl, rfl⟩ := RxPc.enqueue.inj hx
          exact ((getRpsCpu_spec hidle skb ident map hget).2 _ rfl).1
        · rw [Function.update_of_ne hr] at hx
          exact ha.steered r' x c hx
  | enqueue r here running =>
    dsimp only [Backlogs.step] at hst
    split at hst
    · cases hst
    · rename_i x cpu hrx
      obtain rfl := Option.some.inj hst
      have := ha.enqueueToBacklog here (ha.steered r x cpu hrx) x running
      refine { this with steered := fun r' y c hy => ?_ }
      dsimp only at hy
      by_cases hr : r' = r
      · subst hr
        rw [Function.update_self] at hy
        cases hy
      · rw [Function.update_of_ne hr] at hy
        exact ha.steered r' y c hy
  | netifRx here cpu skb running =>
    dsimp only [Backlogs.step] at hst
    rw [Option.ite_none_right_eq_some] at hst
    obtain ⟨hon, hst⟩ := hst
    obtain rfl := Option.some.inj hst
    exact ha.enqueueToBacklog here hon ⟨skb, none⟩ running
  | ipi c =>
    dsimp only [Backlogs.step] at hst
    rw [Option.ite_none_right_eq_some] at hst
    obtain ⟨hi, hst⟩ := hst
    obtain rfl := Option.some.inj hst
    exact ha.ipi hi
  | raise c =>
    obtain rfl := Option.some.inj hst
    exact ha.raise
  | softirq c =>
    dsimp only [Backlogs.step] at hst
    split at hst
    · rename_i hpc
      rw [Option.ite_none_right_eq_some] at hst
      obtain rfl := Option.some.inj hst.2
      exact ha.softirq hpc
    · cases hst
  | poll c =>
    dsimp only [Backlogs.step] at hst
    split at hst
    · rename_i hpc
      rw [Option.ite_none_right_eq_some] at hst
      obtain ⟨hl, hst⟩ := hst
      obtain rfl := Option.some.inj hst
      exact ha.poll hpc hl
    · cases hst
  | netRx c => exact ha.netRxStep hb hst
  | splice c others =>
    dsimp only [Backlogs.step] at hst
    split at hst
    · rename_i hpc
      obtain rfl := Option.some.inj hst
      exact ha.splice hpc others
    · cases hst
  | leave c =>
    dsimp only [Backlogs.step] at hst
    split at hst
    · rename_i hpc
      rw [Option.ite_none_right_eq_some] at hst
      obtain ⟨⟨hcalls, hlist, hrepoll⟩, hst⟩ := hst
      obtain rfl := Option.some.inj hst
      have hc := ha.cpu c
      rw [hpc] at hc
      refine ha.goto (p := .idle) ⟨hc.sched, hc.pollList, ?_, fun h => absurd hcalls h, hc.online,
        hc.work⟩ fun d => by rw [hpc]; rfl
      rintro (h | h)
      · exact absurd h hlist
      · exact absurd h hrepoll
    · cases hst
  | flush c unregistering =>
    dsimp only [Backlogs.step] at hst
    split at hst
    · rename_i hpc
      obtain rfl := Option.some.inj hst
      have hc := ha.cpu c
      rw [hpc] at hc
      have := ha.modify_goto (c := c) (f := fun sd => { sd with
          inputPktQueue := sd.inputPktQueue.filter fun x => !unregistering x.skb
          inputQueueHead := sd.inputQueueHead + BitVec.ofNat 32
            ((s.sd c).inputPktQueue.filter fun x => unregistering x.skb).length })
        (p := .flushProcess unregistering) ⟨fun hne => hc.sched fun hnil => hne ?_, hc.pollList,
          hc.lists, hc.calls, hc.online, hc.work⟩ fun d => by rw [hpc]; rfl
      · exact { this with }
      · obtain ⟨hp, hi⟩ := List.append_eq_nil_iff.mp hnil
        have hp : (s.sd c).processQueue = [] := hp
        dsimp only
        rw [hp, hi]
        rfl
    · cases hst

/-- Somebody will poll the backlog of `c`: the softirq of its CPU, which is raised or has still to come
to its end, has it on a list or polls it; or the call for it is on its way, or to be sent by a CPU whose
softirq is raised or has still to come to its end, or is sending. -/
def Remembered (s : Backlogs n Skb R) (c : Fin n) : Prop :=
  ((s.sd c).linked ≠ [] ∧ (s.raised c || (s.netRx c).active) = true) ∨
    (s.netRx c).polls = true ∨ s.ipi c = true ∨
    ∃ h, (c ∈ (s.sd h).rpsIpiList ∧ (s.raised h || (s.netRx h).active) = true) ∨
      c ∈ (s.netRx h).sending

theorem CpuAwake.linked {sd : SoftnetData n Skb R} {pc : NetRxPc n Skb R} {raised : Bool}
    (h : CpuAwake cfg sd pc raised) (hl : sd.linked ≠ []) : (raised || pc.active) = true := by
  obtain ⟨p, hp⟩ := List.exists_mem_of_ne_nil _ hl
  cases p with
  | pollList => rw [h.pollList hp, Bool.true_or]
  | list => rw [h.lists (Or.inl hp), Bool.or_true]
  | repoll => rw [h.lists (Or.inr hp), Bool.or_true]

theorem Awake.remembered (ha : Awake cfg s) (hs : (s.sd c).sched = true) : s.Remembered c := by
  have htoken := ha.token c
  rw [hs, Bool.toNat_true] at htoken
  by_contra hno
  unfold Remembered at hno
  push Not at hno
  obtain ⟨hlinked, hpolls, hipi, hcalls⟩ := hno
  have hzero : ∀ h, share (s.sd h) (s.netRx h) h c = 0 := by
    intro h
    obtain ⟨hlist, hsend⟩ := hcalls h
    have hnotin : c ∉ (s.sd h).rpsIpiList := fun hm =>
      hlist hm ((ha.cpu h).calls (List.ne_nil_of_mem hm))
    have hnil : h = c → (s.sd h).linked = [] ∧ (s.netRx h).polls = false := by
      rintro rfl
      refine ⟨by_contra fun hl => hlinked hl ((ha.cpu h).linked hl), ?_⟩
      exact Bool.eq_false_iff.mpr hpolls
    unfold share
    rw [List.count_eq_zero.mpr hnotin, List.count_eq_zero.mpr hsend]
    split
    · rename_i heq
      rw [(hnil heq).1, (hnil heq).2]
      rfl
    · rfl
  have hi : s.ipi c = false := Bool.eq_false_iff.mpr hipi
  unfold tokens at htoken
  rw [Finset.sum_eq_zero fun h _ => hzero h, hi] at htoken
  cases htoken

/-- **No backlog is forgotten.** In every run and for every CPU: where frames wait, the backlog is
scheduled; a scheduled backlog is held in one place only, one from which it will be polled; and when its
interrupt is about to be sent, none is on its way, so that none is lost. -/
theorem backlog_never_forgotten [DecidableEq R] {limits : Fin n → Option FlowLimit}
    {es : List (BacklogEvent n Skb R)} (h : run (step cfg) (init limits) es = some s) (c : Fin n) :
    (s.waiting c ≠ [] → (s.sd c).sched = true) ∧
      ((s.sd c).sched = true → s.Remembered c) ∧
      s.tokens c = (s.sd c).sched.toNat ∧
      ∀ d, c ∈ (s.netRx d).sending → s.ipi c = false := by
  have ha : Bounded cfg s ∧ Awake cfg s :=
    run_invariant (I := fun u : Backlogs n Skb R => Bounded cfg u ∧ Awake cfg u)
      (fun _ _ _ hu hst => ⟨hu.1.step hst, hu.2.step hu.1 hst⟩)
      ⟨bounded_init limits, awake_init limits⟩ h
  refine ⟨(ha.2.cpu c).sched, ha.2.remembered, ha.2.token c, fun d hd => ?_⟩
  refine (ha.2.sched_of_share (h := d) ?_).2.2
  have := List.count_pos_iff.mpr hd
  unfold share
  omega

/-- CPU 0 has a frame for CPU 1 and the call for it on its list. -/
theorem backlog_never_forgotten_call :
    ∃ s, run (step twoCpus) (init fun _ => none) (twoFrames.take 2) = some s ∧
      s.waiting 1 ≠ [] ∧ s.Remembered 1 := by
  obtain ⟨s, hs, hne⟩ : ∃ s, run (step twoCpus) (init fun _ => none) (twoFrames.take 2) = some s ∧
      s.waiting 1 ≠ [] := ⟨_, rfl, by decide⟩
  obtain ⟨hsched, hheld, -⟩ := backlog_never_forgotten hs 1
  exact ⟨s, hs, hne, hheld (hsched hne)⟩

end Backlogs

end CrosRt
