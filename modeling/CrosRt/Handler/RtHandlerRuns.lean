import CrosRt.Handler.RtHandlerInvariant
import CrosRt.Handler.KrtdLoop

/-! # Runs of the real-time handler

Where the guarantees of `RtHandlerInvariant` end, service ends. From a state they describe, a raise
in a window of `krtd` (`raise_in_krtd_window_breaks`) or of `kmond`
(`raise_in_kmond_window_breaks`), and a poll whose scan passes a waiting frame
(`poll_past_breaks`), each lead to a frame behind two sleeping threads or to a `krtd` below the
priority it should have, with nobody else taking a step.
-/

namespace CrosRt
set_option autoImplicit false

open Kernel LabelledRuns

namespace RtHandler

variable {hash : ℤ → Fin 256} {F : Type*}

/-! ## The windows -/

theorem schedSetFifo_lt {rt param p : ℤ} (hrt : rt < p) (hparam : param < p) :
    schedSetFifo rt param < p := by
  unfold schedSetFifo
  split_ifs
  · exact hparam
  · exact hrt

/-- Left alone, `kmond` comes to sleep again and changes neither the service nor where `krtd`
stands. -/
theorem kmond_settles {s : RtHandler hash F} (hm : StateAt s.kmond.pc.waiting s.kmond.taskState) :
    ∃ n t, run step s (List.replicate n .kmond) = some t ∧ t.KmondAsleep ∧
      t.service = s.service ∧ t.krtd.pc = s.krtd.pc ∧
      t.krtd.curPriority = s.krtd.curPriority := by
  obtain ⟨service, ⟨pc, st, msg, kp⟩, krtd⟩ := s
  have hne : TaskState.interruptible ≠ .running := by simp
  cases pc with
  | readHighest => exact ⟨6, _, rfl, ⟨rfl, hne⟩, rfl, rfl, rfl⟩
  | readKrtdPriority => exact ⟨5, _, rfl, ⟨rfl, hne⟩, rfl, rfl, rfl⟩
  | setScheduler => exact ⟨4, _, rfl, ⟨rfl, hne⟩, rfl, rfl, rfl⟩
  | wakeKrtd => exact ⟨3, _, rfl, ⟨rfl, hne⟩, rfl, rfl, rfl⟩
  | setInterruptible => exact ⟨2, _, rfl, ⟨rfl, hne⟩, rfl, rfl, rfl⟩
  | schedule =>
    rcases hm with hst | hst
    · obtain rfl : st = .running := hst
      exact ⟨9, _, rfl, ⟨rfl, hne⟩, rfl, rfl, rfl⟩
    · obtain rfl : st = .interruptible := hst
      exact ⟨1, _, rfl, ⟨rfl, hne⟩, rfl, rfl, rfl⟩
  | blocked =>
    rcases hm with hst | hst
    · obtain rfl : st = .running := hst
      exact ⟨9, _, rfl, ⟨rfl, hne⟩, rfl, rfl, rfl⟩
    · obtain rfl : st = .interruptible := hst
      exact ⟨0, _, rfl, ⟨rfl, hne⟩, rfl, rfl, rfl⟩
  | setRunning => exact ⟨8, _, rfl, ⟨rfl, hne⟩, rfl, rfl, rfl⟩
  | testStop => exact ⟨7, _, rfl, ⟨rfl, hne⟩, rfl, rfl, rfl⟩

/-- In its window `kmond` raises `krtd` to the priority it has read at most. -/
theorem kmond_settles_below {s : RtHandler hash F} {p : ℤ} (hwin : s.kmond.pc.inWindow = true)
    (hmsg : s.kmond.msgPriority < p ∨ s.kmond.pc = .wakeKrtd ∨ s.kmond.pc = .setInterruptible)
    (hrt : s.krtd.rtPriority < p) :
    ∃ n t, run step s (List.replicate n .kmond) = some t ∧ t.KmondAsleep ∧
      t.service = s.service ∧ t.krtd.rtPriority < p := by
  obtain ⟨service, ⟨pc, st, msg, kp⟩, ⟨pc', st', rt, cur⟩⟩ := s
  have hne : TaskState.interruptible ≠ .running := by simp
  have hset : msg < p → ∀ kp', (if msg > kp' then schedSetFifo rt msg else rt) < p := by
    intro hlt kp'
    split_ifs
    · exact schedSetFifo_lt hrt hlt
    · exact hrt
  cases pc with
  | readKrtdPriority =>
    exact ⟨5, _, rfl, ⟨rfl, hne⟩, rfl, hset (hmsg.resolve_right (by simp)) rt⟩
  | setScheduler => exact ⟨4, _, rfl, ⟨rfl, hne⟩, rfl, hset (hmsg.resolve_right (by simp)) kp⟩
  | wakeKrtd => exact ⟨3, _, rfl, ⟨rfl, hne⟩, rfl, hrt⟩
  | setInterruptible => exact ⟨2, _, rfl, ⟨rfl, hne⟩, rfl, hrt⟩
  | _ => cases hwin

theorem highestPri_raised (s : RtHandler hash F) (skb : F) {p : ℤ}
    (hlt : s.service.highestPri < p) : (s.messageSelector skb p).service.highestPri = p := by
  rw [messageSelector_service]
  exact max_eq_right (le_of_lt hlt)

theorem stateAt_raised {s : RtHandler hash F} (hs : s.Inv) (skb : F) {p : ℤ}
    (hlt : s.service.highestPri < p) :
    StateAt (s.messageSelector skb p).kmond.pc.waiting (s.messageSelector skb p).kmond.taskState := by
  obtain ⟨st, hkmond, hst⟩ := messageSelector_kmond s skb p
  obtain rfl : st = .running :=
    (hst.resolve_right fun h => h.2 hlt).trans hs.threads.kmondState.wakeUp
  rw [hkmond]
  exact stateAt_running s.kmond.pc.waiting

/-- A value of `highest_pri` that `krtd` has read, or its decision to sleep, survives the raise. -/
theorem krtd_window_breaks {s : RtHandler hash F} {p : ℤ} (hsleep : s.KmondAsleep)
    (hhighest : s.service.highestPri = p) (hp : 2 ≤ p)
    (hwin : s.krtd.pc = .setInterruptible ∨
      (s.krtd.pc = .setScheduler ∧ 1 ≤ s.krtd.curPriority ∧ s.krtd.curPriority < p ∧ p ≤ 99)) :
    ∃ u, step s .krtd = some u ∧ ¬ u.Served := by
  obtain ⟨service, kmond, ⟨pc, st, rt, cur⟩⟩ := s
  simp only [step, if_pos hsleep]
  rcases hwin with hpc | ⟨hpc, hcur, hcur', hle⟩
  · obtain rfl : pc = .setInterruptible := hpc
    refine ⟨_, rfl, fun hserved => ?_⟩
    have hrun := ((hserved hsleep).1 (hhighest ▸ hp)).1
    cases hrun
  · obtain rfl : pc = .setScheduler := hpc
    refine ⟨_, rfl, fun hserved => ?_⟩
    have hrt : service.highestPri ≤ schedSetFifo rt cur :=
      ((hserved hsleep).1 (hhighest ▸ hp)).2
    simp only at hcur hcur' hhighest
    rw [schedSetFifo_of_valid rt ⟨hcur, by omega⟩] at hrt
    omega

/-- A raise in a window of `krtd`: `kmond` comes to sleep again, and the next statement of `krtd`
puts it below the new priority or to sleep. -/
theorem raise_in_krtd_window_breaks {s : RtHandler hash F} (hs : s.Inv) {p : ℤ} (skb : F)
    (hlt : s.service.highestPri < p) (hp : p < 100) (hwin : s.krtd.pc.inWindow = true) :
    ∃ n u, run step (s.messageSelector skb p) (List.replicate n .kmond ++ [.krtd]) = some u ∧
      ¬ u.Served := by
  have hpos := hs.highest_pos
  obtain ⟨n, t, hrun, hsleep, hts, htpc, htcur⟩ := kmond_settles (stateAt_raised hs skb hlt)
  have hkrtdWin : t.krtd.pc = .setInterruptible ∨ (t.krtd.pc = .setScheduler ∧
      1 ≤ t.krtd.curPriority ∧ t.krtd.curPriority < p ∧ p ≤ 99) := by
    have hhan := hs.threads.handler
    rw [htpc, htcur, messageSelector_krtd]
    cases hpc : s.krtd.pc <;> rw [hpc] at hwin <;> simp only [HandlerFacts, hpc] at hhan
    case setScheduler => exact Or.inr ⟨rfl, by omega, by omega, by omega⟩
    case setInterruptible => exact Or.inl rfl
    all_goals cases hwin
  have hhighest : t.service.highestPri = p := by rw [hts, highestPri_raised s skb hlt]
  obtain ⟨u, hu, hbroken⟩ := krtd_window_breaks hsleep hhighest (by omega) hkrtdWin
  refine ⟨n, u, ?_, hbroken⟩
  rw [run_append_eq_some]
  exact ⟨t, hrun, by rw [run_cons_of_step hu, run_nil]⟩

/-- A raise in the window of `kmond` above the priority of `krtd`: `kmond` comes to sleep again with
`krtd` below the new priority. -/
theorem raise_in_kmond_window_breaks {s : RtHandler hash F} (hs : s.Inv) {p : ℤ} (skb : F)
    (hlt : s.service.highestPri < p) (hwin : s.kmond.pc.inWindow = true)
    (hrt : s.krtd.rtPriority < p) :
    ∃ n u, run step (s.messageSelector skb p) (List.replicate n .kmond) = some u ∧
      ¬ u.Served := by
  have hpos := hs.highest_pos
  obtain ⟨st, hkmond, _⟩ := messageSelector_kmond s skb p
  have hmsg : s.kmond.msgPriority < p ∨ s.kmond.pc = .wakeKrtd ∨
      s.kmond.pc = .setInterruptible := by
    have hmon := hs.threads.monitor
    cases hpc : s.kmond.pc <;> rw [hpc] at hwin <;> simp only [MonitorFacts, hpc] at hmon
    case readKrtdPriority => exact Or.inl (by omega)
    case setScheduler => exact Or.inl (by omega)
    case wakeKrtd => exact Or.inr (Or.inl rfl)
    case setInterruptible => exact Or.inr (Or.inr rfl)
    all_goals cases hwin
  obtain ⟨n, t, hrun, hsleep, hts, htrt⟩ :=
    kmond_settles_below (s := s.messageSelector skb p) (p := p)
      (by rw [hkmond]; exact hwin) (by rw [hkmond]; exact hmsg)
      (by rw [messageSelector_krtd]; exact hrt)
  have hhighest : t.service.highestPri = p := by rw [hts, highestPri_raised s skb hlt]
  refine ⟨n, t, hrun, fun hserved => ?_⟩
  have hle := ((hserved hsleep).1 (by omega)).2
  omega

theorem raise_in_window_breaks {s t : RtHandler hash F} (hs : s.Inv) {p : ℤ} {skb : F}
    (hstep : step s (.arrive p skb) = some t) (hp : p < 100)
    (hbad : ¬ s.RaisedOutsideWindows (.arrive p skb)) :
    ∃ fs u, (∀ f ∈ fs, f = .kmond ∨ f = .krtd) ∧ run step s (.arrive p skb :: fs) = some u ∧
      ¬ u.Served := by
  have hpos := hs.highest_pos
  obtain ⟨hlt, hwin⟩ : s.service.highestPri < p ∧ (s.krtd.pc.inWindow = true ∨
      (s.kmond.pc.inWindow = true ∧ s.krtd.rtPriority < p)) := by
    simp only [RaisedOutsideWindows] at hbad
    grind
  have ht : t = s.messageSelector skb p := by
    simp only [step] at hstep
    rw [if_pos (by omega)] at hstep
    exact (Option.some.inj hstep).symm
  rcases hwin with hwin | ⟨hwin, hrt⟩
  · obtain ⟨n, u, hrun, hbroken⟩ := raise_in_krtd_window_breaks hs skb hlt hp hwin
    refine ⟨List.replicate n .kmond ++ [.krtd], u, ?_, ?_, hbroken⟩
    · intro f hf
      rw [List.mem_append, List.mem_singleton] at hf
      exact hf.imp_left List.eq_of_mem_replicate
    · rw [run_cons_of_step hstep, ht, hrun]
  · obtain ⟨n, u, hrun, hbroken⟩ := raise_in_kmond_window_breaks hs skb hlt hwin hrt
    refine ⟨List.replicate n .kmond, u, fun f hf => Or.inl (List.eq_of_mem_replicate hf), ?_,
      hbroken⟩
    rw [run_cons_of_step hstep, ht, hrun]

/-! ## Frames the scan passes -/

/-- A frame waits above the highest priority, `kmond` sleeps, and `krtd` has just polled. -/
structure Stranded (s : RtHandler hash F) (q : ℤ) : Prop where
  asleep : s.KmondAsleep
  pc : s.krtd.pc = .readHighest
  running : s.krtd.taskState = .running
  highest_pos : 1 ≤ s.service.highestPri
  highest_lt : s.service.highestPri < q
  le : q ≤ 99
  waiting : s.service.pq.cell q ≠ []

theorem Stranded.breaks {s : RtHandler hash F} {q : ℤ} (h : s.Stranded q) :
    ∃ n u, run step s (List.replicate n .krtd) = some u ∧ ¬ u.Served := by
  have hlt := h.highest_lt
  have hle := h.le
  have hkeep : ∀ r : RtService hash F, (r.highestPri < q ∧ r.pq.cell q ≠ []) →
      2 ≤ r.highestPri → r.highestPri ≤ 99 →
      r.afterPoll.highestPri < q ∧ r.afterPoll.pq.cell q ≠ [] := by
    intro r hr hhigh _
    have hlower : r.afterPoll.highestPri ≤ max 1 (r.highestPri - 1) :=
      rtPoll_highest_le r.queues (show 1 ≤ r.highestPri by omega)
    have hsame : r.afterPoll.pq.cell q = r.pq.cell q := rtPoll_cell_ne r.queues (ne_of_gt hr.1)
    refine ⟨by omega, ?_⟩
    rw [hsame]
    exact hr.2
  obtain ⟨n, u, hrun, hmon, hasleep, _, _, hwait⟩ := krtd_descends hkeep 98 h.asleep h.pc
    h.highest_pos (by omega) (by push_cast; omega) ⟨h.highest_lt, h.waiting⟩
  exact ⟨n, u, hrun, fun hserved => hwait ((hserved hmon).2 hasleep q (by omega) hle)⟩

theorem poll_past_breaks {s t : RtHandler hash F} (hs : s.Inv) (hstep : step s .krtd = some t)
    (hpc : s.krtd.pc = .poll) (hscan : ¬ s.service.queues.ScanReaches) :
    ∃ n u, run step t (List.replicate n .krtd) = some u ∧ ¬ u.Served := by
  obtain ⟨q, hq, hlt, hwait, hnone⟩ : ∃ q, 2 ≤ q ∧ q < s.service.highestPri ∧
      s.service.pq.cell q ≠ [] ∧ ∀ p, q ≤ p → p < s.service.highestPri →
        s.service.registry.priorityInUse.cell p ≠ true := by
    simp only [RtQueues.ScanReaches, RtService.queues] at hscan
    push Not at hscan
    exact hscan
  have hle := hs.highest_le
  have hrunning := hs.threads.krtdState
  rw [hpc] at hrunning
  simp only [step] at hstep
  by_cases hsleep : s.KmondAsleep
  · rw [if_pos hsleep, krtdStep, hpc] at hstep
    obtain rfl := Option.some.inj hstep
    have hstranded : Stranded
        { s with service := s.service.afterPoll, krtd := { s.krtd with pc := .readHighest } } q :=
      { asleep := hsleep
        pc := rfl
        running := hrunning
        highest_pos := rtPoll_highest_pos s.service.queues
        highest_lt := rtPoll_highest_lt_of_none hq hlt hnone
        le := by omega
        waiting := fun hnil =>
          hwait ((rtPoll_cell_ne s.service.queues (ne_of_lt hlt)).symm.trans hnil) }
    exact hstranded.breaks
  · rw [if_neg hsleep] at hstep
    cases hstep

/-! ## Frames of priorities in use -/

theorem kmondStep_service {s t : RtHandler hash F} (h : s.kmondStep = some t) :
    t.service = s.service := by
  unfold kmondStep at h
  cases hpc : s.kmond.pc <;> simp only [hpc] at h
  case schedule | blocked =>
    split_ifs at h
    all_goals exact (Option.some.inj h) ▸ rfl
  all_goals exact (Option.some.inj h) ▸ rfl

theorem krtdStep_service {s t : RtHandler hash F} (h : s.krtdStep = some t) :
    t.service = s.service ∨ t.service = s.service.afterPoll := by
  unfold krtdStep at h
  cases hpc : s.krtd.pc <;> simp only [hpc] at h
  case poll => exact Or.inr ((Option.some.inj h) ▸ rfl)
  case testPriority | schedule | blocked =>
    split_ifs at h
    all_goals exact Or.inl ((Option.some.inj h) ▸ rfl)
  all_goals exact Or.inl ((Option.some.inj h) ▸ rfl)

theorem covered_step {s t : RtHandler hash F} {e : HandlerEvent F}
    (hs : s.service.queues.Covered) (hinUse : s.ArrivesInUse e) (h : step s e = some t) :
    t.service.queues.Covered := by
  obtain ⟨r, rfl, hr⟩ | ⟨p, skb, rfl, hp, rfl⟩ | ⟨_, h⟩ | ⟨_, _, h⟩ := step_cases h
  · exact hs.of_flags rfl rfl fun q hq => hr q (by omega)
  · rw [messageSelector_service]
    exact hs.insert ⟨p, skb⟩ (by omega) (by omega) hinUse
  · rw [kmondStep_service h]
    exact hs
  · rcases krtdStep_service h with hservice | hservice
    · rw [hservice]
      exact hs
    · rw [hservice]
      exact hs.rtPoll

/-- Where frames are only inserted at priorities in use, as those of registered ports are
(`RtService.Inv.inUse_getPortPriority`), every scan reaches every waiting frame. -/
theorem stepsMeet_pollReaches {es : List (HandlerEvent F)}
    (h : StepsMeet step ArrivesInUse (init : RtHandler hash F) es) :
    StepsMeet step PollReaches (init : RtHandler hash F) es := by
  refine stepsMeet_imp (I := fun s : RtHandler hash F => s.service.queues.Covered)
    (fun _ _ _ => covered_step) ?_ RtService.inv_init.covered h
  intro s e t hs _ _
  cases e with
  | krtd => exact fun _ => hs.scanReaches
  | _ => trivial

/-! ## Service while the monitor sleeps -/

/-- **Service while the monitor sleeps.** In every run whose insertions raise `highest_pri` outside
the windows and whose polls reach every waiting frame, whenever `kmond` sleeps `krtd` is runnable at
least at the highest priority, if that is 2 or more, and sleeps only over empty queues. The
conditions are the right ones: after such a run a step that violates one of them, followed by the
two threads alone, leads to a state where this fails. -/
theorem served_of_raisedOutsideWindows {s : RtHandler hash F} {es : List (HandlerEvent F)}
    (hmeet : StepsMeet step RaisedOutsideWindows (init : RtHandler hash F) es)
    (hpoll : StepsMeet step PollReaches (init : RtHandler hash F) es)
    (h : run step init es = some s) :
    s.Served ∧
    ∀ e t, step s e = some t → ¬ (s.RaisedOutsideWindows e ∧ s.PollReaches e) →
      ∃ fs u, (∀ f ∈ fs, f = .kmond ∨ f = .krtd) ∧ run step s (e :: fs) = some u ∧
        ¬ u.Served := by
  have hboth : StepsMeet step (fun s e => s.RaisedOutsideWindows e ∧ s.PollReaches e)
      (init : RtHandler hash F) es := stepsMeet_and.mpr ⟨hmeet, hpoll⟩
  have hs : s.Inv := run_invariant_of_stepsMeet
    (fun _ _ _ hs hc => inv_step hs hc.1 hc.2) inv_init hboth h
  refine ⟨hs.served, fun e t ht hbad => ?_⟩
  cases e with
  | arrive p skb =>
    have hp : p < 100 := by
      simp only [step] at ht
      split_ifs at ht with hp
      exact hp.2
    exact raise_in_window_breaks hs ht hp fun hraised => hbad ⟨hraised, trivial⟩
  | krtd =>
    have hscan : s.krtd.pc = .poll ∧ ¬ s.service.queues.ScanReaches := by
      by_contra hnot
      exact hbad ⟨trivial, fun hpc => by_contra fun hscan => hnot ⟨hpc, hscan⟩⟩
    obtain ⟨n, u, hrun, hbroken⟩ := poll_past_breaks hs ht hscan.1 hscan.2
    refine ⟨List.replicate n .krtd, u, fun f hf => Or.inr (List.eq_of_mem_replicate hf), ?_,
      hbroken⟩
    rw [run_cons_of_step ht, hrun]
  | _ => exact absurd ⟨trivial, trivial⟩ hbad

/-- A frame that comes in while `krtd` polls is served before `krtd` sleeps. -/
theorem served_of_raisedOutsideWindows_one_frame :
    ∃ s : RtHandler Kernel.hashMin ℕ,
      run step init (.setPort true 50 7411 :: List.replicate 6 .kmond ++ .arrive 50 1 ::
        List.replicate 9 .kmond ++ List.replicate 6 .krtd) = some s ∧
      s.KmondAsleep ∧ s.KrtdAsleep ∧ s.Served := by
  obtain ⟨s, hs⟩ : ∃ s : RtHandler Kernel.hashMin ℕ,
      run step init (.setPort true 50 7411 :: List.replicate 6 .kmond ++ .arrive 50 1 ::
        List.replicate 9 .kmond ++ List.replicate 6 .krtd) = some s := ⟨_, rfl⟩
  have hend : s.KmondAsleep ∧ s.KrtdAsleep := by
    obtain rfl := Option.some.inj hs
    exact ⟨by decide, by decide⟩
  exact ⟨s, hs, hend.1, hend.2,
    (served_of_raisedOutsideWindows (by decide) (stepsMeet_pollReaches (by decide)) hs).1⟩

/-- A frame of priority 50 that comes in after `krtd` has read priority 1: `kmond` raises `krtd`,
which then stores the old value and sleeps with the frame in its queue. -/
theorem frame_behind_sleeping_krtd :
    ∃ s : RtHandler Kernel.hashMin ℕ,
      run step init (.setPort true 50 7411 :: List.replicate 6 .kmond ++ [.krtd, .krtd] ++
        .arrive 50 1 :: List.replicate 9 .kmond ++ List.replicate 4 .krtd) = some s ∧
      s.KmondAsleep ∧ s.KrtdAsleep ∧ s.service.highestPri = 50 ∧ s.krtd.rtPriority = 1 ∧
      s.service.pq.cell 50 = [⟨50, 1⟩] ∧ ¬ s.Served := by
  obtain ⟨s, hs⟩ : ∃ s : RtHandler Kernel.hashMin ℕ,
      run step init (.setPort true 50 7411 :: List.replicate 6 .kmond ++ [.krtd, .krtd] ++
        .arrive 50 1 :: List.replicate 9 .kmond ++ List.replicate 4 .krtd) = some s := ⟨_, rfl⟩
  have hend : s.KmondAsleep ∧ s.KrtdAsleep ∧ s.service.highestPri = 50 ∧ s.krtd.rtPriority = 1 ∧
      s.service.pq.cell 50 = [⟨50, 1⟩] := by
    obtain rfl := Option.some.inj hs
    exact ⟨by decide, by decide, by decide, by decide, by decide⟩
  refine ⟨s, hs, hend.1, hend.2.1, hend.2.2.1, hend.2.2.2.1, hend.2.2.2.2, fun hserved => ?_⟩
  have hempty := (hserved hend.1).2 hend.2.1 50 (by decide) (by decide)
  rw [hend.2.2.2.2] at hempty
  cases hempty

end RtHandler

end CrosRt
