import CrosRt.NetCore.NapiScheduling

/-! # One owner, no lost call

`NAPI_STATE_SCHED` has at most one owner: a poll list that links the instance, a context between two
statements, or the device being down. From this, in every run, the instance is linked at most once and
not while it is polled, no two contexts poll it, none polls it while it is disabled, and a call of
`napi_schedule` that was not refused is followed by a poll before the token is given up.
-/

namespace CrosRt
set_option autoImplicit false

open LabelledRuns Holder

variable {T C : Type*}

namespace NapiPc

/-- The statements at which a context has set `SCHED` and not passed it on. -/
def owns : NapiPc → Bool
  | .idle | .watchdog | .disable => false
  | _ => true

/-- The statements of `napi_disable`. -/
def disabling : NapiPc → Bool
  | .disable | .disableNpsvc | .disableClear => true
  | _ => false

/-- A poll is still to come: the context will link, poll or link again, or it has yet to see that a
call was missed. -/
def serves (missed : Bool) : NapiPc → Bool
  | .schedule | .testSched | .repoll => true
  | .poll | .completeDone | .completeSwap | .exhausted => missed
  | _ => false

/-- A missed call does not end what serves an earlier one. -/
theorem serves_missed {missed : Bool} {pc : NapiPc} (h : pc.serves missed = true) :
    pc.serves true = true := by
  cases pc <;> first | rfl | cases h

end NapiPc

/-- Who holds the token. -/
inductive NapiOwner (T C : Type*)
  | link (l : PollList T C)
  | context (t : T)
  | down

namespace NapiOwner

def links : Option (NapiOwner T C) → List (PollList T C)
  | some (.link l) => [l]
  | _ => []

def context? : Option (NapiOwner T C) → Option T
  | some (.context t) => some t
  | _ => none

end NapiOwner

namespace NapiSched

open NapiOwner

/-- What the owner will still do about a wanted poll. -/
def Serves (a : Option (NapiOwner T C)) (pc : T → NapiPc) (missed : Bool) : Prop :=
  match a with
  | some (.link _) => True
  | some (.context t) => (pc t).serves missed = true
  | _ => False

/-- `NAPI_STATE_NPSVC` is only set while `napi_disable` has the instance. -/
def HoldsNpsvc (a : Option (NapiOwner T C)) (pc : T → NapiPc) : Prop :=
  match a with
  | some .down => True
  | some (.context t) => pc t = .disableClear
  | _ => False

/-- The state has the owner `a`, and `d` is calling `napi_disable`. -/
structure Owned (s : NapiSched T C) (a : Option (NapiOwner T C)) (d : Option T) : Prop where
  sched : s.sched = a.isSome
  lists : s.lists = links a
  context : HeldBy (fun t => (s.pc t).owns = true) (context? a)
  down : s.down = true ↔ a = some .down
  npsvc : s.npsvc = true → HoldsNpsvc a s.pc
  disabler : HeldBy (fun t => (s.pc t).disabling = true) d
  disable : s.disable = d.isSome
  wanted : s.wanted = true → Serves a s.pc s.missed

theorem owned_init : (init T C).Owned (some .down) none where
  sched := rfl
  lists := rfl
  context := heldBy_none.mpr fun _ => nofun
  down := iff_of_true rfl rfl
  npsvc := fun _ => trivial
  disabler := heldBy_none.mpr fun _ => nofun
  disable := rfl
  wanted := nofun

variable {s : NapiSched T C} {a : Option (NapiOwner T C)} {d : Option T} {t : T}

theorem Owned.ctx_eq (h : s.Owned a d) (ht : (s.pc t).owns = true) : a = some (.context t) := by
  have hctx := h.context.owner_eq ht
  match a, hctx with
  | some (.context u), hctx => rw [Option.some.inj hctx]

theorem Owned.ne_ctx (h : s.Owned a d) (ht : (s.pc t).owns = false) : a ≠ some (.context t) := by
  rintro rfl
  have hown : (s.pc t).owns = true := (h.context t).mpr rfl
  rw [ht] at hown
  cases hown

section Update
variable [DecidableEq T]

theorem serves_update {pc : T → NapiPc} {p : NapiPc} {m : Bool} (ha : a ≠ some (.context t)) :
    Serves a (Function.update pc t p) m ↔ Serves a pc m := by
  match a with
  | none => rfl
  | some (.link l) => rfl
  | some .down => rfl
  | some (.context u) =>
    have hu : u ≠ t := fun h => ha (by rw [h])
    show (Function.update pc t p u).serves m = true ↔ (pc u).serves m = true
    rw [Function.update_of_ne hu]

theorem holdsNpsvc_update {pc : T → NapiPc} {p : NapiPc} (ha : a ≠ some (.context t)) :
    HoldsNpsvc a (Function.update pc t p) ↔ HoldsNpsvc a pc := by
  match a with
  | none => rfl
  | some (.link l) => rfl
  | some .down => rfl
  | some (.context u) =>
    have hu : u ≠ t := fun h => ha (by rw [h])
    show Function.update pc t p u = .disableClear ↔ pc u = .disableClear
    rw [Function.update_of_ne hu]

end Update

theorem Serves.missed {pc : T → NapiPc} {m : Bool} (h : Serves a pc m) : Serves a pc true := by
  match a with
  | some (.link l) => trivial
  | some (.context u) => exact NapiPc.serves_missed h

theorem Owned.not_wanted_of_none (h : s.Owned none d) : s.wanted = false := by
  cases hw : s.wanted with
  | false => rfl
  | true => exact (h.wanted hw).elim

theorem Owned.none_of_sched (h : s.Owned a d) (hs : s.sched = false) : a = none := by
  have := h.sched
  rw [hs] at this
  exact Option.isNone_iff_eq_none.mp (by rw [← Option.not_isSome, ← this]; rfl)

theorem Owned.disabler_none (h : s.Owned a d) (hd : s.disable = false) : d = none := by
  have hsome := h.disable
  rw [hd] at hsome
  exact Option.isNone_iff_eq_none.mp (by rw [← Option.not_isSome, ← hsome]; rfl)

/-- Outside `napi_disable`, whoever holds the token will see that a call was missed. -/
theorem Owned.serves_missed (h : s.Owned a d) (hd : s.disable = false) (hs : s.sched = true)
    (hdown : s.down = false) : Serves a s.pc true := by
  match ha : a with
  | none =>
    have hsome := h.sched
    rw [hs] at hsome
    cases hsome
  | some (.link l) => trivial
  | some .down =>
    have hdown' := h.down.mpr rfl
    rw [hdown] at hdown'
    cases hdown'
  | some (.context u) =>
    have hown : (s.pc u).owns = true := (h.context u).mpr rfl
    have hno : ¬ (s.pc u).disabling = true := by
      intro hdis
      have := (h.disabler u).mp hdis
      rw [h.disabler_none hd] at this
      cases this
    show (s.pc u).serves true = true
    revert hown hno
    cases s.pc u <;> simp [NapiPc.owns, NapiPc.disabling, NapiPc.serves]

theorem Owned.lists_nil (h : s.Owned a d) (ht : (s.pc t).owns = true) : s.lists = [] := by
  rw [h.lists, h.ctx_eq ht]
  rfl

theorem Owned.npsvc_false (h : s.Owned a d) (ht : (s.pc t).owns = true)
    (hclear : s.pc t ≠ .disableClear) : s.npsvc = false := by
  obtain rfl := h.ctx_eq ht
  cases hn : s.npsvc with
  | false => rfl
  | true => exact absurd (h.npsvc hn) hclear

/-- Splicing one list into another only renames where the instance is linked. -/
theorem Owned.map_lists (h : s.Owned a d) (f : PollList T C → PollList T C) :
    ∃ a', ({ s with lists := s.lists.map f } : NapiSched T C).Owned a' d := by
  match a with
  | some (.link l) =>
    refine ⟨some (.link (f l)), { h with lists := ?_, down := ?_ }⟩
    · show s.lists.map f = [f l]
      rw [h.lists]
      rfl
    · exact iff_of_false (fun hdown => nomatch h.down.mp hdown) nofun
  | none | some (.context u) | some .down =>
    refine ⟨_, { h with lists := ?_ }⟩
    show s.lists.map f = []
    rw [h.lists]
    rfl

theorem owned_enable (h : s.Owned a d) (hdown : s.down = true) :
    ({ s with sched := false, npsvc := false, down := false } : NapiSched T C).Owned none d := by
  obtain rfl := h.down.mp hdown
  exact {
    sched := rfl
    lists := h.lists
    context := h.context
    down := iff_of_false nofun nofun
    npsvc := nofun
    disabler := h.disabler
    disable := h.disable
    wanted := h.wanted }

/-! ## A context moves -/

section Steps
variable [DecidableEq T]

/-- A context that does not own the token moves to another statement where it does not. -/
theorem Owned.goto (h : s.Owned a d) {p : NapiPc} (ht : (s.pc t).owns = false)
    (hp : p.owns = false) (hd : p.disabling = (s.pc t).disabling) : (s.goto t p).Owned a d := by
  have hne := h.ne_ctx ht
  exact {
    sched := h.sched
    lists := h.lists
    context := h.context.keep (fun pc : NapiPc => pc.owns = true) (by rw [ht, hp])
    down := h.down
    npsvc := fun hn => (holdsNpsvc_update hne).mpr (h.npsvc hn)
    disabler := h.disabler.keep (fun pc : NapiPc => pc.disabling = true) (by rw [hd])
    disable := h.disable
    wanted := fun hw => (serves_update hne).mpr (h.wanted hw) }

/-- The owner moves to another statement and keeps the token. -/
theorem Owned.goto_owner (h : s.Owned a d) {p : NapiPc} (ht : (s.pc t).owns = true)
    (hp : p.owns = true) (hd : p.disabling = (s.pc t).disabling) (hclear : s.pc t ≠ .disableClear)
    (hserves : (s.pc t).serves s.missed = true → p.serves s.missed = true) :
    (s.goto t p).Owned a d := by
  obtain rfl := h.ctx_eq ht
  exact {
    sched := h.sched
    lists := h.lists
    context := h.context.keep (fun pc : NapiPc => pc.owns = true) (by rw [ht, hp])
    down := h.down
    npsvc := fun hn => absurd (h.npsvc hn) hclear
    disabler := h.disabler.keep (fun pc : NapiPc => pc.disabling = true) (by rw [hd])
    disable := h.disable
    wanted := fun hw => by
      show (Function.update s.pc t p t).serves s.missed = true
      rw [Function.update_self]
      exact hserves (h.wanted hw) }

/-- A context takes the free token. -/
theorem Owned.take (h : s.Owned none d) {p : NapiPc} (hp : p.owns = true)
    (hd : p.disabling = (s.pc t).disabling) {m w : Bool} (hw : w = true → p.serves m = true) :
    (({ s with sched := true, missed := m, wanted := w } : NapiSched T C).goto t p).Owned
      (some (.context t)) d where
  sched := rfl
  lists := h.lists
  context := h.context.acquire (fun pc : NapiPc => pc.owns = true) hp
  down := iff_of_false (fun hdown => nomatch h.down.mp hdown) nofun
  npsvc := fun hn => (h.npsvc hn).elim
  disabler := h.disabler.keep (fun pc : NapiPc => pc.disabling = true) (by rw [hd])
  disable := h.disable
  wanted := fun hwant => by
    show (Function.update s.pc t p t).serves m = true
    rw [Function.update_self]
    exact hw hwant

theorem schedulePrep_taken (hd : s.disable = false) (hs : s.sched = true) (t : T) :
    s.schedulePrep t = { s with missed := true, wanted := s.wanted || !s.down } := by
  obtain ⟨sched, missed, disable, npsvc, lists, down, pc, wanted⟩ := s
  obtain rfl : disable = false := hd
  obtain rfl : sched = true := hs
  simp [schedulePrep]

theorem schedulePrep_free (hd : s.disable = false) (hs : s.sched = false) (t : T) :
    s.schedulePrep t = ({ s with
      sched := true
      missed := s.missed
      wanted := s.wanted || !s.down } : NapiSched T C).goto t .schedule := by
  obtain ⟨sched, missed, disable, npsvc, lists, down, pc, wanted⟩ := s
  obtain rfl : disable = false := hd
  obtain rfl : sched = false := hs
  simp [schedulePrep]

theorem owned_schedulePrep (h : s.Owned a d) (ht : s.pc t = .idle) :
    ∃ a', (s.schedulePrep t).Owned a' d := by
  cases hdis : s.disable with
  | true =>
    have hsame : s.schedulePrep t = s := if_pos hdis
    rw [hsame]
    exact ⟨a, h⟩
  | false =>
    cases hs : s.sched with
    | true =>
      -- The token is taken: the call is missed, and its owner will notice.
      rw [schedulePrep_taken hdis hs]
      refine ⟨a, { h with wanted := fun hw => ?_ }⟩
      rcases (Bool.or_eq_true _ _).mp hw with hw | hw
      · exact (h.wanted hw).missed
      · exact h.serves_missed hdis hs (Bool.not_eq_true' _ ▸ hw)
    | false =>
      rw [schedulePrep_free hdis hs]
      obtain rfl := h.none_of_sched hs
      exact ⟨_, h.take rfl (by rw [ht]; rfl) fun _ => rfl⟩

/-- The owner links the instance into a list and is done. -/
theorem Owned.give_link (h : s.Owned a d) (ht : (s.pc t).owns = true)
    (hd : (s.pc t).disabling = false) (l : PollList T C) :
    (({ s with lists := [l] } : NapiSched T C).goto t .idle).Owned (some (.link l)) d := by
  obtain rfl := h.ctx_eq ht
  exact {
    sched := h.sched
    lists := rfl
    context := h.context.release (fun pc : NapiPc => pc.owns = true) ht nofun
    down := iff_of_false (fun hdown => nomatch h.down.mp hdown) nofun
    npsvc := fun hn => by
      have hclear : s.pc t = .disableClear := h.npsvc hn
      rw [hclear] at hd
      cases hd
    disabler := h.disabler.keep (fun pc : NapiPc => pc.disabling = true) (by rw [hd]; rfl)
    disable := h.disable
    wanted := fun _ => trivial }

theorem owned_schedule (h : s.Owned a d) (ht : s.pc t = .schedule) (cpu : C) :
    ∃ a', (s.schedule t cpu).Owned a' d := by
  have hown : (s.pc t).owns = true := by rw [ht]; rfl
  unfold schedule
  rw [h.lists_nil hown]
  exact ⟨_, h.give_link hown (by rw [ht]; rfl) _⟩

theorem owned_watchdogSet (h : s.Owned a d) (ht : s.pc t = .watchdog) :
    ∃ a', (s.watchdogSet t).Owned a' d := by
  unfold watchdogSet
  cases hs : s.sched with
  | true => exact ⟨a, h.goto (by rw [ht]; rfl) rfl (by rw [ht]; rfl)⟩
  | false =>
    obtain rfl := h.none_of_sched hs
    exact ⟨_, h.take rfl (by rw [ht]; rfl) fun _ => rfl⟩

theorem owned_unlink (h : s.Owned a d) (ht : s.pc t = .idle) {l : PollList T C}
    (hl : l ∈ s.lists) : ∃ a', (s.unlink t).Owned a' d := by
  match a with
  | some (.link l') =>
    exact ⟨some (.context t), {
      sched := h.sched
      lists := rfl
      context := h.context.acquire (fun pc : NapiPc => pc.owns = true) rfl
      down := iff_of_false (fun hdown => nomatch h.down.mp hdown) nofun
      npsvc := fun hn => (h.npsvc hn).elim
      disabler := h.disabler.keep (fun pc : NapiPc => pc.disabling = true) (by rw [ht]; rfl)
      disable := h.disable
      wanted := fun _ => by
        show (Function.update s.pc t .testSched t).serves s.missed = true
        rw [Function.update_self]
        rfl }⟩
  | none | some (.context u) | some .down =>
    rw [h.lists] at hl
    cases hl

theorem owned_testSched (h : s.Owned a d) (ht : s.pc t = .testSched) :
    ∃ a', (s.testSched t).Owned a' d := by
  have hown : (s.pc t).owns = true := by rw [ht]; rfl
  obtain rfl := h.ctx_eq hown
  have hsched : s.sched = true := h.sched
  have htest : s.testSched t = ({ s with wanted := false } : NapiSched T C).goto t .poll :=
    if_pos hsched
  rw [htest]
  refine ⟨_, {
    sched := h.sched
    lists := h.lists
    context := h.context.keep (fun pc : NapiPc => pc.owns = true) (by rw [ht]; rfl)
    down := h.down
    npsvc := fun hn => by
      have hclear : s.pc t = .disableClear := h.npsvc hn
      rw [ht] at hclear
      cases hclear
    disabler := h.disabler.keep (fun pc : NapiPc => pc.disabling = true) (by rw [ht]; rfl)
    disable := h.disable
    wanted := nofun }⟩

theorem owned_completeDone (h : s.Owned a d) (ht : s.pc t = .completeDone) :
    ∃ a', (s.completeDone t).Owned a' d := by
  have hown : (s.pc t).owns = true := by rw [ht]; rfl
  have hclear : s.pc t ≠ .disableClear := by rw [ht]; nofun
  have hlists : ({ s with lists := [] } : NapiSched T C) = s := by
    rw [← h.lists_nil hown]
  have hdone : s.completeDone t = ({ s with lists := [] } : NapiSched T C).goto t .completeSwap :=
    if_neg (by rw [h.npsvc_false hown hclear]; exact Bool.false_ne_true)
  rw [hdone, hlists]
  refine ⟨a, h.goto_owner hown rfl (by rw [ht]; rfl) hclear ?_⟩
  rw [ht]
  exact id

theorem owned_completeSwap (h : s.Owned a d) (ht : s.pc t = .completeSwap) :
    ∃ a', (s.completeSwap t).Owned a' d := by
  have hown : (s.pc t).owns = true := by rw [ht]; rfl
  have hclear : s.pc t ≠ .disableClear := by rw [ht]; nofun
  have hn := h.npsvc_false hown hclear
  obtain rfl := h.ctx_eq hown
  unfold completeSwap
  cases hm : s.missed with
  | true =>
    refine ⟨some (.context t), {
      sched := rfl
      lists := h.lists
      context := h.context.keep (fun pc : NapiPc => pc.owns = true) (by rw [ht]; rfl)
      down := h.down
      npsvc := fun hn' => absurd (hn.symm.trans hn') Bool.false_ne_true
      disabler := h.disabler.keep (fun pc : NapiPc => pc.disabling = true) (by rw [ht]; rfl)
      disable := h.disable
      wanted := fun _ => ?_ }⟩
    show (Function.update s.pc t .schedule t).serves false = true
    rw [Function.update_self]
    rfl
  | false =>
    refine ⟨none, {
      sched := rfl
      lists := h.lists
      context := h.context.release (fun pc : NapiPc => pc.owns = true) hown nofun
      down := iff_of_false (fun hdown => nomatch h.down.mp hdown) nofun
      npsvc := fun hn' => absurd (hn.symm.trans hn') Bool.false_ne_true
      disabler := h.disabler.keep (fun pc : NapiPc => pc.disabling = true) (by rw [ht]; rfl)
      disable := h.disable
      wanted := fun hw => ?_ }⟩
    have hserves : (s.pc t).serves s.missed = true := h.wanted hw
    rw [ht, hm] at hserves
    cases hserves

theorem owned_repoll (h : s.Owned a d) (ht : s.pc t = .repoll) :
    ∃ a', (s.repoll t).Owned a' d := by
  have hown : (s.pc t).owns = true := by rw [ht]; rfl
  unfold repoll
  rw [if_pos (h.lists_nil hown)]
  exact ⟨_, h.give_link hown (by rw [ht]; rfl) _⟩

theorem owned_disableSched (h : s.Owned a d) (ht : s.pc t = .disable) :
    ∃ a', (s.disableSched t).Owned a' d := by
  unfold disableSched
  cases hs : s.sched with
  | true => exact ⟨a, h⟩
  | false =>
    obtain rfl := h.none_of_sched hs
    have hw := h.not_wanted_of_none
    exact ⟨_, h.take (p := .disableNpsvc) (m := s.missed) (w := s.wanted) rfl (by rw [ht]; rfl)
      fun hw' => absurd (hw.symm.trans hw') Bool.false_ne_true⟩

theorem owned_disableNpsvc (h : s.Owned a d) (ht : s.pc t = .disableNpsvc) :
    ∃ a', (s.disableNpsvc t).Owned a' d := by
  have hown : (s.pc t).owns = true := by rw [ht]; rfl
  have hclear : s.pc t ≠ .disableClear := by rw [ht]; nofun
  have hn := h.npsvc_false hown hclear
  obtain rfl := h.ctx_eq hown
  have hset : s.disableNpsvc t = ({ s with npsvc := true } : NapiSched T C).goto t .disableClear :=
    if_neg (by rw [hn]; exact Bool.false_ne_true)
  rw [hset]
  refine ⟨_, {
    sched := h.sched
    lists := h.lists
    context := h.context.keep (fun pc : NapiPc => pc.owns = true) (by rw [ht]; rfl)
    down := h.down
    npsvc := fun _ => Function.update_self ..
    disabler := h.disabler.keep (fun pc : NapiPc => pc.disabling = true) (by rw [ht]; rfl)
    disable := h.disable
    wanted := fun hw => ?_ }⟩
  have hserves : (s.pc t).serves s.missed = true := h.wanted hw
  rw [ht] at hserves
  cases hserves

theorem owned_disableClear (h : s.Owned a d) (ht : s.pc t = .disableClear) :
    (s.disableClear t).Owned (some .down) none := by
  have hown : (s.pc t).owns = true := by rw [ht]; rfl
  have hdis : (s.pc t).disabling = true := by rw [ht]; rfl
  obtain rfl := h.ctx_eq hown
  refine {
    sched := h.sched
    lists := h.lists
    context := h.context.release (fun pc : NapiPc => pc.owns = true) hown nofun
    down := iff_of_true rfl rfl
    npsvc := fun _ => trivial
    disabler := h.disabler.release (fun pc : NapiPc => pc.disabling = true) hdis nofun
    disable := rfl
    wanted := fun hw => ?_ }
  have hserves : (s.pc t).serves s.missed = true := h.wanted hw
  rw [ht] at hserves
  cases hserves

theorem owned_disable (h : s.Owned a d) (ht : s.pc t = .idle) (hdis : s.disable = false) :
    (({ s with disable := true } : NapiSched T C).goto t .disable).Owned a (some t) := by
  have hd := h.disabler_none hdis
  subst hd
  have hne := h.ne_ctx (t := t) (by rw [ht]; rfl)
  exact {
    sched := h.sched
    lists := h.lists
    context := h.context.keep (fun pc : NapiPc => pc.owns = true) (by rw [ht]; rfl)
    down := h.down
    npsvc := fun hn => (holdsNpsvc_update hne).mpr (h.npsvc hn)
    disabler := h.disabler.acquire (fun pc : NapiPc => pc.disabling = true) rfl
    disable := rfl
    wanted := fun hw => (serves_update hne).mpr (h.wanted hw) }

end Steps

/-! ## Runs -/

section Runs
variable [DecidableEq T] [DecidableEq C] {cpuOf : T → C}

theorem owned_step {s' : NapiSched T C} {e : NapiSchedEvent T} (h : s.Owned a d)
    (hst : step cpuOf s e = some s') : ∃ a' d', s'.Owned a' d' := by
  unfold step at hst
  dsimp only at hst
  split at hst
  case h_1 hpc =>
    obtain rfl := Option.some.inj hst
    obtain ⟨a', h'⟩ := owned_schedulePrep h hpc
    exact ⟨a', d, h'⟩
  case h_2 hpc =>
    obtain rfl := Option.some.inj hst
    obtain ⟨a', h'⟩ := owned_schedule h hpc (cpuOf e.ctx)
    exact ⟨a', d, h'⟩
  case h_3 hpc =>
    obtain rfl := Option.some.inj hst
    split
    · exact ⟨a, d, h⟩
    · exact ⟨a, d, h.goto (by rw [hpc]; rfl) rfl (by rw [hpc]; rfl)⟩
  case h_4 hpc =>
    obtain rfl := Option.some.inj hst
    obtain ⟨a', h'⟩ := owned_watchdogSet h hpc
    exact ⟨a', d, h'⟩
  case h_5 hpc =>
    obtain rfl := Option.some.inj hst
    obtain ⟨a', h'⟩ := h.map_lists fun l => if l = .softnet (cpuOf e.ctx) then .list e.ctx else l
    exact ⟨a', d, h'⟩
  case h_6 hpc =>
    rw [Option.ite_none_right_eq_some] at hst
    obtain rfl := Option.some.inj hst.2
    obtain ⟨a', h'⟩ := owned_unlink h hpc hst.1
    exact ⟨a', d, h'⟩
  case h_7 hpc =>
    obtain rfl := Option.some.inj hst
    obtain ⟨a', h'⟩ := owned_testSched h hpc
    exact ⟨a', d, h'⟩
  case h_8 exhausted _ hpc =>
    obtain rfl := Option.some.inj hst
    refine ⟨a, d, ?_⟩
    cases exhausted <;>
      exact h.goto_owner (by rw [hpc]; rfl) rfl (by rw [hpc]; rfl) (by rw [hpc]; nofun)
        (by rw [hpc]; exact id)
  case h_9 hpc =>
    obtain rfl := Option.some.inj hst
    obtain ⟨a', h'⟩ := owned_completeDone h hpc
    exact ⟨a', d, h'⟩
  case h_10 hpc =>
    obtain rfl := Option.some.inj hst
    obtain ⟨a', h'⟩ := owned_completeSwap h hpc
    exact ⟨a', d, h'⟩
  case h_11 hpc =>
    obtain rfl := Option.some.inj hst
    refine ⟨a, d, ?_⟩
    cases s.disable with
    | true =>
      exact h.goto_owner (by rw [hpc]; rfl) rfl (by rw [hpc]; rfl) (by rw [hpc]; nofun)
        (by rw [hpc]; exact id)
    | false =>
      exact h.goto_owner (by rw [hpc]; rfl) rfl (by rw [hpc]; rfl) (by rw [hpc]; nofun)
        fun _ => rfl
  case h_12 hpc =>
    obtain rfl := Option.some.inj hst
    obtain ⟨a', h'⟩ := owned_repoll h hpc
    exact ⟨a', d, h'⟩
  case h_13 hpc =>
    obtain rfl := Option.some.inj hst
    obtain ⟨a', h'⟩ := h.map_lists fun l =>
      if l = .list e.ctx ∨ l = .repoll e.ctx then .softnet (cpuOf e.ctx) else l
    exact ⟨a', d, h'⟩
  case h_14 hpc =>
    rw [Option.ite_none_left_eq_some] at hst
    obtain rfl := Option.some.inj hst.2
    have hdis : s.disable = false := by
      cases hd : s.disable with
      | false => rfl
      | true => exact absurd (by rw [hd]; rfl) hst.1
    exact ⟨a, _, owned_disable h hpc hdis⟩
  case h_15 hpc =>
    obtain rfl := Option.some.inj hst
    obtain ⟨a', h'⟩ := owned_disableSched h hpc
    exact ⟨a', d, h'⟩
  case h_16 hpc =>
    obtain rfl := Option.some.inj hst
    obtain ⟨a', h'⟩ := owned_disableNpsvc h hpc
    exact ⟨a', d, h'⟩
  case h_17 hpc =>
    obtain rfl := Option.some.inj hst
    exact ⟨_, _, owned_disableClear h hpc⟩
  case h_18 hpc =>
    rw [Option.ite_none_right_eq_some] at hst
    obtain rfl := Option.some.inj hst.2
    exact ⟨_, d, owned_enable h hst.1⟩
  case h_19 => cases hst

theorem owned_run {s' : NapiSched T C} {es : List (NapiSchedEvent T)} (h : ∃ a d, s.Owned a d)
    (hrun : run (step cpuOf) s es = some s') : ∃ a d, s'.Owned a d :=
  run_invariant (I := fun s : NapiSched T C => ∃ a d, s.Owned a d)
    (fun _ _ _ ⟨_, _, h⟩ hst => owned_step h hst) h hrun

/-- **One owner.** In every run the instance is linked at most once; a context that polls it, or is
on the way to or from a poll, is the only one and the instance is neither linked nor disabled; and
`SCHED` is set exactly while the instance is linked, down, or in the hands of a context. -/
theorem napi_single_owner {es : List (NapiSchedEvent T)}
    (h : run (step cpuOf) (init T C) es = some s) :
    s.lists.length ≤ 1 ∧
      (∀ t, (s.pc t).owns = true → s.lists = [] ∧ s.down = false ∧
        ∀ u, (s.pc u).owns = true → u = t) ∧
      (s.down = true → s.lists = []) ∧
      (s.sched = true ↔ s.lists ≠ [] ∨ s.down = true ∨ ∃ t, (s.pc t).owns = true) := by
  obtain ⟨a, d, ho⟩ := owned_run ⟨_, _, owned_init⟩ h
  refine ⟨?_, ?_, ?_, ?_⟩
  · rw [ho.lists]
    match a with
    | some (.link l) => exact le_rfl
    | none | some (.context t) | some .down => exact Nat.zero_le _
  · intro t ht
    obtain rfl := ho.ctx_eq ht
    refine ⟨ho.lists, ?_, fun u hu => ho.context.eq hu ht⟩
    cases hdown : s.down with
    | false => rfl
    | true => cases ho.down.mp hdown
  · intro hdown
    obtain rfl := ho.down.mp hdown
    exact ho.lists
  · rw [ho.sched, ho.lists, ho.down]
    match a with
    | none =>
      refine iff_of_false nofun ?_
      rintro (hl | hd | ⟨t, ht⟩)
      · exact hl rfl
      · cases hd
      · exact absurd ht (heldBy_none.mp ho.context t)
    | some (.link l) => exact iff_of_true rfl (Or.inl (List.cons_ne_nil _ _))
    | some .down => exact iff_of_true rfl (Or.inr (Or.inl rfl))
    | some (.context t) =>
      exact iff_of_true rfl (Or.inr (Or.inr ⟨t, (ho.context t).mpr rfl⟩))

/-- Only a poll ends a wanted one. -/
theorem wanted_step {s' : NapiSched T C} {e : NapiSchedEvent T} (hst : step cpuOf s e = some s')
    (he : e.action ≠ .testSched) (hw : s.wanted = true) : s'.wanted = true := by
  unfold step at hst
  dsimp only at hst
  split at hst
  case h_1 =>
    obtain rfl := Option.some.inj hst
    unfold schedulePrep
    dsimp only
    split
    · exact hw
    · split <;> (show (s.wanted || !s.down) = true; rw [hw]; rfl)
  case h_4 =>
    obtain rfl := Option.some.inj hst
    unfold watchdogSet
    split <;> exact hw
  case h_7 hact _ => exact absurd hact he
  case h_9 =>
    obtain rfl := Option.some.inj hst
    unfold completeDone
    split <;> exact hw
  case h_12 =>
    obtain rfl := Option.some.inj hst
    unfold repoll
    split <;> exact hw
  case h_15 =>
    obtain rfl := Option.some.inj hst
    unfold disableSched
    split <;> exact hw
  case h_16 =>
    obtain rfl := Option.some.inj hst
    unfold disableNpsvc
    split <;> exact hw
  case h_3 =>
    obtain rfl := Option.some.inj hst
    split <;> exact hw
  case h_6 =>
    rw [Option.ite_none_right_eq_some] at hst
    obtain rfl := Option.some.inj hst.2
    exact hw
  case h_14 =>
    rw [Option.ite_none_left_eq_some] at hst
    obtain rfl := Option.some.inj hst.2
    exact hw
  case h_18 =>
    rw [Option.ite_none_right_eq_some] at hst
    obtain rfl := Option.some.inj hst.2
    exact hw
  case h_19 => cases hst
  all_goals
    obtain rfl := Option.some.inj hst
    exact hw

/-- **No lost call.** After a call of `napi_schedule` that finds the instance neither down nor being
disabled, and until a poll begins, whatever the contexts do, the instance stays scheduled: it is
linked, or a context is about to link or poll it or will see that a call was missed; nothing takes it
down. -/
theorem napi_schedule_not_lost {es es' : List (NapiSchedEvent T)} {s₁ u : NapiSched T C} {t : T}
    (h : run (step cpuOf) (init T C) es = some s)
    (hcall : step cpuOf s ⟨t, .schedulePrep⟩ = some s₁) (hdown : s.down = false)
    (hdis : s.disable = false) (hrun : run (step cpuOf) s₁ es' = some u)
    (hno : ∀ e ∈ es', e.action ≠ .testSched) :
    u.sched = true ∧ u.down = false ∧
      (u.lists ≠ [] ∨ ∃ t, (u.pc t).serves u.missed = true) := by
  obtain ⟨a, d, ho⟩ := owned_run ⟨_, _, owned_init⟩ h
  obtain ⟨a₁, d₁, ho₁⟩ := owned_step ho hcall
  have hw₁ : s₁.wanted = true := by
    have hprep : s.schedulePrep t = s₁ := by
      cases hpc : s.pc t <;> simp only [step, hpc, reduceCtorEq, Option.some.injEq] at hcall
      exact hcall
    rw [← hprep]
    have hnot : (s.wanted || !s.down) = true := by rw [hdown, Bool.not_false, Bool.or_true]
    cases hs : s.sched with
    | true => rw [schedulePrep_taken hdis hs]; exact hnot
    | false => rw [schedulePrep_free hdis hs]; exact hnot
  obtain ⟨a', d', ho'⟩ := owned_run ⟨a₁, d₁, ho₁⟩ hrun
  have hw : u.wanted = true := by
    clear ho' ho₁ hcall
    induction es' generalizing s₁ with
    | nil =>
      obtain rfl := Option.some.inj hrun
      exact hw₁
    | cons e es' ih =>
      obtain ⟨s₂, h₂, hrest⟩ := run_cons_eq_some.mp hrun
      exact ih hrest (fun e' he' => hno e' (List.mem_cons_of_mem _ he'))
        (wanted_step h₂ (hno e List.mem_cons_self) hw₁)
  have hserves := ho'.wanted hw
  match a' with
  | some (.link l) =>
    refine ⟨ho'.sched, ?_, Or.inl ?_⟩
    · cases hd : u.down with
      | false => rfl
      | true => cases ho'.down.mp hd
    · rw [ho'.lists]
      exact List.cons_ne_nil _ _
  | some (.context t') =>
    refine ⟨ho'.sched, ?_, Or.inr ⟨t', hserves⟩⟩
    cases hd : u.down with
    | false => rfl
    | true => cases ho'.down.mp hd
  | some .down => exact hserves.elim
  | none => exact hserves.elim

/-- Two contexts on one CPU: a call during the poll is missed, and the poll is scheduled again. -/
def missedCall : List (NapiSchedEvent Bool) :=
  [⟨false, .enable⟩, ⟨false, .schedulePrep⟩, ⟨false, .schedule⟩, ⟨true, .rxBegin⟩,
    ⟨true, .unlink⟩, ⟨true, .testSched⟩]

def missedPoll : List (NapiSchedEvent Bool) :=
  [⟨true, .pollReturns false⟩, ⟨true, .completeDone⟩, ⟨true, .completeSwap⟩, ⟨true, .schedule⟩]

theorem napi_single_owner_missed_call :
    ∃ s, run (step fun _ => ()) (init Bool Unit) missedCall = some s ∧ s.pc true = .poll ∧
      s.lists = [] ∧ s.down = false := by
  obtain ⟨s, hs⟩ : ∃ s, run (step fun _ => ()) (init Bool Unit) missedCall = some s := ⟨_, rfl⟩
  have hpc : s.pc true = .poll := by
    obtain rfl := Option.some.inj hs
    decide
  obtain ⟨hlists, hdown, -⟩ := (napi_single_owner hs).2.1 true (by rw [hpc]; rfl)
  exact ⟨s, hs, hpc, hlists, hdown⟩

theorem napi_schedule_not_lost_missed_call :
    ∃ s s₁ u, run (step fun _ => ()) (init Bool Unit) missedCall = some s ∧
      step (fun _ => ()) s ⟨false, .schedulePrep⟩ = some s₁ ∧
      run (step fun _ => ()) s₁ missedPoll = some u ∧ u.sched = true ∧ u.down = false := by
  obtain ⟨s, hs, s₁, h₁, u, hu, hdown, hdis⟩ :
      ∃ s, run (step fun _ => ()) (init Bool Unit) missedCall = some s ∧
        ∃ s₁, step (fun _ => ()) s ⟨false, .schedulePrep⟩ = some s₁ ∧
          ∃ u, run (step fun _ => ()) s₁ missedPoll = some u ∧ s.down = false ∧
            s.disable = false :=
    ⟨_, rfl, _, rfl, _, rfl, by decide, by decide⟩
  have h := napi_schedule_not_lost hs h₁ hdown hdis hu (by decide)
  exact ⟨s, s₁, u, hs, h₁, hu, h.1, h.2.1⟩

end Runs

end NapiSched

end CrosRt
