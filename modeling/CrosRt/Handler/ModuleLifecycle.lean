import Mathlib.Data.Set.Insert
import Mathlib.Data.List.Count
import Mathlib.Algebra.Order.Ring.Int
import CrosRt.Foundations.LabelledRuns

/-! # Loading and unloading the handler modules

The init and exit functions of `rt_handler.c`, `non_rt_bg.c` and `non_rt_pl.c`, in any sequence of
loads and unloads, each kernel call of an init function succeeding or not. The error paths follow the
labels of the source: a function is an `Action`, and a `goto` names the action at its label.

`kthread_run` reports a failure by an `ERR_PTR`, which the test for `NULL` lets through; the next
call on it reads through the pointer. All paths return 0.
-/

namespace CrosRt
set_option autoImplicit false

inductive HandlerModule
  | rtHandler
  | nonRtBg
  | nonRtPl
  deriving DecidableEq, Repr

/-- The task pointers of the modules; the two non-real-time ones have a `knonrtd` of their own. -/
inductive Handle
  | krtd
  | kmond
  | knonrtdBg
  | knonrtdPl
  deriving DecidableEq, Repr

inductive TaskPtr
  | null
  | errPtr
  | task (id : ℕ)
  deriving DecidableEq, Repr

structure KThread where
  running : Bool
  fifo : Bool
  pinned : Bool

/-- Where a module is; `oopsed` after one of its functions has died on a bad pointer. -/
inductive ModulePhase
  | unloaded
  | live
  | oopsed
  deriving DecidableEq, Repr

/-- The modules with their pointers, the threads created so far (numbers below `next`), and the
arguments of the calls of `kthread_stop`. -/
structure Handlers where
  phase : HandlerModule → ModulePhase
  ptr : Handle → TaskPtr
  thread : ℕ → KThread
  next : ℕ
  stops : List TaskPtr

inductive KernelCall
  | kthreadRun (h : Handle)
  | schedSetscheduler (h : Handle)
  | setCpusAllowedPtr (h : Handle)
  deriving DecidableEq, Repr

inductive ModuleEvent
  | load (m : HandlerModule) (granted : KernelCall → Bool)
  | unload (m : HandlerModule)

def Handle.owner : Handle → HandlerModule
  | .krtd | .kmond => .rtHandler
  | .knonrtdBg => .nonRtBg
  | .knonrtdPl => .nonRtPl

def Handle.isFifo : Handle → Bool
  | .kmond | .knonrtdPl => true
  | .krtd | .knonrtdBg => false

namespace Handlers
open LabelledRuns

def init : Handlers := ⟨fun _ => .unloaded, fun _ => .null, fun _ => ⟨false, false, false⟩, 0, []⟩

def setThread (s : Handlers) (id : ℕ) (t : KThread) : Handlers :=
  { s with thread := Function.update s.thread id t }

def created (s : Handlers) (h : Handle) : Handlers :=
  { s with
    ptr := Function.update s.ptr h (.task s.next)
    thread := Function.update s.thread s.next ⟨true, false, false⟩
    next := s.next + 1 }

def called (s : Handlers) (h : Handle) : Handlers := { s with stops := s.stops ++ [s.ptr h] }

/-- What is left of a function: the state it returns in with its value, `none` for an oops. -/
abbrev Action := Handlers → Handlers × Option ℤ

def ret (r : ℤ) : Action := fun s => (s, some r)

/-- `p = kthread_run(...); if (!p) goto ifNull;` -/
def kthreadRun (h : Handle) (granted : Bool) (ifNull next : Action) : Action := fun s =>
  let s := if granted then s.created h else { s with ptr := Function.update s.ptr h .errPtr }
  if s.ptr h = .null then ifNull s else next s

def onTask (h : Handle) (call : ℕ → Action) : Action := fun s =>
  match s.ptr h with
  | .task id => call id s
  | .null | .errPtr => (s, none)

/-- `if (sched_setscheduler(p, SCHED_FIFO, &param)) goto ifFails;` with priority 99. -/
def schedSetscheduler (h : Handle) (granted : Bool) (ifFails next : Action) : Action :=
  onTask h fun id s =>
    if granted then next (s.setThread id { s.thread id with fifo := true }) else ifFails s

/-- `if (set_cpus_allowed_ptr(p, &mask)) goto ifFails;` with cpu 0 in the mask. -/
def setCpusAllowedPtr (h : Handle) (granted : Bool) (ifFails next : Action) : Action :=
  onTask h fun id s =>
    if granted then next (s.setThread id { s.thread id with pinned := true }) else ifFails s

/-- `kthread_stop(p)` returns when the thread has; a thread that was stopped before is gone. -/
def kthreadStop (h : Handle) (next : Action) : Action := fun s =>
  onTask h (fun id s =>
    if (s.thread id).running then next (s.setThread id { s.thread id with running := false })
    else (s, none)) (s.called h)

def rtHandlerInit (granted : KernelCall → Bool) : Action :=
  let krtdErr := ret 0
  let kmondErr := kthreadStop .krtd krtdErr
  let err := kthreadStop .kmond kmondErr
  kthreadRun .krtd (granted (.kthreadRun .krtd)) krtdErr <|
  kthreadRun .kmond (granted (.kthreadRun .kmond)) kmondErr <|
  schedSetscheduler .kmond (granted (.schedSetscheduler .kmond)) err <|
  setCpusAllowedPtr .krtd (granted (.setCpusAllowedPtr .krtd)) err <|
  setCpusAllowedPtr .kmond (granted (.setCpusAllowedPtr .kmond)) err <|
  ret 0

def rtHandlerExit : Action := kthreadStop .krtd <| kthreadStop .kmond <| ret 0

/-- `non_rt_handler_init` of `non_rt_bg.c`. -/
def nonRtBgInit (granted : KernelCall → Bool) : Action :=
  kthreadRun .knonrtdBg (granted (.kthreadRun .knonrtdBg)) (ret 0) <|
  setCpusAllowedPtr .knonrtdBg (granted (.setCpusAllowedPtr .knonrtdBg)) (ret 0) <|
  ret 0

def nonRtBgExit : Action := kthreadStop .knonrtdBg <| ret 0

/-- `non_rt_handler_init` of `non_rt_pl.c`. -/
def nonRtPlInit (granted : KernelCall → Bool) : Action :=
  kthreadRun .knonrtdPl (granted (.kthreadRun .knonrtdPl)) (ret 0) <|
  schedSetscheduler .knonrtdPl (granted (.schedSetscheduler .knonrtdPl))
    (kthreadStop .knonrtdPl <| ret 0) <|
  setCpusAllowedPtr .knonrtdPl (granted (.setCpusAllowedPtr .knonrtdPl)) (ret 0) <|
  ret 0

def nonRtPlExit : Action := kthreadStop .knonrtdPl <| ret 0

def moduleInit : HandlerModule → (KernelCall → Bool) → Action
  | .rtHandler => rtHandlerInit
  | .nonRtBg => nonRtBgInit
  | .nonRtPl => nonRtPlInit

def moduleExit : HandlerModule → Action
  | .rtHandler => rtHandlerExit
  | .nonRtBg => nonRtBgExit
  | .nonRtPl => nonRtPlExit

/-- The static data of a module that is being loaded: its pointers are `NULL`. -/
def fresh (s : Handlers) (m : HandlerModule) : Handlers :=
  { s with ptr := fun h => if h.owner = m then .null else s.ptr h }

def setPhase (s : Handlers) (m : HandlerModule) (phase : ModulePhase) : Handlers :=
  { s with phase := Function.update s.phase m phase }

/-- `do_init_module`: a negative value unloads the module again. -/
def phaseAfterInit : Option ℤ → ModulePhase
  | none => .oopsed
  | some r => if r < 0 then .unloaded else .live

def phaseAfterExit : Option ℤ → ModulePhase
  | none => .oopsed
  | some _ => .unloaded

def loadModule (s : Handlers) (m : HandlerModule) (granted : KernelCall → Bool) :
    Handlers × Option ℤ := moduleInit m granted (s.fresh m)

def unloadModule (s : Handlers) (m : HandlerModule) : Handlers × Option ℤ := moduleExit m s

def step (s : Handlers) : ModuleEvent → Option Handlers
  | .load m granted =>
      if s.phase m = .unloaded then
        some ((s.loadModule m granted).1.setPhase m (phaseAfterInit (s.loadModule m granted).2))
      else none
  | .unload m =>
      if s.phase m = .live then
        some ((s.unloadModule m).1.setPhase m (phaseAfterExit (s.unloadModule m).2))
      else none

/-! ## What is asked of a run -/

/-- The thread behind the pointer runs, with its CPU and its policy set. -/
def Configured (s : Handlers) (h : Handle) : Prop :=
  ∃ id, s.ptr h = .task id ∧ (s.thread id).running = true ∧ (s.thread id).pinned = true ∧
    (h.isFifo = true → (s.thread id).fifo = true)

/-- An init function returns: 0 with all its threads running and configured, or an error with none
of them running. -/
def InitSafe (s : Handlers) (m : HandlerModule) (t : Handlers) : Option ℤ → Prop
  | none => False
  | some r =>
      (r = 0 → ∀ h : Handle, h.owner = m → t.Configured h) ∧
        (r ≠ 0 → r < 0 ∧ ∀ id, s.next ≤ id → id < t.next → (t.thread id).running = false)

/-- `kthread_stop` was called on threads only, on none that a loaded module points to, and once on
every other thread created. -/
structure StopsOnce (s : Handlers) : Prop where
  threads : ∀ p ∈ s.stops, ∃ id, id < s.next ∧ p = .task id
  loaded : ∀ h id, s.phase h.owner = .live → s.ptr h = .task id → s.stops.count (.task id) = 0
  others : ∀ id, id < s.next → (∀ h : Handle, s.phase h.owner = .live → s.ptr h ≠ .task id) →
    s.stops.count (.task id) = 1

def CallSafe (s : Handlers) : ModuleEvent → Prop
  | .load m granted => InitSafe s m (s.loadModule m granted).1 (s.loadModule m granted).2
  | .unload m => (s.unloadModule m).2 ≠ none

def StepSafe (s : Handlers) (e : ModuleEvent) : Prop :=
  s.CallSafe e ∧ ∀ t, step s e = some t → t.StopsOnce

/-- The calls an init function makes if none of them fails. -/
def initCalls : HandlerModule → List KernelCall
  | .rtHandler =>
      [.kthreadRun .krtd, .kthreadRun .kmond, .schedSetscheduler .kmond,
        .setCpusAllowedPtr .krtd, .setCpusAllowedPtr .kmond]
  | .nonRtBg => [.kthreadRun .knonrtdBg, .setCpusAllowedPtr .knonrtdBg]
  | .nonRtPl =>
      [.kthreadRun .knonrtdPl, .schedSetscheduler .knonrtdPl, .setCpusAllowedPtr .knonrtdPl]

def AllGranted : ModuleEvent → Prop
  | .load m granted => ∀ c ∈ initCalls m, granted c = true
  | .unload _ => True

/-! ## The calls -/

section Calls
variable {s : Handlers} {h : Handle} {id : ℕ} {ifNull ifFails next : Action}

theorem kthreadRun_granted : kthreadRun h true ifNull next s = next (s.created h) := by
  simp [kthreadRun, created]

theorem kthreadRun_refused :
    kthreadRun h false ifNull next s =
      next { s with ptr := Function.update s.ptr h .errPtr } := by
  simp [kthreadRun]

theorem onTask_task {call : ℕ → Action} (hp : s.ptr h = .task id) :
    onTask h call s = call id s := by
  rw [onTask, hp]

theorem kthreadStop_running (hp : s.ptr h = .task id) (hrun : (s.thread id).running = true) :
    kthreadStop h next s =
      next ((s.called h).setThread id { s.thread id with running := false }) := by
  rw [kthreadStop, onTask_task (s := s.called h) hp]
  exact if_pos hrun

end Calls

/-! ## Who owns the threads that run -/

/-- The running threads are those behind the pointers in `H`, one behind each; the others created
have been stopped once. -/
structure Owns (s : Handlers) (H : Set Handle) : Prop where
  running : ∀ h ∈ H, ∃ id, s.ptr h = .task id ∧ (s.thread id).running = true
  owned : ∀ id, (s.thread id).running = true → ∃ h ∈ H, s.ptr h = .task id
  injective : ∀ h ∈ H, ∀ h' ∈ H, s.ptr h = s.ptr h' → h = h'
  below : ∀ id, (s.thread id).running = true → id < s.next
  stops : ∀ p ∈ s.stops, ∃ id, id < s.next ∧ p = .task id
  count : ∀ id, id < s.next →
    s.stops.count (.task id) = if (s.thread id).running then 0 else 1

section Owns
variable {s : Handlers} {H : Set Handle} {h : Handle} {id : ℕ}

theorem Owns.setPhase (hs : Owns s H) (m : HandlerModule) (phase : ModulePhase) :
    Owns (s.setPhase m phase) H :=
  ⟨hs.running, hs.owned, hs.injective, hs.below, hs.stops, hs.count⟩

theorem Owns.fresh (hs : Owns s H) {m : HandlerModule} (hm : ∀ h ∈ H, h.owner ≠ m) :
    Owns (s.fresh m) H := by
  have hptr : ∀ h ∈ H, (s.fresh m).ptr h = s.ptr h := fun h hh => if_neg (hm h hh)
  refine ⟨fun h hh => ?_, fun id hid => ?_, fun h hh h' hh' => ?_, hs.below, hs.stops, hs.count⟩
  · rw [hptr h hh]
    exact hs.running h hh
  · obtain ⟨h, hh, hp⟩ := hs.owned id hid
    exact ⟨h, hh, (hptr h hh).trans hp⟩
  · rw [hptr h hh, hptr h' hh']
    exact hs.injective h hh h' hh'

theorem Owns.setThread (hs : Owns s H) (id : ℕ) (t : KThread)
    (ht : t.running = (s.thread id).running) : Owns (s.setThread id t) H := by
  have hrunning : ∀ i, ((s.setThread id t).thread i).running = (s.thread i).running := by
    intro i
    by_cases hi : i = id
    · subst hi
      simp [Handlers.setThread, ht]
    · simp [Handlers.setThread, Function.update_of_ne hi]
  refine ⟨fun h hh => ?_, fun i hi => ?_, hs.injective, fun i hi => ?_, hs.stops, fun i hi => ?_⟩
  · obtain ⟨i, hp, hi⟩ := hs.running h hh
    exact ⟨i, hp, (hrunning i).trans hi⟩
  · exact hs.owned i ((hrunning i).symm.trans hi)
  · exact hs.below i ((hrunning i).symm.trans hi)
  · rw [hrunning i]
    exact hs.count i hi

theorem Owns.created (hs : Owns s H) (hh : h ∉ H) : Owns (s.created h) (insert h H) := by
  have hne : ∀ h' ∈ H, h' ≠ h := fun h' hh' heq => hh (heq ▸ hh')
  have hptr : ∀ h' ∈ H, (s.created h).ptr h' = s.ptr h' :=
    fun h' hh' => Function.update_of_ne (hne h' hh') _ _
  have hself : (s.created h).ptr h = .task s.next := Function.update_self _ _ _
  have hold : ∀ i, i ≠ s.next → (s.created h).thread i = s.thread i :=
    fun i hi => Function.update_of_ne hi _ _
  have hnew : ((s.created h).thread s.next).running = true := by
    simp [Handlers.created]
  -- an older pointer is not the new thread's
  have hbelow : ∀ h' ∈ H, s.ptr h' ≠ .task s.next := by
    intro h' hh' heq
    obtain ⟨i, hp, hi⟩ := hs.running h' hh'
    obtain rfl : s.next = i := by simpa [heq] using hp
    exact lt_irrefl _ (hs.below _ hi)
  refine ⟨?_, ?_, ?_, ?_, ?_, ?_⟩
  · rintro h' (rfl | hh')
    · exact ⟨s.next, hself, hnew⟩
    · obtain ⟨i, hp, hi⟩ := hs.running h' hh'
      exact ⟨i, (hptr h' hh').trans hp, by rw [hold i (hs.below i hi).ne]; exact hi⟩
  · intro i hi
    by_cases hnext : i = s.next
    · exact ⟨h, Set.mem_insert h H, hnext ▸ hself⟩
    · rw [hold i hnext] at hi
      obtain ⟨h', hh', hp⟩ := hs.owned i hi
      exact ⟨h', Set.mem_insert_of_mem h hh', (hptr h' hh').trans hp⟩
  · rintro h₁ (rfl | hh₁) h₂ (rfl | hh₂) heq
    · rfl
    · rw [hself, hptr h₂ hh₂] at heq
      exact absurd heq.symm (hbelow h₂ hh₂)
    · rw [hself, hptr h₁ hh₁] at heq
      exact absurd heq (hbelow h₁ hh₁)
    · rw [hptr h₁ hh₁, hptr h₂ hh₂] at heq
      exact hs.injective h₁ hh₁ h₂ hh₂ heq
  · intro i hi
    show i < s.next + 1
    by_cases hnext : i = s.next
    · omega
    · rw [hold i hnext] at hi
      exact Nat.lt_succ_of_lt (hs.below i hi)
  · intro p hp
    obtain ⟨i, hi, rfl⟩ := hs.stops p hp
    exact ⟨i, Nat.lt_succ_of_lt hi, rfl⟩
  · intro i hi
    by_cases hnext : i = s.next
    · subst hnext
      rw [if_pos hnew, List.count_eq_zero]
      intro hmem
      obtain ⟨i, hlt, heq⟩ := hs.stops _ hmem
      obtain rfl : s.next = i := by simpa using heq
      exact lt_irrefl _ hlt
    · rw [hold i hnext]
      exact hs.count i (lt_of_le_of_ne (Nat.le_of_lt_succ hi) hnext)

theorem Owns.stop (hs : Owns s H) (hh : h ∈ H) (hp : s.ptr h = .task id) :
    Owns ((s.called h).setThread id { s.thread id with running := false }) (H \ {h}) := by
  set t := (s.called h).setThread id { s.thread id with running := false } with ht
  have hrun : (s.thread id).running = true := by
    obtain ⟨i, hi, hrun⟩ := hs.running h hh
    obtain rfl : id = i := by simpa [hp] using hi
    exact hrun
  have hself : (t.thread id).running = false := by simp [ht, Handlers.setThread]
  have hold : ∀ i, i ≠ id → (t.thread i).running = (s.thread i).running := by
    intro i hi
    simp [ht, Handlers.setThread, called, Function.update_of_ne hi]
  have hstops : t.stops = s.stops ++ [.task id] := by
    rw [← hp]
    rfl
  refine ⟨?_, ?_, ?_, ?_, ?_, ?_⟩
  · rintro h' ⟨hh', hne⟩
    obtain ⟨i, hp', hi⟩ := hs.running h' hh'
    have hid : i ≠ id := by
      rintro rfl
      exact hne (hs.injective h' hh' h hh (hp'.trans hp.symm))
    exact ⟨i, hp', (hold i hid).trans hi⟩
  · intro i hi
    have hid : i ≠ id := by
      rintro rfl
      rw [hself] at hi
      exact Bool.false_ne_true hi
    rw [hold i hid] at hi
    obtain ⟨h', hh', hp'⟩ := hs.owned i hi
    refine ⟨h', ⟨hh', ?_⟩, hp'⟩
    rintro rfl
    exact hid (by simpa [hp] using hp'.symm)
  · intro h₁ hh₁ h₂ hh₂
    exact hs.injective h₁ hh₁.1 h₂ hh₂.1
  · intro i hi
    have hid : i ≠ id := by
      rintro rfl
      rw [hself] at hi
      exact Bool.false_ne_true hi
    exact hs.below i ((hold i hid).symm.trans hi)
  · intro p hmem
    rw [hstops, List.mem_append, List.mem_singleton] at hmem
    rcases hmem with hmem | rfl
    · exact hs.stops p hmem
    · exact ⟨id, hs.below id hrun, rfl⟩
  · intro i hi
    rw [hstops, List.count_append]
    by_cases hid : i = id
    · subst hid
      rw [hself, hs.count i hi, hrun]
      simp
    · rw [hold i hid, hs.count i hi]
      simp [Ne.symm hid]

end Owns

/-! ## The init and exit functions -/

section Modules
variable {s : Handlers} {H : Set Handle}

theorem rtHandlerInit_granted (hs : Owns s H) (hkrtd : .krtd ∉ H) (hkmond : .kmond ∉ H)
    {granted : KernelCall → Bool} (hg : ∀ c ∈ initCalls .rtHandler, granted c = true) :
    ∃ t, rtHandlerInit granted s = (t, some 0) ∧ t.phase = s.phase ∧
      Owns t (insert .kmond (insert .krtd H)) ∧ t.Configured .krtd ∧ t.Configured .kmond := by
  simp only [initCalls, List.mem_cons, List.not_mem_nil, or_false, forall_eq_or_imp,
    forall_eq] at hg
  obtain ⟨hkrtdRun, hkmondRun, hfifo, hpinKrtd, hpinKmond⟩ := hg
  have hcreated := (hs.created hkrtd).created (h := .kmond) (by simp [hkmond])
  have hfirst : ((s.created .krtd).created .kmond).thread s.next = ⟨true, false, false⟩ := by
    simp [Handlers.created]
  have hsecond : ((s.created .krtd).created .kmond).thread (s.next + 1) =
      ⟨true, false, false⟩ := by
    simp [Handlers.created]
  have hkmondFifo := hcreated.setThread (s.next + 1) ⟨true, true, false⟩
    (by rw [hsecond])
  have hkrtdPinned := hkmondFifo.setThread s.next ⟨true, false, true⟩
    (by simp [Handlers.setThread, hfirst])
  have hkmondPinned := hkrtdPinned.setThread (s.next + 1) ⟨true, true, true⟩
    (by simp [Handlers.setThread])
  refine ⟨_, ?_, ?_, hkmondPinned, ⟨s.next, ?_⟩, ⟨s.next + 1, ?_⟩⟩
  · simp [rtHandlerInit, hkrtdRun, hkmondRun, hfifo, hpinKrtd, hpinKmond, kthreadRun_granted,
      schedSetscheduler, setCpusAllowedPtr, onTask, ret, Handlers.created, Handlers.setThread]
  · rfl
  · simp [Handlers.created, Handlers.setThread, Handle.isFifo]
  · simp [Handlers.created, Handlers.setThread]

theorem nonRtBgInit_granted (hs : Owns s H) (hknonrtd : .knonrtdBg ∉ H)
    {granted : KernelCall → Bool} (hg : ∀ c ∈ initCalls .nonRtBg, granted c = true) :
    ∃ t, nonRtBgInit granted s = (t, some 0) ∧ t.phase = s.phase ∧
      Owns t (insert .knonrtdBg H) ∧ t.Configured .knonrtdBg := by
  simp only [initCalls, List.mem_cons, List.not_mem_nil, or_false, forall_eq_or_imp,
    forall_eq] at hg
  obtain ⟨hrun, hpin⟩ := hg
  have hpinned := (hs.created hknonrtd).setThread s.next ⟨true, false, true⟩
    (by simp [Handlers.created])
  refine ⟨_, ?_, ?_, hpinned, ⟨s.next, ?_⟩⟩
  · simp [nonRtBgInit, hrun, hpin, kthreadRun_granted, setCpusAllowedPtr, onTask, ret,
      Handlers.created, Handlers.setThread]
  · rfl
  · simp [Handlers.created, Handlers.setThread, Handle.isFifo]

theorem nonRtPlInit_granted (hs : Owns s H) (hknonrtd : .knonrtdPl ∉ H)
    {granted : KernelCall → Bool} (hg : ∀ c ∈ initCalls .nonRtPl, granted c = true) :
    ∃ t, nonRtPlInit granted s = (t, some 0) ∧ t.phase = s.phase ∧
      Owns t (insert .knonrtdPl H) ∧ t.Configured .knonrtdPl := by
  simp only [initCalls, List.mem_cons, List.not_mem_nil, or_false, forall_eq_or_imp,
    forall_eq] at hg
  obtain ⟨hrun, hfifo, hpin⟩ := hg
  have hset := (hs.created hknonrtd).setThread s.next ⟨true, true, false⟩
    (by simp [Handlers.created])
  have hpinned := hset.setThread s.next ⟨true, true, true⟩
    (by simp [Handlers.setThread])
  refine ⟨_, ?_, ?_, hpinned, ⟨s.next, ?_⟩⟩
  · simp [nonRtPlInit, hrun, hfifo, hpin, kthreadRun_granted, schedSetscheduler,
      setCpusAllowedPtr, onTask, ret, Handlers.created, Handlers.setThread]
  · rfl
  · simp [Handlers.created, Handlers.setThread]

def handlesOf (m : HandlerModule) : Set Handle := {h | h.owner = m}

theorem moduleInit_granted (hs : Owns s H) {m : HandlerModule} (hm : ∀ h ∈ H, h.owner ≠ m)
    {granted : KernelCall → Bool} (hg : ∀ c ∈ initCalls m, granted c = true) :
    ∃ t, moduleInit m granted s = (t, some 0) ∧ t.phase = s.phase ∧ Owns t (H ∪ handlesOf m) ∧
      ∀ h : Handle, h.owner = m → t.Configured h := by
  have hnot : ∀ h : Handle, h.owner = m → h ∉ H := fun h ho hh => hm h hh ho
  cases m with
  | rtHandler =>
    obtain ⟨t, ht, hphase, howns, hkrtd, hkmond⟩ :=
      rtHandlerInit_granted hs (hnot .krtd rfl) (hnot .kmond rfl) hg
    have hset : insert .kmond (insert .krtd H) = H ∪ handlesOf .rtHandler := by
      ext h
      cases h <;> simp [handlesOf, Handle.owner]
    refine ⟨t, ht, hphase, hset ▸ howns, fun h ho => ?_⟩
    cases h with
    | krtd => exact hkrtd
    | kmond => exact hkmond
    | knonrtdBg | knonrtdPl => exact absurd ho (by decide)
  | nonRtBg =>
    obtain ⟨t, ht, hphase, howns, hknonrtd⟩ := nonRtBgInit_granted hs (hnot .knonrtdBg rfl) hg
    have hset : insert .knonrtdBg H = H ∪ handlesOf .nonRtBg := by
      ext h
      cases h <;> simp [handlesOf, Handle.owner]
    refine ⟨t, ht, hphase, hset ▸ howns, fun h ho => ?_⟩
    cases h with
    | knonrtdBg => exact hknonrtd
    | krtd | kmond | knonrtdPl => exact absurd ho (by decide)
  | nonRtPl =>
    obtain ⟨t, ht, hphase, howns, hknonrtd⟩ := nonRtPlInit_granted hs (hnot .knonrtdPl rfl) hg
    have hset : insert .knonrtdPl H = H ∪ handlesOf .nonRtPl := by
      ext h
      cases h <;> simp [handlesOf, Handle.owner]
    refine ⟨t, ht, hphase, hset ▸ howns, fun h ho => ?_⟩
    cases h with
    | knonrtdPl => exact hknonrtd
    | krtd | kmond | knonrtdBg => exact absurd ho (by decide)

theorem not_configured_of_stopped {h : Handle} (id : ℕ) (hp : s.ptr h = .task id)
    (hstop : (s.thread id).running = false) : ¬ s.Configured h := by
  rintro ⟨id', hp', hrun, -⟩
  rw [TaskPtr.task.inj (hp.symm.trans hp'), hrun] at hstop
  exact Bool.false_ne_true hstop.symm

theorem not_configured_of_unpinned {h : Handle} (id : ℕ) (hp : s.ptr h = .task id)
    (hpin : (s.thread id).pinned = false) : ¬ s.Configured h := by
  rintro ⟨id', hp', -, hpinned, -⟩
  rw [TaskPtr.task.inj (hp.symm.trans hp'), hpinned] at hpin
  exact Bool.false_ne_true hpin.symm

/-- The error path of `rt_handler_init` stops the two threads it has created and returns 0. -/
theorem rtHandlerInit_refused (s : Handlers) {granted : KernelCall → Bool}
    (hg : ¬ ∀ c ∈ initCalls .rtHandler, granted c = true) :
    (rtHandlerInit granted s).2 = none ∨
      (rtHandlerInit granted s).2 = some 0 ∧ ¬ (rtHandlerInit granted s).1.Configured .krtd := by
  cases hkrtd : granted (.kthreadRun .krtd) with
  | false =>
    left
    cases hkmond : granted (.kthreadRun .kmond) with
    | false => simp [rtHandlerInit, hkrtd, hkmond, kthreadRun_refused, schedSetscheduler, onTask]
    | true =>
      cases hfifo : granted (.schedSetscheduler .kmond) <;>
        simp [rtHandlerInit, hkrtd, hkmond, hfifo, kthreadRun_granted, kthreadRun_refused,
          schedSetscheduler, setCpusAllowedPtr, kthreadStop, called, onTask, Handlers.created,
          Handlers.setThread]
  | true =>
    cases hkmond : granted (.kthreadRun .kmond) with
    | false =>
      left
      simp [rtHandlerInit, hkrtd, hkmond, kthreadRun_granted, kthreadRun_refused,
        schedSetscheduler, onTask, Handlers.created]
    | true =>
      have hfails : ¬ (granted (.schedSetscheduler .kmond) = true ∧
          granted (.setCpusAllowedPtr .krtd) = true ∧
          granted (.setCpusAllowedPtr .kmond) = true) := by
        intro hlater
        apply hg
        simp [initCalls, hkrtd, hkmond, hlater]
      right
      cases hfifo : granted (.schedSetscheduler .kmond) <;>
        cases hpinKrtd : granted (.setCpusAllowedPtr .krtd) <;>
        cases hpinKmond : granted (.setCpusAllowedPtr .kmond) <;>
        simp [rtHandlerInit, hkrtd, hkmond, hfifo, hpinKrtd, hpinKmond, kthreadRun_granted,
          schedSetscheduler, setCpusAllowedPtr, kthreadStop, called, onTask, ret,
          Handlers.created, Handlers.setThread] at hfails ⊢
      all_goals exact not_configured_of_stopped s.next (by simp) (by simp)

theorem nonRtBgInit_refused (s : Handlers) {granted : KernelCall → Bool}
    (hg : ¬ ∀ c ∈ initCalls .nonRtBg, granted c = true) :
    (nonRtBgInit granted s).2 = none ∨
      (nonRtBgInit granted s).2 = some 0 ∧
        ¬ (nonRtBgInit granted s).1.Configured .knonrtdBg := by
  cases hrun : granted (.kthreadRun .knonrtdBg) with
  | false =>
    left
    simp [nonRtBgInit, hrun, kthreadRun_refused, setCpusAllowedPtr, onTask]
  | true =>
    have hpin : granted (.setCpusAllowedPtr .knonrtdBg) = false := by
      by_contra hpin
      apply hg
      simp [initCalls, hrun, Bool.eq_true_of_not_eq_false hpin]
    refine Or.inr ⟨?_, not_configured_of_unpinned s.next ?_ ?_⟩
    all_goals simp [nonRtBgInit, hrun, hpin, kthreadRun_granted, setCpusAllowedPtr, onTask, ret,
      Handlers.created]

/-- `non_rt_pl.c` stops its thread where `SCHED_FIFO` is refused, and leaves it where the CPU is. -/
theorem nonRtPlInit_refused (s : Handlers) {granted : KernelCall → Bool}
    (hg : ¬ ∀ c ∈ initCalls .nonRtPl, granted c = true) :
    (nonRtPlInit granted s).2 = none ∨
      (nonRtPlInit granted s).2 = some 0 ∧
        ¬ (nonRtPlInit granted s).1.Configured .knonrtdPl := by
  cases hrun : granted (.kthreadRun .knonrtdPl) with
  | false =>
    left
    simp [nonRtPlInit, hrun, kthreadRun_refused, schedSetscheduler, onTask]
  | true =>
    cases hfifo : granted (.schedSetscheduler .knonrtdPl) with
    | false =>
      refine Or.inr ⟨?_, not_configured_of_stopped s.next ?_ ?_⟩
      all_goals simp [nonRtPlInit, hrun, hfifo, kthreadRun_granted, schedSetscheduler,
        kthreadStop, called, onTask, ret, Handlers.created, Handlers.setThread]
    | true =>
      have hpin : granted (.setCpusAllowedPtr .knonrtdPl) = false := by
        by_contra hpin
        apply hg
        simp [initCalls, hrun, hfifo, Bool.eq_true_of_not_eq_false hpin]
      refine Or.inr ⟨?_, not_configured_of_unpinned s.next ?_ ?_⟩
      all_goals simp [nonRtPlInit, hrun, hfifo, hpin, kthreadRun_granted, schedSetscheduler,
        setCpusAllowedPtr, onTask, ret, Handlers.created, Handlers.setThread]

/-- Where a call fails, the function dies on an `ERR_PTR` or returns 0 with a thread missing. -/
theorem moduleInit_refused (s : Handlers) {m : HandlerModule} {granted : KernelCall → Bool}
    (hg : ¬ ∀ c ∈ initCalls m, granted c = true) :
    (moduleInit m granted s).2 = none ∨
      (moduleInit m granted s).2 = some 0 ∧
        ∃ h : Handle, h.owner = m ∧ ¬ (moduleInit m granted s).1.Configured h := by
  cases m with
  | rtHandler => exact (rtHandlerInit_refused s hg).imp_right fun h => ⟨h.1, .krtd, rfl, h.2⟩
  | nonRtBg => exact (nonRtBgInit_refused s hg).imp_right fun h => ⟨h.1, .knonrtdBg, rfl, h.2⟩
  | nonRtPl => exact (nonRtPlInit_refused s hg).imp_right fun h => ⟨h.1, .knonrtdPl, rfl, h.2⟩

theorem kthreadStop_owned (hs : Owns s H) {h : Handle} (hh : h ∈ H) (next : Action) :
    ∃ t, kthreadStop h next s = next t ∧ t.phase = s.phase ∧ Owns t (H \ {h}) := by
  obtain ⟨id, hp, hrun⟩ := hs.running h hh
  exact ⟨_, kthreadStop_running hp hrun, rfl, hs.stop hh hp⟩

theorem moduleExit_owned (hs : Owns s H) {m : HandlerModule} (hm : handlesOf m ⊆ H) :
    ∃ t, moduleExit m s = (t, some 0) ∧ t.phase = s.phase ∧ Owns t (H \ handlesOf m) := by
  cases m with
  | rtHandler =>
    obtain ⟨t, ht, hphase, howns⟩ :=
      kthreadStop_owned hs (hm (show Handle.krtd ∈ handlesOf .rtHandler from rfl))
        (kthreadStop .kmond <| ret 0)
    have hkmond : Handle.kmond ∈ H \ {.krtd} :=
      ⟨hm (show Handle.kmond ∈ handlesOf .rtHandler from rfl), by decide⟩
    obtain ⟨u, hu, hphase', howns'⟩ := kthreadStop_owned howns hkmond (ret 0)
    have hset : (H \ {.krtd}) \ {.kmond} = H \ handlesOf .rtHandler := by
      ext h
      cases h <;> simp [handlesOf, Handle.owner]
    exact ⟨u, ht.trans hu, hphase'.trans hphase, hset ▸ howns'⟩
  | nonRtBg =>
    obtain ⟨t, ht, hphase, howns⟩ :=
      kthreadStop_owned hs (hm (show Handle.knonrtdBg ∈ handlesOf .nonRtBg from rfl)) (ret 0)
    have hset : H \ {.knonrtdBg} = H \ handlesOf .nonRtBg := by
      ext h
      cases h <;> simp [handlesOf, Handle.owner]
    exact ⟨t, ht, hphase, hset ▸ howns⟩
  | nonRtPl =>
    obtain ⟨t, ht, hphase, howns⟩ :=
      kthreadStop_owned hs (hm (show Handle.knonrtdPl ∈ handlesOf .nonRtPl from rfl)) (ret 0)
    have hset : H \ {.knonrtdPl} = H \ handlesOf .nonRtPl := by
      ext h
      cases h <;> simp [handlesOf, Handle.owner]
    exact ⟨t, ht, hphase, hset ▸ howns⟩

end Modules

/-! ## Runs -/

def liveHandles (s : Handlers) : Set Handle := {h | s.phase h.owner = .live}

/-- The pointers of the loaded modules own the threads that run. -/
def Inv (s : Handlers) : Prop := Owns s s.liveHandles

theorem inv_init : init.Inv where
  running _ hh := absurd hh (by simp [liveHandles, init])
  owned _ hid := absurd hid (by simp [init])
  injective _ hh := absurd hh (by simp [liveHandles, init])
  below _ hid := absurd hid (by simp [init])
  stops _ hp := absurd hp List.not_mem_nil
  count _ hid := absurd hid (Nat.not_lt_zero _)

theorem Inv.stopsOnce {s : Handlers} (hs : s.Inv) : s.StopsOnce := by
  refine ⟨hs.stops, fun h id hlive hp => ?_, fun id hid hnone => ?_⟩
  · obtain ⟨id', hp', hrun⟩ := hs.running h hlive
    obtain rfl : id = id' := by simpa [hp] using hp'
    rw [hs.count id (hs.below id hrun), if_pos hrun]
  · have hrun : ¬ (s.thread id).running = true := by
      intro hrun
      obtain ⟨h, hlive, hp⟩ := hs.owned id hrun
      exact hnone h hlive hp
    rw [hs.count id hid, if_neg hrun]

theorem liveHandles_live {s t : Handlers} {m : HandlerModule} (hphase : t.phase = s.phase) :
    (t.setPhase m .live).liveHandles = s.liveHandles ∪ handlesOf m := by
  ext h
  by_cases ho : h.owner = m
  · simp [liveHandles, handlesOf, setPhase, ho]
  · simp [liveHandles, handlesOf, setPhase, ho, hphase]

theorem liveHandles_unloaded {s t : Handlers} {m : HandlerModule} (hphase : t.phase = s.phase) :
    (t.setPhase m .unloaded).liveHandles = s.liveHandles \ handlesOf m := by
  ext h
  by_cases ho : h.owner = m
  · simp [liveHandles, handlesOf, setPhase, ho]
  · simp [liveHandles, handlesOf, setPhase, ho, hphase]

theorem load_granted {s : Handlers} (hs : s.Inv) {m : HandlerModule}
    (hm : s.phase m = .unloaded) {granted : KernelCall → Bool}
    (hg : ∀ c ∈ initCalls m, granted c = true) :
    ∃ t, s.loadModule m granted = (t, some 0) ∧ (t.setPhase m .live).Inv ∧
      ∀ h : Handle, h.owner = m → t.Configured h := by
  have hother : ∀ h ∈ s.liveHandles, h.owner ≠ m := by
    rintro h hlive rfl
    have hphase : s.phase h.owner = .live := hlive
    rw [hm] at hphase
    cases hphase
  obtain ⟨t, ht, hphase, howns, hconf⟩ := moduleInit_granted (hs.fresh hother) hother hg
  refine ⟨t, ht, ?_, hconf⟩
  rw [Inv, liveHandles_live (s := s) hphase]
  exact howns.setPhase m .live

theorem unload_live {s : Handlers} (hs : s.Inv) {m : HandlerModule} (hm : s.phase m = .live) :
    ∃ t, s.unloadModule m = (t, some 0) ∧ (t.setPhase m .unloaded).Inv := by
  have hsub : handlesOf m ⊆ s.liveHandles := by
    rintro h rfl
    exact hm
  obtain ⟨t, ht, hphase, howns⟩ := moduleExit_owned hs hsub
  refine ⟨t, ht, ?_⟩
  rw [Inv, liveHandles_unloaded (s := s) hphase]
  exact howns.setPhase m .unloaded

theorem step_load_eq_some {s t : Handlers} {m : HandlerModule} {granted : KernelCall → Bool}
    (h : step s (.load m granted) = some t) :
    s.phase m = .unloaded ∧
      t = (s.loadModule m granted).1.setPhase m (phaseAfterInit (s.loadModule m granted).2) := by
  rw [step] at h
  by_cases hm : s.phase m = .unloaded
  · rw [if_pos hm, Option.some.injEq] at h
    exact ⟨hm, h.symm⟩
  · rw [if_neg hm] at h
    exact absurd h (Option.some_ne_none t).symm

theorem step_unload_eq_some {s t : Handlers} {m : HandlerModule}
    (h : step s (.unload m) = some t) :
    s.phase m = .live ∧
      t = (s.unloadModule m).1.setPhase m (phaseAfterExit (s.unloadModule m).2) := by
  rw [step] at h
  by_cases hm : s.phase m = .live
  · rw [if_pos hm, Option.some.injEq] at h
    exact ⟨hm, h.symm⟩
  · rw [if_neg hm] at h
    exact absurd h (Option.some_ne_none t).symm

theorem inv_step {s t : Handlers} {e : ModuleEvent} (hs : s.Inv) (he : AllGranted e)
    (h : step s e = some t) : t.Inv := by
  cases e with
  | load m granted =>
    obtain ⟨hm, rfl⟩ := step_load_eq_some h
    obtain ⟨t, ht, hinv, -⟩ := load_granted hs hm he
    rw [ht]
    exact hinv
  | unload m =>
    obtain ⟨hm, rfl⟩ := step_unload_eq_some h
    obtain ⟨t, ht, hinv⟩ := unload_live hs hm
    rw [ht]
    exact hinv

theorem stepSafe_iff {s t : Handlers} {e : ModuleEvent} (hs : s.Inv) (h : step s e = some t) :
    s.StepSafe e ↔ AllGranted e := by
  constructor
  · rintro ⟨hcall, -⟩
    cases e with
    | load m granted =>
      by_contra hg
      rw [CallSafe] at hcall
      rcases moduleInit_refused (s.fresh m) hg with hoops | ⟨hzero, k, hk, hnot⟩
      · rw [loadModule, hoops] at hcall
        exact hcall
      · rw [loadModule, hzero] at hcall
        exact hnot (hcall.1 rfl k hk)
    | unload m => trivial
  · intro he
    refine ⟨?_, fun u hu => (inv_step hs he hu).stopsOnce⟩
    cases e with
    | load m granted =>
      obtain ⟨hm, -⟩ := step_load_eq_some h
      obtain ⟨t, ht, -, hconf⟩ := load_granted hs hm he
      rw [CallSafe, ht]
      exact ⟨fun _ => hconf, fun hne => absurd rfl hne⟩
    | unload m =>
      obtain ⟨hm, -⟩ := step_unload_eq_some h
      obtain ⟨t, ht, -⟩ := unload_live hs hm
      rw [CallSafe, ht]
      exact Option.some_ne_none 0

/-- **Module life cycle.** In a run of loads and unloads every init function keeps its contract and
`kthread_stop` is called once on each thread of an unloaded module and on nothing else, if and only
if every kernel call of every init function succeeds. -/
theorem moduleRun_safe_iff (es : List ModuleEvent) :
    StepsMeet step StepSafe init es ↔ StepsMeet step (fun _ e => AllGranted e) init es :=
  stepsMeet_congr_of_meet (I := Inv) (fun _ _ _ hs he h => inv_step hs he h)
    (fun _ _ _ hs h => stepSafe_iff hs h) inv_init

/-- `sched_setscheduler` fails for `kmond`: the init function stops both threads and returns 0, and
the exit function stops `krtd` again. -/
theorem stopped_twice :
    ¬ StepsMeet step StepSafe init
      [.load .rtHandler fun c => c ≠ .schedSetscheduler .kmond, .unload .rtHandler] := by
  intro h
  obtain ⟨hsafe, -⟩ := h _ rfl
  have hgranted := (stepSafe_iff inv_init rfl).mp hsafe
  exact absurd (hgranted (.schedSetscheduler .kmond) (by decide)) (by decide)

example : (run step init
    [.load .rtHandler fun c => c ≠ .schedSetscheduler .kmond, .unload .rtHandler]).map
      (fun s => (s.stops, s.phase .rtHandler)) =
    some ([.task 1, .task 0, .task 0], .oopsed) := by
  decide

end Handlers

end CrosRt
