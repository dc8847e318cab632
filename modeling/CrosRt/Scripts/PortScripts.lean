import CrosRt.Driver.NonRtQueue
import CrosRt.Driver.PortRegistry
import CrosRt.Scripts.PythonText

/-! # The scripts that register a node's ports

`pri_identifier.py` and `pri_remove.py` read the log of a node and issue one system call for each
`port:` line: `connect_pp_syscall` for the first 15 lines of the log, `disconnect_pp_syscall` for
all of it. The first passes over a malformed port and stops at other malformed lines, the second
stops at both; and `connect_pp_syscall` drops ports that are not odd, which `disconnect_pp_syscall`
does not. The instance of the network interface is found, so the calls reach the driver.
-/

namespace CrosRt
set_option autoImplicit false

namespace Scripts
open Python

inductive LineOutcome where
  | raises
  | skips
  | calls (port : ℤ)
  deriving DecidableEq, Repr

/-- The token behind a keyword: `parts[parts.index(keyword) + 1]`. The outer `none` is the
`ValueError` of `index`, the inner one a line that ends there. -/
def tokenBehind (keyword : Text) (parts : List Text) : Option (Option Text) :=
  (parts.idxOf? keyword).map fun i => parts[i + 1]?

/-- How `ctypes` passes an argument without a declared type: as an `int`, if the value is one of a
`long` or an `unsigned long`; `none` for an `ArgumentError`. -/
def untypedArgument (n : ℤ) : Option ℤ :=
  if -0x8000000000000000 ≤ n ∧ n ≤ 0xFFFFFFFFFFFFFFFF then some (int32 n) else none

/-- The `port:` part of the loop of `pri_identifier.py`: `int` is called in its `try`. -/
def identifyPort (py : Interpreter) (line : Text) : LineOutcome :=
  if "port:".toList <:+: line then
    match tokenBehind "port:".toList (split line) with
    | none => .raises
    | some none => .skips
    | some (some token) =>
        match int py token with
        | none => .skips
        | some n =>
            match untypedArgument n with
            | none => .raises
            | some port => .calls port
  else .skips

/-- The loop of `pri_identifier.py`; `chrt` changes nothing here. -/
def identifyLine (py : Interpreter) (line : Text) : LineOutcome :=
  if "Thread:".toList <:+: line then
    match tokenBehind "Thread:".toList (split line) with
    | none => .raises
    | some none => identifyPort py line
    | some (some token) =>
        match int py token with
        | none => .raises
        | some _ => identifyPort py line
  else identifyPort py line

/-- The loop of `pri_remove.py`; the port is passed as a `c_int`. -/
def removeLine (py : Interpreter) (line : Text) : LineOutcome :=
  if "port:".toList <:+: line then
    match tokenBehind "port:".toList (split line) with
    | none => .raises
    | some none => .skips
    | some (some token) =>
        match int py token with
        | none => .raises
        | some n => .calls (int32 n)
  else .skips

/-- The calls of a script, up to the line at which it stops. -/
def callsOf (processLine : Text → LineOutcome) : List Text → List ℤ
  | [] => []
  | line :: lines =>
      match processLine line with
      | .raises => []
      | .skips => callsOf processLine lines
      | .calls port => port :: callsOf processLine lines

def identifierCalls (py : Interpreter) (log : Text) : List ℤ :=
  callsOf (identifyLine py) ((splitlines log).take 15)

def removeCalls (py : Interpreter) (log : Text) : List ℤ :=
  callsOf (removeLine py) (splitlines log)

end Scripts

namespace PortRegistry
open Python Scripts

variable {hash : ℤ → Fin 256}

def connectPpSyscall (r : PortRegistry hash) (allocated : Bool) (priority port : ℤ) :
    PortRegistry hash :=
  if port.tmod 2 = 1 then r.setPortPriority allocated priority port else r

def disconnectPpSyscall (r : PortRegistry hash) (port : ℤ) : PortRegistry hash :=
  r.removePortPriority port

/-- `pri_identifier.py` on a log; `allocated` are the outcomes of `kmalloc` in its calls. -/
def identify (r : PortRegistry hash) (py : Interpreter) (log : Text) (priority : ℤ)
    (allocated : ℕ → Bool) : PortRegistry hash :=
  (identifierCalls py log).zipIdx.foldl
    (fun r call => r.connectPpSyscall (allocated call.2) (int32 priority) call.1) r

def remove (r : PortRegistry hash) (py : Interpreter) (log : Text) : PortRegistry hash :=
  (removeCalls py log).foldl disconnectPpSyscall r

def accepted (allocated : ℕ → Bool) (call : ℤ × ℕ) : Bool :=
  decide (call.1.tmod 2 = 1) && allocated call.2

def registeredBy (calls : List ℤ) (allocated : ℕ → Bool) : List ℤ :=
  (calls.zipIdx.filter (accepted allocated)).map Prod.fst

/-- The registrations of a port, `priority` pushed `n` times and `m` popped after it. -/
def Restores (r : PortRegistry hash) (priority port : ℤ) (n m : ℕ) : Prop :=
  (m < n → r.getPortPriority port = priority) ∧
    (n < m → (((r.entries port)[m - n]?).map PortPriority.priority).getD 0 =
      r.getPortPriority port)

/-! ## What the calls do to the stacks -/

theorem restores_self (r : PortRegistry hash) (priority port : ℤ) (n : ℕ) :
    r.Restores priority port n n :=
  ⟨fun h => absurd h (lt_irrefl n), fun h => absurd h (lt_irrefl n)⟩

theorem entries_connectPpSyscall (r : PortRegistry hash) (allocated : ℕ → Bool)
    (priority q : ℤ) (call : ℤ × ℕ) :
    (r.connectPpSyscall (allocated call.2) priority call.1).entries q =
      if accepted allocated call = true ∧ call.1 = q then ⟨q, priority⟩ :: r.entries q
      else r.entries q := by
  unfold connectPpSyscall accepted
  by_cases hodd : call.1.tmod 2 = 1
  · rw [if_pos hodd]
    cases allocated call.2 with
    | false => simp [setPortPriority_false]
    | true =>
      rw [entries_setPortPriority]
      by_cases hq : call.1 = q
      · subst hq
        simp [hodd]
      · simp [hq]
  · simp [hodd]

/-- A pass of `connect_pp_syscall` pushes as many registrations on a port's stack as it makes. -/
theorem entries_foldl_connect (r : PortRegistry hash) (allocated : ℕ → Bool) (priority q : ℤ)
    (calls : List (ℤ × ℕ)) :
    (calls.foldl (fun r call => r.connectPpSyscall (allocated call.2) priority call.1)
        r).entries q =
      List.replicate (((calls.filter (accepted allocated)).map Prod.fst).count q)
        ⟨q, priority⟩ ++ r.entries q := by
  induction calls generalizing r with
  | nil => rfl
  | cons call calls ih =>
    rw [List.foldl_cons, ih, entries_connectPpSyscall]
    by_cases haccept : accepted allocated call = true
    · rw [List.filter_cons_of_pos haccept, List.map_cons]
      by_cases hq : call.1 = q
      · rw [if_pos ⟨haccept, hq⟩, hq, List.count_cons_self, List.replicate_succ',
          List.append_assoc, List.singleton_append]
      · rw [if_neg fun h => hq h.2, List.count_cons_of_ne hq]
    · rw [List.filter_cons_of_neg haccept, if_neg fun h => haccept h.1]

theorem entries_identify (r : PortRegistry hash) (py : Interpreter) (log : Text) (priority : ℤ)
    (allocated : ℕ → Bool) (q : ℤ) :
    (r.identify py log priority allocated).entries q =
      List.replicate ((registeredBy (identifierCalls py log) allocated).count q)
        ⟨q, int32 priority⟩ ++ r.entries q :=
  entries_foldl_connect r allocated (int32 priority) q _

theorem entries_foldl_disconnect (r : PortRegistry hash) (q : ℤ) (calls : List ℤ) :
    (calls.foldl disconnectPpSyscall r).entries q = (r.entries q).drop (calls.count q) := by
  induction calls generalizing r with
  | nil => rfl
  | cons port calls ih =>
    rw [List.foldl_cons, ih, disconnectPpSyscall, entries_removePortPriority]
    by_cases hq : port = q
    · subst hq
      rw [if_pos rfl, List.count_cons_self, List.drop_tail]
    · rw [if_neg (Ne.symm hq), List.count_cons_of_ne hq]

theorem entries_remove (r : PortRegistry hash) (py : Interpreter) (log : Text) (q : ℤ) :
    (r.remove py log).entries q = (r.entries q).drop ((removeCalls py log).count q) :=
  entries_foldl_disconnect r q _

/-- The priority at a place of a stack of registrations, 0 below it. -/
theorem getPortPriority_of_drop {r r' : PortRegistry hash} {priority q : ℤ} {n m : ℕ}
    (h : r'.entries q =
      (List.replicate n (⟨q, priority⟩ : PortPriority) ++ r.entries q).drop m) :
    r'.getPortPriority q = r.getPortPriority q ↔ r.Restores priority q n m := by
  have hvalue : r'.getPortPriority q =
      if m < n then priority
      else (((r.entries q)[m - n]?).map PortPriority.priority).getD 0 := by
    rw [getPortPriority_eq, h, List.head?_drop]
    by_cases hlt : m < n
    · rw [if_pos hlt, List.getElem?_append_left (by rwa [List.length_replicate]),
        List.getElem?_replicate_of_lt hlt]
      rfl
    · rw [if_neg hlt, List.getElem?_append_right (by rw [List.length_replicate]; omega),
        List.length_replicate]
  rw [hvalue]
  rcases lt_trichotomy m n with hlt | heq | hgt
  · rw [if_pos hlt]
    constructor
    · intro hp
      exact ⟨fun _ => hp.symm, fun hgt => absurd hgt (by omega)⟩
    · intro hr
      exact (hr.1 hlt).symm
  · subst heq
    rw [if_neg (lt_irrefl m), Nat.sub_self, ← List.head?_eq_getElem?, ← getPortPriority_eq]
    exact iff_of_true rfl (restores_self r priority q m)
  · rw [if_neg (by omega)]
    constructor
    · intro hp
      exact ⟨fun hlt => absurd hlt (by omega), fun _ => hp⟩
    · intro hr
      exact hr.2 hgt

/-- The two scripts together: a port's stack after the pushes of the first and the pops of the
second. -/
theorem entries_remove_identify (r : PortRegistry hash) (py : Interpreter) (log log' : Text)
    {priority : ℤ} (hp : 1 ≤ priority ∧ priority ≤ 99) (allocated : ℕ → Bool) (q : ℤ) :
    ((r.identify py log priority allocated).remove py log').entries q =
      (List.replicate ((registeredBy (identifierCalls py log) allocated).count q)
        (⟨q, priority⟩ : PortPriority) ++ r.entries q).drop ((removeCalls py log').count q) := by
  have hint : int32 priority = priority := int32_of_fits ⟨by omega, by omega⟩
  rw [entries_remove, entries_identify, hint]

/-- **Registration round trip.** After the two scripts every port has the priority it had before
exactly when, for every port, the registrations and the removals balance or the registration that
ends on top has that priority too. -/
theorem roundTrip_iff (r : PortRegistry hash) (py : Interpreter) (log log' : Text)
    {priority : ℤ} (hp : 1 ≤ priority ∧ priority ≤ 99) (allocated : ℕ → Bool) :
    (∀ port, ((r.identify py log priority allocated).remove py log').getPortPriority port =
        r.getPortPriority port) ↔
      ∀ port, r.Restores priority port
        ((registeredBy (identifierCalls py log) allocated).count port)
        ((removeCalls py log').count port) :=
  forall_congr' fun port =>
    getPortPriority_of_drop (entries_remove_identify r py log log' hp allocated port)

section Example

def nodeLog : Text := "[2] Thread: 100 port: 7411\n".toList

def earlierNode : PortRegistry Kernel.hashMin := empty.setPortPriority true 50 7411

theorem registeredBy_nodeLog :
    registeredBy (identifierCalls cpython nodeLog) (fun _ => true) = [7411] := by
  decide

theorem roundTrip_nodeLog :
    ((earlierNode.identify cpython nodeLog 60 fun _ => true).remove cpython
      nodeLog).getPortPriority 7411 = earlierNode.getPortPriority 7411 := by
  have hremove : removeCalls cpython nodeLog = [7411] := by decide
  refine (roundTrip_iff earlierNode cpython nodeLog nodeLog ⟨by decide, by decide⟩
    fun _ => true).mpr (fun port => ?_) 7411
  rw [registeredBy_nodeLog, hremove]
  exact restores_self earlierNode 60 port _

/-- The node prints its line again before it is removed: the registration of the earlier node goes
with its own. -/
theorem not_roundTrip_nodeLog_twice :
    nodeLog <+: nodeLog ++ nodeLog ∧ earlierNode.getPortPriority 7411 = 50 ∧
      ((earlierNode.identify cpython nodeLog 60 fun _ => true).remove cpython
        (nodeLog ++ nodeLog)).getPortPriority 7411 = 0 := by
  have hentries : earlierNode.entries 7411 = [⟨7411, 50⟩] := by
    rw [earlierNode, entries_setPortPriority, if_pos rfl, entries_empty]
  have hremove : removeCalls cpython (nodeLog ++ nodeLog) = [7411, 7411] := by decide
  refine ⟨List.prefix_append _ _, getPortPriority_of_cons hentries, getPortPriority_of_nil ?_⟩
  rw [entries_remove_identify earlierNode cpython nodeLog _ ⟨by decide, by decide⟩,
    registeredBy_nodeLog, hremove, hentries]
  rfl

end Example

end PortRegistry

end CrosRt
