import CrosRt.Scripts.PortScripts

/-! # Logs of a node

A node prints a line `[2] Thread: <tid> port: <port>` for each of its ports. On logs that consist of
such lines the scripts find every port, and whether they undo each other is a matter of the printed
ports alone.
-/

namespace CrosRt
set_option autoImplicit false

namespace Scripts
open Python

/-- What a node prints for one of its ports. -/
structure PortLine where
  tid : ℕ
  port : ℕ
  tid_pos : 0 < tid
  port_pos : 0 < port
  tid_lt : tid < 2 ^ 31
  port_lt : port < 2 ^ 16

def PortLine.text (line : PortLine) : Text :=
  "[2]".toList ++ ' ' :: ("Thread:".toList ++ ' ' :: (decimalText line.tid ++ ' ' ::
    ("port:".toList ++ ' ' :: decimalText line.port)))

def logText (lines : List PortLine) : Text := lines.flatMap fun line => line.text ++ ['\n']

section Lines
variable {py : Interpreter}

theorem split_text (line : PortLine) :
    split line.text = ["[2]".toList, "Thread:".toList, decimalText line.tid, "port:".toList,
      decimalText line.port] := by
  rw [PortLine.text, split_append (by decide) (forall_mem_of_all (by decide)),
    split_append (by decide) (forall_mem_of_all (by decide)),
    split_append (decimalText_ne_nil line.tid_pos) (isSpace_decimalText line.tid),
    split_append (by decide) (forall_mem_of_all (by decide)),
    split_of_word (decimalText_ne_nil line.port_pos) (isSpace_decimalText line.port)]

theorem isLineBreak_text (line : PortLine) : ∀ c ∈ line.text, isLineBreak c = false := by
  have hword : ∀ n, ∀ c ∈ decimalText n, isLineBreak c = false :=
    fun n => isLineBreak_of_word (isSpace_decimalText n)
  rw [PortLine.text]
  simp only [List.forall_mem_append, List.forall_mem_cons]
  exact ⟨forall_mem_of_all (by decide), by decide, forall_mem_of_all (by decide), by decide,
    hword _, by decide, forall_mem_of_all (by decide), by decide, hword _⟩

theorem splitlines_logText (lines : List PortLine) :
    splitlines (logText lines) = lines.map PortLine.text := by
  induction lines with
  | nil => rfl
  | cons line lines ih =>
    rw [logText, List.flatMap_cons, List.append_assoc, List.singleton_append,
      splitlines_append (isLineBreak_text line), ← logText, ih, List.map_cons]

theorem decimalText_ne_keyword (n : ℕ) (rest : Text) : decimalText n ≠ 'p' :: rest := by
  intro h
  obtain ⟨d, hd, hc⟩ := exists_digit_of_mem (h ▸ List.mem_cons_self : 'p' ∈ decimalText n)
  exact (digitChar_spec d hd).2.2.2.2 hc.symm

theorem tokenBehind_thread (line : PortLine) :
    tokenBehind "Thread:".toList (split line.text) = some (some (decimalText line.tid)) := by
  rw [split_text]
  rfl

theorem tokenBehind_port (line : PortLine) :
    tokenBehind "port:".toList (split line.text) = some (some (decimalText line.port)) := by
  have htid : (decimalText line.tid == "port:".toList) = false :=
    beq_eq_false_iff_ne.mpr (decimalText_ne_keyword line.tid _)
  rw [split_text, tokenBehind, List.idxOf?_cons, List.idxOf?_cons, List.idxOf?_cons, htid]
  rfl

theorem port_infix_text (line : PortLine) : "port:".toList <:+: line.text :=
  ⟨"[2]".toList ++ ' ' :: ("Thread:".toList ++ ' ' :: (decimalText line.tid ++ [' '])),
    ' ' :: decimalText line.port, by simp [PortLine.text]⟩

theorem thread_infix_text (line : PortLine) : "Thread:".toList <:+: line.text :=
  ⟨"[2]".toList ++ [' '], ' ' :: (decimalText line.tid ++ ' ' ::
    ("port:".toList ++ ' ' :: decimalText line.port)), by simp [PortLine.text]⟩

theorem int32_port (line : PortLine) : int32 line.port = line.port :=
  int32_of_fits ⟨by have := line.port_pos; omega, by have := line.port_lt; omega⟩

theorem int_port (hpy : py.Standard) (line : PortLine) :
    int py (decimalText line.port) = some (line.port : ℤ) :=
  int_decimalText hpy line.port_pos (line.port_lt.trans (by omega))

theorem removeLine_text (hpy : py.Standard) (line : PortLine) :
    removeLine py line.text = .calls line.port := by
  unfold removeLine
  rw [if_pos (port_infix_text line), tokenBehind_port]
  simp only [int_port hpy, int32_port]

theorem identifyPort_text (hpy : py.Standard) (line : PortLine) :
    identifyPort py line.text = .calls line.port := by
  have hrange : -0x8000000000000000 ≤ (line.port : ℤ) ∧
      (line.port : ℤ) ≤ 0xFFFFFFFFFFFFFFFF := by
    have := line.port_lt
    omega
  have hfits : untypedArgument line.port = some (line.port : ℤ) := by
    rw [untypedArgument, if_pos hrange, int32_port]
  unfold identifyPort
  rw [if_pos (port_infix_text line), tokenBehind_port]
  simp only [int_port hpy, hfits]

theorem identifyLine_text (hpy : py.Standard) (line : PortLine) :
    identifyLine py line.text = .calls line.port := by
  have htid := int_decimalText hpy line.tid_pos (line.tid_lt.trans (by omega))
  unfold identifyLine
  rw [if_pos (thread_infix_text line), tokenBehind_thread]
  simp only [htid, identifyPort_text hpy]

theorem callsOf_map {processLine : Text → LineOutcome}
    (h : ∀ line : PortLine, processLine line.text = .calls line.port) (lines : List PortLine) :
    callsOf processLine (lines.map PortLine.text) = lines.map fun line => (line.port : ℤ) := by
  induction lines with
  | nil => rfl
  | cons line lines ih => simp only [List.map_cons, callsOf, h, ih]

theorem identifierCalls_logText (hpy : py.Standard) (lines : List PortLine) :
    identifierCalls py (logText lines) = (lines.take 15).map fun line => (line.port : ℤ) := by
  rw [identifierCalls, splitlines_logText, ← List.map_take, callsOf_map (identifyLine_text hpy)]

theorem removeCalls_logText (hpy : py.Standard) (lines : List PortLine) :
    removeCalls py (logText lines) = lines.map fun line => (line.port : ℤ) := by
  rw [removeCalls, splitlines_logText, callsOf_map (removeLine_text hpy)]

end Lines

end Scripts

namespace PortRegistry
open Python Scripts

variable {hash : ℤ → Fin 256}

theorem registeredBy_of_odd {calls : List ℤ} (h : ∀ port ∈ calls, port.tmod 2 = 1)
    {allocated : ℕ → Bool} (halloc : ∀ i, allocated i = true) :
    registeredBy calls allocated = calls := by
  have hall : calls.zipIdx.filter (accepted allocated) = calls.zipIdx := by
    rw [List.filter_eq_self]
    intro call hcall
    have hmem : call.1 ∈ calls := List.fst_mem_of_mem_zipIdx hcall
    rw [accepted, halloc, Bool.and_true, decide_eq_true_eq]
    exact h call.1 hmem
  rw [registeredBy, hall, List.zipIdx_map_fst]

/-- **Logs of port lines.** What the scripts leave of a port depends on how often it stands in the
first 15 lines and in all lines. -/
theorem getPortPriority_logs_iff (r : PortRegistry hash) {py : Interpreter} (hpy : py.Standard)
    {lines more : List PortLine} (hodd : ∀ line ∈ lines, line.port % 2 = 1)
    {priority : ℤ} (hp : 1 ≤ priority ∧ priority ≤ 99) {allocated : ℕ → Bool}
    (halloc : ∀ i, allocated i = true) (port : ℤ) :
    ((r.identify py (logText lines) priority allocated).remove py
        (logText (lines ++ more))).getPortPriority port = r.getPortPriority port ↔
      r.Restores priority port
        (((lines.take 15).map fun line => (line.port : ℤ)).count port)
        (((lines ++ more).map fun line => (line.port : ℤ)).count port) := by
  have hregistered : registeredBy (identifierCalls py (logText lines)) allocated =
      (lines.take 15).map fun line => (line.port : ℤ) := by
    rw [identifierCalls_logText hpy]
    refine registeredBy_of_odd (fun port hport => ?_) halloc
    obtain ⟨line, hline, rfl⟩ := List.mem_map.mp hport
    have := hodd line (List.mem_of_mem_take hline)
    rw [Int.tmod_eq_emod_of_nonneg (by omega)]
    omega
  rw [← hregistered, ← removeCalls_logText hpy]
  exact getPortPriority_of_drop (entries_remove_identify r py _ _ hp allocated port)

/-- A node with at most 15 lines, all ports odd, that prints nothing more until it is removed leaves
the registry as it was, whatever was registered before. -/
theorem roundTrip_of_short_log (r : PortRegistry hash) {py : Interpreter} (hpy : py.Standard)
    {lines : List PortLine} (hlen : lines.length ≤ 15) (hodd : ∀ line ∈ lines, line.port % 2 = 1)
    {priority : ℤ} (hp : 1 ≤ priority ∧ priority ≤ 99) {allocated : ℕ → Bool}
    (halloc : ∀ i, allocated i = true) (port : ℤ) :
    ((r.identify py (logText lines) priority allocated).remove py
      (logText lines)).getPortPriority port = r.getPortPriority port := by
  have hiff := @getPortPriority_logs_iff _ r py hpy lines [] hodd _ hp _ halloc port
  rw [List.append_nil, List.take_of_length_le hlen] at hiff
  exact hiff.mpr (restores_self r priority port _)

end PortRegistry

end CrosRt
