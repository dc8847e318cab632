import Mathlib.Data.Char
import Mathlib.Data.List.Lex
import Mathlib.Data.List.Sort
import Mathlib.Data.List.Perm.Basic
import Mathlib.Data.Finset.Card
import CrosRt.Foundations.TextPattern
import CrosRt.Scripts.PythonText

/-! # The priorities written into a generated script

`make_script.py` rewrites every `.bash` file of a directory: the `ros2 run` lines are put into
another order, the lines with a period and a result file are collected, and each of these files gets
a line in the list of priorities at the end, the shortest period with priority 90 and every further
period with one less.

What is wanted of the list is `RateMonotonic`. The priorities leave the real-time range with the
91st period, and that is the one way in which a list that is written goes wrong
(`rewritten_rateMonotonic_iff`).
-/

namespace CrosRt.Scripts
set_option autoImplicit false

open Python

/-! ## The regular expressions -/

section Patterns
variable (py : Interpreter)

/-- `\d` -/
def isDecimal (c : Char) : Bool := (py.decimal c).isSome

/-- `(\d+)` -/
def numberGroup : Pattern Char := .group (.run (isDecimal py))

def nodeRe : Pattern Char :=
  .seq (.text "node".toList) (.seq (numberGroup py) (.seq (.text "_".toList)
    (.seq (numberGroup py) (.seq (.text "_".toList)
      (.seq (numberGroup py) (.text ".txt".toList))))))

def periodRegex : Pattern Char := .seq (.text "-p ".toList) (numberGroup py)

def filenameRegex : Pattern Char :=
  .seq (.text "> ".toList) (.group (.seq (.text "./result_".toList)
    (.seq (.run fun c => c ≠ ' ') (.text ".txt".toList))))

/-- `$` -/
def atEnd (rest : Text) : Bool := rest = [] ∨ rest = ['\n']

def machineRe (machine : Char) : Pattern Char :=
  .seq (.text ("machine_".toList ++ machine :: "_set".toList)) (.seq (.run (isDecimal py))
    (.seq (.text ".bash".toList) (.ahead atEnd)))

end Patterns

/-! ## One file -/

structure Ros2Command where
  index : ℕ
  line : Text
  num3 : ℤ
  num2 : ℤ

section Model
variable (py : Interpreter)

/-- The entry of `ros2_data` for a line; the outer `none` is a `ValueError` of `int`. -/
def ros2Command (line : Text × ℕ) : Option (Option Ros2Command) :=
  if "ros2 run".toList <:+: line.1 then
    match (nodeRe py).search line.1 with
    | none => some none
    | some m =>
        (int py (m.group 1)).bind fun _ =>
          (int py (m.group 2)).bind fun num2 =>
            (int py (m.group 3)).map fun num3 => some ⟨line.2, line.1, num3, num2⟩
  else some none

def Ros2Command.Before (x y : Ros2Command) : Prop :=
  -x.num3 < -y.num3 ∨ -x.num3 = -y.num3 ∧ x.num2 ≤ y.num2

instance : DecidableRel Ros2Command.Before := fun x y =>
  inferInstanceAs (Decidable (-x.num3 < -y.num3 ∨ -x.num3 = -y.num3 ∧ x.num2 ≤ y.num2))

/-- The assignments `lines[idx] = new_cmd`. -/
def replaced (lines : List Text) : List ℕ → List Text → List Text
  | idx :: indices, newCmd :: cmds => replaced (lines.set idx newCmd) indices cmds
  | _, _ => lines

/-- Part [1] after the matching. -/
def rearranged (ros2Data : List Ros2Command) (lines : List Text) : List Text :=
  replaced lines ((ros2Data.insertionSort fun x y => x.index ≤ y.index).map Ros2Command.index)
    ((ros2Data.insertionSort Ros2Command.Before).map Ros2Command.line)

/-- The entry of `periods_and_files` for a line; the outer `none` is a `ValueError` of `int`. -/
def periodAndFile (line : Text) : Option (Option (ℤ × Text)) :=
  match (periodRegex py).search line, filenameRegex.search line with
  | some periodMatch, some fileMatch =>
      (int py (periodMatch.group 1)).map fun period => some (period, fileMatch.group 1)
  | _, _ => some none

/-- How Python compares the pairs. -/
def PairLe (x y : ℤ × Text) : Prop := x.1 < y.1 ∨ x.1 = y.1 ∧ x.2 ≤ y.2

instance : DecidableRel PairLe := fun x y =>
  inferInstanceAs (Decidable (x.1 < y.1 ∨ x.1 = y.1 ∧ x.2 ≤ y.2))

def uniquePeriods (periodsAndFiles : List (ℤ × Text)) : List ℤ :=
  (periodsAndFiles.map Prod.fst).dedup.insertionSort fun p q => p ≤ q

def periodToPriority (periods : List ℤ) : List (ℤ × ℤ) :=
  periods.zipIdx.map fun x => (x.1, 90 - (x.2 : ℤ))

/-- Part [2] after the matching; `none` would be a `KeyError`. -/
def priorityAssignments (periodsAndFiles : List (ℤ × Text)) : Option (List (Text × ℤ)) :=
  let sorted := periodsAndFiles.insertionSort PairLe
  collect (fun x => ((periodToPriority (uniquePeriods sorted)).lookup x.1).map
    fun prio => some (x.2, prio)) sorted

def header : Text := String.toList <|
  "#!/bin/bash\n\n" ++
  "# Print usage information and exit\n" ++
  "print_usage() \x7b\n" ++
  "    echo \"Usage: $0 <vanilla|framework> <with_nonRT_pl|no>\"\n" ++
  "    exit 1\n" ++
  "\x7d\n\n" ++
  "if [ \"$#\" -ne 2 ]; then\n" ++
  "    print_usage\n" ++
  "fi\n\n" ++
  "type=$1\n" ++
  "model=$2\n\n" ++
  "# Create a directory to store the result data\n" ++
  "# CreateDIR=result/\n" ++
  "# if [ ! -d \"$CreateDIR\" ]; then\n" ++
  "#    mkdir \"$CreateDIR\"\n" ++
  "# fi\n"

def finalizeFrameworkFunction : Text := String.toList <|
  "finalize_framework() \x7b\n" ++
  "    if [ \"$type\" == \"framework\" ]; then\n" ++
  "        if [ \"$model\" == \"with_nonRT\" ]; then\n" ++
  "            python3 pri_remove.py \"$file_name_motor\"\n" ++
  "        fi\n" ++
  "        for filepath in \"$\x7bfiles[@]\x7d\"; do\n" ++
  "            file=$(echo \"$filepath\" | cut -d' ' -f1)\n" ++
  "            python3 pri_remove.py \"$file\"\n" ++
  "        done\n" ++
  "    fi\n" ++
  "\x7d\n\n"

def assignmentLine (fp : Text) (prio : ℤ) : Text :=
  "    \"".toList ++ (fp ++ ' ' :: (intText prio ++ "\"\n".toList))

def closingPart (filename : Text) : List Text :=
  [")\n\n",
    "for filepath in \"$\x7bfiles[@]\x7d\"; do\n",
    "    file=$(echo \"$filepath\" | cut -d' ' -f1)\n",
    "    priority=$(echo \"$filepath\" | cut -d' ' -f2)\n",
    "    if [ \"$type\" == \"vanilla\" ]; then\n",
    "        python3 pri_assign.py $file $priority\n",
    "    elif [ \"$type\" == \"framework\" ]; then\n",
    "        python3 pri_identifier.py $file $priority\n",
    "    fi\n",
    "done\n",
    "echo \"End Priority Assignment\"\n",
    "\n# Finalize by performing a final command and killing any remaining processes\n"].map
      String.toList ++
  (if ((machineRe py 'b').matchFront filename).isSome then
    ["/home/orin2/prio_ros2/evaluation_2_fig10/wait_signal 192.168.0.21 9797\n".toList]
  else
    ["sleep 190s\n",
      "sudo pkill -USR1 uunifast_node\n",
      "echo \"Set timer signal!\"\n",
      "sleep 200s\n"].map String.toList) ++
  ["echo \"End Running\"\n",
    "sudo pkill uunifast_node\n",
    "finalize_framework\n"].map String.toList ++
  (if ((machineRe py 'a').matchFront filename).isSome then
    ["/home/orin5/prio_ros2/evaluation_2_fig10/send_signal 127.0.0.1 9999\n".toList]
  else [])

/-- Part [3], around the lines of the script and those of the list. -/
def scriptContent (filename : Text) (lines entries : List Text) : List Text :=
  header :: (lines ++ finalizeFrameworkFunction :: "\n# Priority Assignments\n".toList ::
    "declare -a files=(\n".toList :: (entries ++ closingPart py filename))

/-- The body of the loop over the directory: what `writelines` is given, `none` for a
`ValueError`. -/
def rewritten (filename text : Text) : Option (List Text) :=
  (collect (ros2Command py) (readlines text).zipIdx).bind fun ros2Data =>
    let lines := rearranged ros2Data (readlines text)
    (collect (periodAndFile py) lines).bind fun periodsAndFiles =>
      (priorityAssignments periodsAndFiles).map fun assignments =>
        scriptContent py filename lines (assignments.map fun x => assignmentLine x.1 x.2)

/-! ## The directory -/

structure ScriptFile where
  name : Text
  text : Text

/-- A file with what `writelines` is given for it. -/
structure WrittenFile where
  name : Text
  content : List Text

def ScriptFile.IsBash (file : ScriptFile) : Prop := ".bash".toList <:+ file.name

instance : DecidablePred ScriptFile.IsBash := fun file =>
  inferInstanceAs (Decidable (".bash".toList <:+ file.name))

/-- The files written; a `ValueError` ends the loop. -/
def appendPriorityCommands : List ScriptFile → List WrittenFile
  | [] => []
  | file :: directory =>
      if file.IsBash then
        match rewritten py file.name file.text with
        | none => []
        | some content => ⟨file.name, content⟩ :: appendPriorityCommands directory
      else appendPriorityCommands directory

/-! ## What is wanted of the list -/

/-- The period and the result file of each line that has both. -/
def commands (text : Text) : List (ℤ × Text) :=
  (readlines text).filterMap fun line => (periodAndFile py line).join

/-- One line of the list for each command, with a priority for each period: the shorter the period
the higher, and one that `chrt -f` and the selector take. -/
structure RateMonotonic (commands : List (ℤ × Text)) (entries : List Text) (priority : ℤ → ℤ) :
    Prop where
  once : entries.Perm (commands.map fun x => assignmentLine x.2 (priority x.1))
  shorter : ∀ x ∈ commands, ∀ y ∈ commands, x.1 < y.1 → priority y.1 < priority x.1
  realTime : ∀ x ∈ commands, 1 ≤ priority x.1 ∧ priority x.1 ≤ 99

/-- The script is written with its own lines, in some order, and a list as it is wanted. -/
def WrittenRateMonotonic (file : ScriptFile) (written : WrittenFile) : Prop :=
  written.name = file.name ∧ ∃ lines entries priority, lines.Perm (readlines file.text) ∧
    written.content = scriptContent py file.name lines entries ∧
    RateMonotonic (commands py file.text) entries priority

/-- `int` reads every number that the patterns pick out of the line. -/
def NumbersReadable (line : Text) : Prop :=
  (∀ m, "ros2 run".toList <:+: line → (nodeRe py).search line = some m →
    ∀ i ∈ [1, 2, 3], (int py (m.group i)).isSome) ∧
  ∀ m fileMatch, (periodRegex py).search line = some m →
    filenameRegex.search line = some fileMatch → (int py (m.group 1)).isSome

/-- The numbers of the script can be read and it has at most 90 periods. -/
def FewPeriods (file : ScriptFile) : Prop :=
  (∀ line ∈ readlines file.text, NumbersReadable py line) ∧
    ((commands py file.text).map Prod.fst).toFinset.card ≤ 90

end Model

/-! ## The lines of the script and of the list -/

theorem isSome_search_periodRegex {py : Interpreter} {line : Text} :
    ((periodRegex py).search line).isSome ↔
      ∃ before digit after, line = before ++ ("-p ".toList ++ digit :: after) ∧
        isDecimal py digit = true := by
  rw [Pattern.isSome_search_iff]
  constructor
  · rintro ⟨before, _, rest, _, rfl, _, number, _, _, rfl, _, ⟨rfl, _⟩, _, ⟨hne, hall, _⟩, _⟩
    obtain ⟨digit, more, rfl⟩ := List.exists_cons_of_ne_nil hne
    exact ⟨before, digit, more ++ rest, by simp, hall digit List.mem_cons_self⟩
  · rintro ⟨before, digit, after, rfl, hdigit⟩
    refine ⟨before, "-p ".toList ++ [digit], after, [[digit]], by simp, ?_⟩
    exact ⟨_, _, [], _, rfl, rfl, ⟨rfl, rfl⟩, [],
      ⟨List.cons_ne_nil _ _, by simpa using hdigit, rfl⟩, rfl⟩

theorem isSome_search_filenameRegex {line : Text} :
    (filenameRegex.search line).isSome ↔
      ∃ before stem after,
        line = before ++ ("> ./result_".toList ++ (stem ++ (".txt".toList ++ after))) ∧
          stem ≠ [] ∧ ' ' ∉ stem := by
  rw [Pattern.isSome_search_iff]
  constructor
  · rintro ⟨before, _, rest, _, rfl, _, _, _, _, rfl, _, ⟨rfl, _⟩, _, hname, _⟩
    obtain ⟨_, _, _, _, rfl, _, ⟨rfl, _⟩, stem, _, _, _, rfl, _, ⟨hne, hall, _⟩, rfl, _⟩ := hname
    refine ⟨before, stem, rest, by simp, hne, ?_⟩
    intro hmem
    exact absurd (hall ' ' hmem) (by decide)
  · rintro ⟨before, stem, after, rfl, hne, hspace⟩
    have hall : ∀ c ∈ stem, decide (c ≠ ' ') = true := by
      intro c hc
      exact decide_eq_true fun heq => hspace (heq ▸ hc)
    refine ⟨before, "> ".toList ++ ("./result_".toList ++ (stem ++ ".txt".toList)), after,
      ["./result_".toList ++ (stem ++ ".txt".toList)], by simp, ?_⟩
    exact ⟨_, _, [], _, rfl, rfl, ⟨rfl, rfl⟩, [], ⟨_, _, [], [], rfl, rfl, ⟨rfl, rfl⟩,
      stem, _, [], [], rfl, rfl, ⟨hne, hall, rfl⟩, rfl, rfl⟩, rfl⟩

/-- The lines that count are those with `-p` and a number and with a redirect to a result file. -/
theorem periodAndFile_ne_none_iff {py : Interpreter} {line : Text} :
    periodAndFile py line ≠ some none ↔
      (∃ before digit after, line = before ++ ("-p ".toList ++ digit :: after) ∧
        isDecimal py digit = true) ∧
      ∃ before stem after,
        line = before ++ ("> ./result_".toList ++ (stem ++ (".txt".toList ++ after))) ∧
          stem ≠ [] ∧ ' ' ∉ stem := by
  rw [← isSome_search_periodRegex, ← isSome_search_filenameRegex]
  unfold periodAndFile
  split
  · rename_i m fileMatch hperiod hfile
    rw [hperiod, hfile]
    refine iff_of_true ?_ ⟨rfl, rfl⟩
    intro h
    obtain ⟨_, _, heq⟩ := Option.map_eq_some_iff.mp h
    exact absurd heq (Option.some_ne_none _)
  · rename_i hnone
    refine iff_of_false (fun h => h rfl) ?_
    rintro ⟨hperiod, hfile⟩
    obtain ⟨m, hm⟩ := Option.isSome_iff_exists.mp hperiod
    obtain ⟨fileMatch, hfileMatch⟩ := Option.isSome_iff_exists.mp hfile
    exact hnone m fileMatch hm hfileMatch

/-- A result file has no space in its name, so its end in a line of the list can be seen. -/
theorem fileGroup_spec {line : Text} {m : PatternMatch Char}
    (h : filenameRegex.search line = some m) : ' ' ∉ m.group 1 := by
  obtain ⟨_, _, hreads⟩ := Pattern.reads_of_search h
  obtain ⟨_, _, _, groups, _, hgroups, ⟨_, rfl⟩, inner, hinner, rfl⟩ := hreads
  obtain ⟨_, _, _, _, htaken, _, ⟨rfl, _⟩, hstem⟩ := hinner
  obtain ⟨stem, _, _, _, hname, _, ⟨_, hall, _⟩, ⟨rfl, _⟩⟩ := hstem
  have hgroup : m.group 1 = "./result_".toList ++ (stem ++ ".txt".toList) := by
    rw [PatternMatch.group, hgroups, List.nil_append, List.getD_cons_zero, htaken, hname]
  rw [hgroup]
  intro hmem
  simp only [List.mem_append] at hmem
  obtain hmem | hmem | hmem := hmem
  · exact absurd hmem (by decide)
  · exact absurd (hall _ hmem) (by decide)
  · exact absurd hmem (by decide)

theorem no_space_of_mem_commands {py : Interpreter} {text : Text} {x : ℤ × Text}
    (h : x ∈ commands py text) : ' ' ∉ x.2 := by
  obtain ⟨line, _, hline⟩ := List.mem_filterMap.mp h
  unfold periodAndFile at hline
  split at hline
  · rename_i periodMatch fileMatch hperiod hfile
    obtain ⟨period, _, hx⟩ := Option.map_eq_some_iff.mp (Option.join_eq_some_iff.mp hline)
    rw [← Option.some.inj hx]
    exact fileGroup_spec hfile
  · exact absurd hline (Option.some_ne_none x).symm

theorem assignmentLine_injective {fp fp' : Text} {prio prio' : ℤ} (hfp : ' ' ∉ fp)
    (hfp' : ' ' ∉ fp') (h : assignmentLine fp prio = assignmentLine fp' prio') :
    fp = fp' ∧ prio = prio' := by
  have hcut : ∀ name rest : Text, ' ' ∉ name →
      (name ++ ' ' :: rest).takeWhile (fun c => c ≠ ' ') = name := by
    intro name rest hname
    have hall : ∀ c ∈ name, decide (c ≠ ' ') = true := by
      intro c hc
      exact decide_eq_true fun heq => hname (heq ▸ hc)
    rw [List.takeWhile_append_of_pos hall, List.takeWhile_cons_of_neg (by decide), List.append_nil]
  have hline := List.append_cancel_left h
  have hname : fp = fp' := by
    rw [← hcut fp _ hfp, hline, hcut fp' _ hfp']
  subst hname
  have hprio := List.append_cancel_right (List.cons.inj (List.append_cancel_left hline)).2
  exact ⟨rfl, intText_injective hprio⟩

/-! ## The lines put into another order -/

theorem replaced_perm {lines : List Text} {slots : List (ℕ × Text)} {cmds : List Text}
    (hlength : slots.length = cmds.length) (hslots : ∀ s ∈ slots, lines[s.1]? = some s.2)
    (hnodup : (slots.map Prod.fst).Nodup) :
    (slots.map Prod.snd ++ replaced lines (slots.map Prod.fst) cmds).Perm (cmds ++ lines) := by
  induction slots generalizing lines cmds with
  | nil =>
    obtain rfl := List.length_eq_zero_iff.mp hlength.symm
    exact List.Perm.refl lines
  | cons s slots ih =>
    obtain ⟨cmd, cmds, rfl⟩ := List.exists_cons_of_length_eq_add_one hlength.symm
    obtain ⟨hs, hrest⟩ := List.forall_mem_cons.mp hslots
    rw [List.map_cons, List.nodup_cons] at hnodup
    have hother : ∀ t ∈ slots, (lines.set s.1 cmd)[t.1]? = some t.2 := by
      intro t ht
      have hne : s.1 ≠ t.1 := fun heq => hnodup.1 (heq ▸ List.mem_map_of_mem ht)
      rw [List.getElem?_set_ne hne]
      exact hrest t ht
    have hset : (s.2 :: lines.set s.1 cmd).Perm (cmd :: lines) := by
      have h := lines.getD_set_perm_cons s.1 cmd
      rwa [hs, Option.getD_some] at h
    have htail := ih (Nat.succ.inj hlength) hother hnodup.2
    exact (htail.cons s.2).trans
      (List.perm_middle.symm.trans ((hset.append_left cmds).trans List.perm_middle))

theorem ros2Command_spec {py : Interpreter} {line : Text × ℕ} {cmd : Ros2Command}
    (h : (ros2Command py line).join = some cmd) : cmd.index = line.2 ∧ cmd.line = line.1 := by
  unfold ros2Command at h
  split at h
  · split at h
    · exact absurd h (Option.some_ne_none cmd).symm
    · simp only [Option.join_eq_some_iff, Option.bind_eq_some_iff, Option.map_eq_some_iff] at h
      obtain ⟨_, _, num2, _, num3, _, heq⟩ := h
      rw [← Option.some.inj heq]
      exact ⟨rfl, rfl⟩
  · exact absurd h (Option.some_ne_none cmd).symm

theorem pairwise_ros2Data (py : Interpreter) (lines : List Text) :
    (lines.zipIdx.filterMap fun x => (ros2Command py x).join).Pairwise
      fun x y => x.index < y.index := by
  rw [List.pairwise_filterMap]
  have hindex : lines.zipIdx.Pairwise fun x y => x.2 < y.2 := by
    rw [← List.pairwise_map (f := Prod.snd), List.zipIdx_map_snd]
    exact List.pairwise_lt_range'
  refine hindex.imp ?_
  intro x y hlt cmd hcmd cmd' hcmd'
  rw [(ros2Command_spec hcmd).1, (ros2Command_spec hcmd').1]
  exact hlt

/-- Part [1] only moves lines. -/
theorem rearranged_perm (py : Interpreter) (lines : List Text) :
    (rearranged (lines.zipIdx.filterMap fun x => (ros2Command py x).join) lines).Perm lines := by
  set data := lines.zipIdx.filterMap fun x => (ros2Command py x).join with hdata
  set placed := data.insertionSort fun x y => x.index ≤ y.index with hplaced
  set sorted := data.insertionSort Ros2Command.Before with hsorted
  have hpermPlaced : placed.Perm data := List.perm_insertionSort _ data
  have hpermSorted : sorted.Perm data := List.perm_insertionSort _ data
  let slots := placed.map fun cmd => (cmd.index, cmd.line)
  have hfst : slots.map Prod.fst = placed.map Ros2Command.index := by
    rw [List.map_map]
    rfl
  have hsnd : slots.map Prod.snd = placed.map Ros2Command.line := by
    rw [List.map_map]
    rfl
  have hslots : ∀ s ∈ slots, lines[s.1]? = some s.2 := by
    intro s hs
    obtain ⟨cmd, hcmd, rfl⟩ := List.mem_map.mp hs
    obtain ⟨line, hline, hjoin⟩ := List.mem_filterMap.mp (hpermPlaced.mem_iff.mp hcmd)
    rw [(ros2Command_spec hjoin).1, (ros2Command_spec hjoin).2]
    exact List.mem_zipIdx_iff_getElem?.mp hline
  have hnodup : (slots.map Prod.fst).Nodup := by
    rw [hfst, (hpermPlaced.map Ros2Command.index).nodup_iff, List.Nodup, List.pairwise_map]
    exact (pairwise_ros2Data py lines).imp fun hlt => hlt.ne
  have hlength : slots.length = (sorted.map Ros2Command.line).length := by
    rw [List.length_map, List.length_map, hpermPlaced.length_eq, hpermSorted.length_eq]
  have h := replaced_perm hlength hslots hnodup
  rw [hsnd, hfst] at h
  have hlines : (sorted.map Ros2Command.line).Perm (placed.map Ros2Command.line) :=
    (hpermSorted.trans hpermPlaced.symm).map _
  exact (List.perm_append_left_iff _).mp (h.trans (hlines.append_right lines))

example : (collect (ros2Command cpython) (["ros2 run p > node0_0_1.txt\n", "sleep 1\n",
      "ros2 run p > node0_0_2.txt\n", "ros2 run p > node0_1_2.txt\n"].map String.toList).zipIdx).map
    (fun data => (data.insertionSort Ros2Command.Before).map Ros2Command.index) = some [2, 3, 0] := by
  decide +kernel

/-! ## The priorities -/

theorem mem_uniquePeriods {pairs : List (ℤ × Text)} {p : ℤ} :
    p ∈ uniquePeriods pairs ↔ p ∈ pairs.map Prod.fst := by
  rw [uniquePeriods, List.mem_insertionSort, List.mem_dedup]

theorem pairwise_uniquePeriods (pairs : List (ℤ × Text)) :
    (uniquePeriods pairs).Pairwise (· < ·) := by
  have hle : (uniquePeriods pairs).Pairwise (· ≤ ·) := List.pairwise_insertionSort _ _
  have hnodup : (uniquePeriods pairs).Nodup :=
    (List.perm_insertionSort _ _).nodup_iff.mpr (List.nodup_dedup _)
  exact (hle.and hnodup).imp fun h => lt_of_le_of_ne h.1 h.2

theorem length_uniquePeriods (pairs : List (ℤ × Text)) :
    (uniquePeriods pairs).length = (pairs.map Prod.fst).toFinset.card := by
  rw [uniquePeriods, List.length_insertionSort, List.card_toFinset]

theorem idxOf_lt_idxOf {periods : List ℤ} (h : periods.Pairwise (· < ·)) {p q : ℤ}
    (hp : p ∈ periods) (hq : q ∈ periods) (hlt : p < q) : periods.idxOf p < periods.idxOf q := by
  have hpi := List.idxOf_lt_length_of_mem hp
  have hqi := List.idxOf_lt_length_of_mem hq
  by_contra hge
  obtain hgt | heq := Nat.lt_or_eq_of_le (Nat.le_of_not_lt hge)
  · have hqp := List.pairwise_iff_getElem.mp h _ _ hqi hpi hgt
    rw [List.getElem_idxOf, List.getElem_idxOf] at hqp
    exact lt_asymm hlt hqp
  · exact hlt.ne ((List.idxOf_inj hp).mp heq.symm)

theorem lookup_zipIdx {periods : List ℤ} {p : ℤ} (h : p ∈ periods) (start : ℕ) :
    ((periods.zipIdx start).map fun x => (x.1, 90 - (x.2 : ℤ))).lookup p =
      some (90 - ((start + periods.idxOf p : ℕ) : ℤ)) := by
  induction periods generalizing start with
  | nil => exact absurd h List.not_mem_nil
  | cons q periods ih =>
    rw [List.zipIdx_cons, List.map_cons]
    by_cases heq : p = q
    · subst heq
      rw [List.lookup_cons_self, List.idxOf_cons_self, Nat.add_zero]
    · have hmem := (List.mem_cons.mp h).resolve_left heq
      rw [List.lookup_cons, beq_false_of_ne heq, List.idxOf_cons_ne periods (Ne.symm heq)]
      rw [ih hmem (start + 1), Nat.succ_eq_add_one, Nat.add_assoc, Nat.add_comm 1]

def rankPriority (pairs : List (ℤ × Text)) (p : ℤ) : ℤ := 90 - ((uniquePeriods pairs).idxOf p : ℤ)

theorem priorityAssignments_eq (pairs : List (ℤ × Text)) :
    ∃ sorted : List (ℤ × Text), sorted.Perm pairs ∧
      priorityAssignments pairs = some (sorted.map fun x => (x.2, rankPriority sorted x.1)) := by
  set sorted := pairs.insertionSort PairLe with hsorted
  refine ⟨sorted, List.perm_insertionSort _ pairs, ?_⟩
  have hlookup : ∀ x ∈ sorted, (periodToPriority (uniquePeriods sorted)).lookup x.1 =
      some (rankPriority sorted x.1) := by
    intro x hx
    have hmem := mem_uniquePeriods.mpr (List.mem_map_of_mem (f := Prod.fst) hx)
    have h := lookup_zipIdx hmem 0
    rw [Nat.zero_add] at h
    exact h
  rw [priorityAssignments, ← hsorted]
  rw [collect_eq_some]
  · congr 1
    rw [← List.filterMap_eq_map]
    refine List.filterMap_congr ?_
    intro x hx
    rw [hlookup x hx]
    rfl
  · intro x hx
    rw [hlookup x hx]
    rfl

/-! ## The scripts written -/

section Written
variable {py : Interpreter}

theorem isSome_ros2Command_iff {line : Text × ℕ} :
    (ros2Command py line).isSome ↔
      ∀ m, "ros2 run".toList <:+: line.1 → (nodeRe py).search line.1 = some m →
        ∀ i ∈ [1, 2, 3], (int py (m.group i)).isSome := by
  unfold ros2Command
  by_cases hros2 : "ros2 run".toList <:+: line.1
  · rw [if_pos hros2]
    cases hsearch : (nodeRe py).search line.1 with
    | none =>
      refine iff_of_true rfl ?_
      intro m _ heq
      exact absurd heq (Option.some_ne_none m).symm
    | some m =>
      simp only [Option.isSome_bind, Option.any_eq_true, Option.isSome_map]
      constructor
      · rintro ⟨num1, h1, num2, h2, h3⟩ m' _ heq
        rw [← Option.some.inj heq]
        refine List.forall_mem_cons.mpr ⟨Option.isSome_of_eq_some h1, ?_⟩
        refine List.forall_mem_cons.mpr ⟨Option.isSome_of_eq_some h2, ?_⟩
        exact List.forall_mem_singleton.mpr h3
      · intro h
        have hread := h m hros2 rfl
        obtain ⟨num1, h1⟩ := Option.isSome_iff_exists.mp (hread 1 (by decide))
        obtain ⟨num2, h2⟩ := Option.isSome_iff_exists.mp (hread 2 (by decide))
        exact ⟨num1, h1, num2, h2, hread 3 (by decide)⟩
  · rw [if_neg hros2]
    exact iff_of_true rfl fun m hin => absurd hin hros2

theorem isSome_periodAndFile_iff {line : Text} :
    (periodAndFile py line).isSome ↔
      ∀ m fileMatch, (periodRegex py).search line = some m →
        filenameRegex.search line = some fileMatch → (int py (m.group 1)).isSome := by
  unfold periodAndFile
  split
  · rename_i m fileMatch hperiod hfile
    rw [Option.isSome_map, hperiod, hfile]
    constructor
    · intro h m' _ heq _
      rw [← Option.some.inj heq]
      exact h
    · intro h
      exact h m fileMatch rfl rfl
  · rename_i hnone
    refine iff_of_true rfl ?_
    intro m fileMatch hperiod hfile
    exact absurd hfile (hnone m fileMatch hperiod)

theorem scriptContent_inj {filename : Text} {lines lines' entries entries' : List Text}
    (hlength : lines.length = lines'.length)
    (h : scriptContent py filename lines entries = scriptContent py filename lines' entries') :
    entries = entries' := by
  have hbody := (List.append_inj (List.cons.inj h).2 hlength).2
  have hlist := (List.cons.inj (List.cons.inj (List.cons.inj hbody).2).2).2
  exact List.append_cancel_right hlist

def rankedEntries (pairs : List (ℤ × Text)) : List Text :=
  pairs.map fun x => assignmentLine x.2 (rankPriority pairs x.1)

theorem rewritten_eq_some (filename : Text) {text : Text}
    (h : ∀ line ∈ readlines text, NumbersReadable py line) :
    ∃ lines pairs, lines.Perm (readlines text) ∧ pairs.Perm (commands py text) ∧
      rewritten py filename text =
        some (scriptContent py filename lines (rankedEntries pairs)) := by
  have hros2 : ∀ x ∈ (readlines text).zipIdx, (ros2Command py x).isSome := by
    intro x hx
    exact isSome_ros2Command_iff.mpr (h x.1 (List.fst_mem_of_mem_zipIdx hx)).1
  set lines := rearranged ((readlines text).zipIdx.filterMap fun x => (ros2Command py x).join)
    (readlines text) with hlines
  have hperm : lines.Perm (readlines text) := rearranged_perm py (readlines text)
  have hperiods : ∀ line ∈ lines, (periodAndFile py line).isSome := by
    intro line hline
    exact isSome_periodAndFile_iff.mpr (h line (hperm.mem_iff.mp hline)).2
  obtain ⟨pairs, hpairs, hassigned⟩ :=
    priorityAssignments_eq (lines.filterMap fun line => (periodAndFile py line).join)
  refine ⟨lines, pairs, hperm, hpairs.trans (hperm.filterMap _), ?_⟩
  rw [rewritten, collect_eq_some hros2, Option.bind_some, ← hlines]
  show (collect (periodAndFile py) lines).bind _ = _
  rw [collect_eq_some hperiods, Option.bind_some, hassigned, Option.map_some, List.map_map]
  rfl

theorem readable_of_rewritten {filename text : Text} (h : (rewritten py filename text).isSome) :
    ∀ line ∈ readlines text, NumbersReadable py line := by
  obtain ⟨content, hcontent⟩ := Option.isSome_iff_exists.mp h
  obtain ⟨data, hdata, hrest⟩ := Option.bind_eq_some_iff.mp hcontent
  obtain ⟨pairs, hpairs, _⟩ := Option.bind_eq_some_iff.mp hrest
  have hros2 := isSome_of_collect (Option.isSome_of_eq_some hdata)
  have hperiods := isSome_of_collect (Option.isSome_of_eq_some hpairs)
  rw [collect_eq_some hros2] at hdata
  intro line hline
  constructor
  · obtain ⟨i, hi⟩ := List.mem_iff_getElem?.mp hline
    exact isSome_ros2Command_iff.mp (hros2 (line, i) (List.mem_zipIdx_iff_getElem?.mpr hi))
  · rw [← Option.some.inj hdata] at hperiods
    have hmem := (rearranged_perm py (readlines text)).mem_iff.mpr hline
    exact isSome_periodAndFile_iff.mp (hperiods line hmem)

end Written

/-! ## When the list is as it is wanted -/

section RateMonotonic
variable {cmds pairs : List (ℤ × Text)}

theorem rateMonotonic_rankPriority (hperm : pairs.Perm cmds)
    (hfew : (cmds.map Prod.fst).toFinset.card ≤ 90) :
    RateMonotonic cmds (rankedEntries pairs) (rankPriority pairs) := by
  have hmem : ∀ x ∈ cmds, x.1 ∈ uniquePeriods pairs := by
    intro x hx
    exact mem_uniquePeriods.mpr (List.mem_map_of_mem (hperm.mem_iff.mpr hx))
  have hlength : (uniquePeriods pairs).length ≤ 90 := by
    rwa [length_uniquePeriods, List.toFinset_eq_of_perm _ _ (hperm.map Prod.fst)]
  constructor
  case once => exact hperm.map _
  case shorter =>
    intro x hx y hy hlt
    have hidx := idxOf_lt_idxOf (pairwise_uniquePeriods pairs) (hmem x hx) (hmem y hy) hlt
    show 90 - _ < 90 - _
    omega
  case realTime =>
    intro x hx
    have hidx := List.idxOf_lt_length_of_mem (hmem x hx)
    show 1 ≤ 90 - _ ∧ 90 - _ ≤ 99
    omega

/-- The 91st period has priority 0. -/
theorem card_le_of_rateMonotonic {priority : ℤ → ℤ} (hperm : pairs.Perm cmds)
    (hspace : ∀ x ∈ cmds, ' ' ∉ x.2) (h : RateMonotonic cmds (rankedEntries pairs) priority) :
    (cmds.map Prod.fst).toFinset.card ≤ 90 := by
  by_contra hmany
  have hlength : 90 < (uniquePeriods pairs).length := by
    rw [length_uniquePeriods, List.toFinset_eq_of_perm _ _ (hperm.map Prod.fst)]
    omega
  have hnodup : (uniquePeriods pairs).Nodup := (pairwise_uniquePeriods pairs).imp LT.lt.ne
  obtain ⟨x, hx, hfst⟩ := List.mem_map.mp (mem_uniquePeriods.mp (List.getElem_mem hlength))
  have hzero : rankPriority pairs x.1 = 0 := by
    rw [rankPriority, hfst, hnodup.idxOf_getElem 90 hlength]
    rfl
  have hentry := List.mem_map_of_mem (f := fun x => assignmentLine x.2 (rankPriority pairs x.1)) hx
  obtain ⟨y, hy, heq⟩ := List.mem_map.mp (h.once.mem_iff.mp hentry)
  have hpriority := (assignmentLine_injective (hspace y hy) (hspace x (hperm.mem_iff.mp hx)) heq).2
  have hlow := (h.realTime y hy).1
  rw [hpriority, hzero] at hlow
  exact absurd hlow (by decide)

theorem rewritten_rateMonotonic_iff (py : Interpreter) (file : ScriptFile) :
    (∃ content, rewritten py file.name file.text = some content ∧
      WrittenRateMonotonic py file ⟨file.name, content⟩) ↔ FewPeriods py file := by
  constructor
  · rintro ⟨content, hsome, _, lines, entries, priority, hlines, hcontent, hrate⟩
    have hread := readable_of_rewritten (Option.isSome_of_eq_some hsome)
    obtain ⟨lines', pairs, hlines', hpairs, heq⟩ := rewritten_eq_some file.name hread
    have hsame := (Option.some.inj (hsome.symm.trans heq)).symm.trans hcontent
    have hentries := scriptContent_inj (hlines'.trans hlines.symm).length_eq hsame
    rw [← hentries] at hrate
    exact ⟨hread, card_le_of_rateMonotonic hpairs (fun x hx => no_space_of_mem_commands hx) hrate⟩
  · rintro ⟨hread, hfew⟩
    obtain ⟨lines, pairs, hlines, hpairs, heq⟩ := rewritten_eq_some file.name hread
    exact ⟨_, heq, rfl, lines, _, _, hlines, rfl, rateMonotonic_rankPriority hpairs hfew⟩

end RateMonotonic

theorem appendPriorityCommands_cons_iff (py : Interpreter) (file : ScriptFile)
    (directory : List ScriptFile) :
    List.Forall₂ (WrittenRateMonotonic py) ((file :: directory).filter fun file => file.IsBash)
        (appendPriorityCommands py (file :: directory)) ↔
      (file.IsBash → FewPeriods py file) ∧
        List.Forall₂ (WrittenRateMonotonic py) (directory.filter fun file => file.IsBash)
          (appendPriorityCommands py directory) := by
  have hfile := rewritten_rateMonotonic_iff py file
  rw [appendPriorityCommands, List.filter_cons]
  by_cases hbash : file.IsBash
  · rw [if_pos (decide_eq_true hbash), if_pos hbash]
    cases hrewritten : rewritten py file.name file.text with
    | none =>
      rw [hrewritten] at hfile
      refine iff_of_false ?_ ?_
      · intro h
        cases h
      · rintro ⟨hfew, _⟩
        obtain ⟨content, hsome, _⟩ := hfile.mpr (hfew hbash)
        exact absurd hsome (Option.some_ne_none content).symm
    | some content =>
      rw [hrewritten] at hfile
      rw [List.forall₂_cons, ← hfile]
      refine and_congr_left fun _ => ?_
      constructor
      · intro h _
        exact ⟨content, rfl, h⟩
      · intro h
        obtain ⟨content', hsome, hwritten⟩ := h hbash
        rw [Option.some.inj hsome]
        exact hwritten
  · rw [if_neg (by simpa using hbash), if_neg hbash]
    exact (and_iff_right fun h => absurd h hbash).symm

/-- Every script of the directory gets a list as it is wanted exactly when every one can be read and
has at most 90 periods. -/
theorem appendPriorityCommands_iff (py : Interpreter) (directory : List ScriptFile) :
    List.Forall₂ (WrittenRateMonotonic py) (directory.filter fun file => file.IsBash)
        (appendPriorityCommands py directory) ↔
      ∀ file ∈ directory, file.IsBash → FewPeriods py file := by
  induction directory with
  | nil => exact iff_of_true .nil fun file hfile => absurd hfile List.not_mem_nil
  | cons file directory ih => rw [appendPriorityCommands_cons_iff, List.forall_mem_cons, ih]

def manyPeriods : ScriptFile where
  name := "machine_a_set1.bash".toList
  text := (List.range 91).flatMap fun i =>
    "uunifast_node -p ".toList ++ (intText i ++ " > ./result_node.txt\n".toList)

theorem card_manyPeriods :
    ((commands cpython manyPeriods.text).map Prod.fst).toFinset.card = 91 := by
  decide +kernel

/-- The longest of the periods has priority 0, which is no real-time priority. -/
theorem priority_zero_assigned :
    ¬ List.Forall₂ (WrittenRateMonotonic cpython)
      ([manyPeriods].filter fun file => file.IsBash)
      (appendPriorityCommands cpython [manyPeriods]) := by
  intro h
  have hstep := (appendPriorityCommands_cons_iff cpython manyPeriods []).mp h
  obtain ⟨_, hcard⟩ := hstep.1 (by decide)
  rw [card_manyPeriods] at hcard
  exact absurd hcard (by decide)

end CrosRt.Scripts
