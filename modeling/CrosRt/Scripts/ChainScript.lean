import Mathlib.Data.Bool.AllAny
import CrosRt.Scripts.ChainPatterns
import CrosRt.Scripts.PriorityScript

/-! # The scripts of a set of chains

`make_command` of `make_chain.py` writes the commands of a set of chains into two scripts, one for
each machine, and keeps for itself the priority it wants for each command: 90 for the first chain, one
less for every further one. `make_script.py` reads the scripts back and works out priorities of its
own, for each script alone.

The two agree (`generated_priorities`): the periods are sorted before they are given to the chains, and
a chain that crosses the network has a command on both machines, so a period has the same place among
the periods of either script.
-/

namespace CrosRt.Scripts
set_option autoImplicit false

open Python

/-- What comes from `random`: the sample of periods, the text of each utilization, and `randbelow` for
each chain. -/
structure Draws where
  sample : List ℕ
  utilization : ℕ → Text
  randbelow : ℕ → ℕ → ℕ

/-- An element of `commands_with_paths`. -/
structure ChainCommand where
  cmd : Text
  txtPath : Text
  priority : ℤ

/-- The two files, and `commands_with_paths`. -/
structure ChainScripts where
  machineA : Text
  machineB : Text
  commandsWithPaths : List ChainCommand

/-- `'a'` or `'b'`. -/
def ChainScripts.script (s : ChainScripts) (machine : Char) : Text :=
  if machine = 'a' then s.machineA else s.machineB

/-- `{i}_{j}_{k}` -/
def indexText (i j k : ℕ) : Text := intText i ++ ('_' :: intText j ++ ('_' :: intText k))

def nodeName (i j k : ℕ) : Text := "node".toList ++ indexText i j k

def topicName (i j k : ℕ) : Text := "topic".toList ++ indexText i j k

section Model
variable (numChainsPerSet numCallbacksPerChain : ℕ)

def txtPath (nodeName : Text) : Text :=
  "./result_".toList ++ (intText numChainsPerSet ++ ("chains/".toList ++
    (nodeName ++ ".txt".toList)))

def pubTopicName (i j k : ℕ) : Text :=
  if k = 0 then topicName i j k
  else if k = numCallbacksPerChain - 1 then "None".toList
  else topicName i j k

def subTopicName (i j k : ℕ) : Text :=
  if k = 0 then "none".toList else topicName i j (k - 1)

def commandText (i j k period : ℕ) (utilization : Text) : Text :=
  "ros2 run evaluation_3_randomdag uunifast_node ".toList ++
    ("-n ".toList ++ (nodeName i j k ++ (' ' ::
      ("-p ".toList ++ (intText period ++ (' ' ::
        ("-st ".toList ++ (subTopicName i j k ++ (' ' ::
          ("-pt ".toList ++ (pubTopicName numCallbacksPerChain i j k ++ (' ' ::
            ("-u ".toList ++ (utilization ++ (' ' ::
              ("> ".toList ++ (txtPath numChainsPerSet (nodeName i j k) ++ " &".toList)))))))))))))))))

def Draws.periods (draws : Draws) : List ℕ := draws.sample.insertionSort fun p q => p ≤ q

variable (draws : Draws) (numUdpComm i : ℕ)

/-- The inner loop. -/
def chainCommands (j : ℕ) : List ChainCommand :=
  (List.range numCallbacksPerChain).map fun k => {
    cmd := commandText numChainsPerSet numCallbacksPerChain i j k (draws.periods.getD j 0)
      (draws.utilization (j * numCallbacksPerChain + k))
    txtPath := txtPath numChainsPerSet (nodeName i j k)
    priority := 90 - j }

/-- `file_a` and `file_b`. -/
def onMachine (machine : Char) (commands : List ChainCommand) (chosenPattern : List Char) :
    List ChainCommand :=
  ((commands.zip chosenPattern).filter fun x => x.2 = machine).map Prod.fst

/-- The two calls of `write`. -/
def writtenChain (file : List ChainCommand) : Text :=
  ['\n'].intercalate (file.map ChainCommand.cmd) ++ "\nsleep 20\n".toList

/-- The body of the loop over the chains; the files are opened anew for the first chain. `none` is an
`IndexError` of `random.choice`. -/
def makeChain (s : ChainScripts) (j : ℕ) : Option ChainScripts :=
  let commands := chainCommands numChainsPerSet numCallbacksPerChain draws i j
  (distributeCommands (draws.randbelow j) numUdpComm commands.length).map fun chosenPattern => {
    machineA := (if j = 0 then [] else s.machineA) ++
      writtenChain (onMachine 'a' commands chosenPattern)
    machineB := (if j = 0 then [] else s.machineB) ++
      writtenChain (onMachine 'b' commands chosenPattern)
    commandsWithPaths := s.commandsWithPaths ++ commands }

/-- `make_command`, where the files had any contents before. -/
def makeCommand (oldA oldB : Text) : Option ChainScripts :=
  (List.range numChainsPerSet).foldlM
    (makeChain numChainsPerSet numCallbacksPerChain draws numUdpComm i) ⟨oldA, oldB, []⟩

/-- `random.sample(range(10, 1000), k=NUM_CHAINS_PER_SET)`, and the texts of floating point numbers. -/
structure Draws.Valid : Prop where
  length : draws.sample.length = numChainsPerSet
  nodup : draws.sample.Nodup
  range : ∀ p ∈ draws.sample, 10 ≤ p ∧ p < 1000
  utilization : ∀ n, (draws.utilization n).length ≤ 24 ∧
    ∀ c ∈ draws.utilization n, c ∈ "0123456789.e+-".toList

end Model

def scriptName (machine : Char) (i : ℕ) : Text :=
  "machine_".toList ++ machine :: ("_set".toList ++ (intText i ++ ".bash".toList))

/-! ## The letters of a command -/

theorem isDigit_of_mem_intText {n : ℕ} {c : Char} (h : c ∈ intText n) : c.isDigit = true :=
  Nat.isDigit_of_mem_toDigits (by decide) (by decide) h

theorem length_intText_le {n e : ℕ} (he : 0 < e) (h : n < 10 ^ e) : (intText n).length ≤ e :=
  (Nat.length_toDigits_le_iff (by decide) he).mpr h

/-- What the patterns look for does not stand inside a name. -/
def IsNameChar (c : Char) : Prop :=
  c ≠ '-' ∧ c ≠ '>' ∧ c ≠ '.' ∧ c ≠ ' ' ∧ c ≠ '\n' ∧ c ≠ '\r'

instance : DecidablePred IsNameChar := fun c =>
  inferInstanceAs (Decidable (c ≠ '-' ∧ c ≠ '>' ∧ c ≠ '.' ∧ c ≠ ' ' ∧ c ≠ '\n' ∧ c ≠ '\r'))

theorem isNameChar_intText {n : ℕ} : ∀ c ∈ intText n, IsNameChar c := by
  intro c hc
  have hdigit := isDigit_of_mem_intText hc
  refine ⟨?_, ?_, ?_, ?_, ?_, ?_⟩ <;> (rintro rfl; exact absurd hdigit (by decide))

theorem isNameChar_indexText {i j k : ℕ} : ∀ c ∈ indexText i j k, IsNameChar c := by
  intro c hc
  simp only [indexText, List.mem_append, List.mem_cons] at hc
  rcases hc with hc | (rfl | hc) | rfl | hc
  · exact isNameChar_intText c hc
  · decide
  · exact isNameChar_intText c hc
  · decide
  · exact isNameChar_intText c hc

theorem isNameChar_nodeName {i j k : ℕ} : ∀ c ∈ nodeName i j k, IsNameChar c :=
  List.forall_mem_append.mpr ⟨List.all_iff_forall_prop.mp (by decide), isNameChar_indexText⟩

theorem isNameChar_topicName {i j k : ℕ} : ∀ c ∈ topicName i j k, IsNameChar c :=
  List.forall_mem_append.mpr ⟨List.all_iff_forall_prop.mp (by decide), isNameChar_indexText⟩

theorem isNameChar_pubTopicName {callbacks i j k : ℕ} :
    ∀ c ∈ pubTopicName callbacks i j k, IsNameChar c := by
  unfold pubTopicName
  split_ifs
  · exact isNameChar_topicName
  · exact List.all_iff_forall_prop.mp (by decide)
  · exact isNameChar_topicName

theorem isNameChar_subTopicName {i j k : ℕ} : ∀ c ∈ subTopicName i j k, IsNameChar c := by
  unfold subTopicName
  split_ifs
  · exact List.all_iff_forall_prop.mp (by decide)
  · exact isNameChar_topicName

/-! ## What is read out of a command -/

section Read
variable {py : Interpreter} {chains callbacks i j k period : ℕ} {utilization : Text}

theorem isDecimal_intText (hascii : py.Ascii) {n : ℕ} : ∀ c ∈ intText n, isDecimal py c = true := by
  intro c hc
  rw [isDecimal, decimal_of_isDigit hascii (isDigit_of_mem_intText hc)]
  rfl

/-- The first `-p ` is the option. -/
theorem search_periodRegex_command (hascii : py.Ascii) :
    ∃ taken rest, (periodRegex py).search
      (commandText chains callbacks i j k period utilization ++ ['\n']) =
        some ⟨taken, rest, [intText period]⟩ := by
  obtain ⟨rest, hrest⟩ : ∃ rest, commandText chains callbacks i j k period utilization =
      "ros2 run evaluation_3_randomdag uunifast_node ".toList ++
        ('-' :: 'n' :: ' ' :: (nodeName i j k ++ (' ' ::
          ("-p ".toList ++ (intText period ++ (' ' :: rest)))))) := ⟨_, rfl⟩
  have hdash : '-' ∉ nodeName i j k := fun hmem => (isNameChar_nodeName _ hmem).1 rfl
  have hspace : isDecimal py ' ' = false := by
    rw [isDecimal, hascii ' ' (by decide)]
    rfl
  have hfront : Pattern.matchFront (.seq (.text "-p ".toList) (.group (.run (isDecimal py))))
      ("-p ".toList ++ (intText period ++ (' ' :: (rest ++ ['\n'])))) =
        some ⟨"-p ".toList ++ intText period, ' ' :: (rest ++ ['\n']), [intText period]⟩ :=
    Pattern.matchFront_text_run Nat.toDigits_ne_nil (isDecimal_intText hascii)
      (by simpa using hspace)
  refine ⟨"-p ".toList ++ intText period, ' ' :: (rest ++ ['\n']), ?_⟩
  have htext : periodRegex py = .seq (.text ['-', 'p', ' ']) (numberGroup py) := rfl
  rw [hrest]
  simp only [List.append_assoc, List.cons_append]
  rw [htext, Pattern.search_append_of_not_mem (by decide),
    Pattern.search_cons_of_not_prefix (by simp), Pattern.search_cons_of_not_prefix (by simp),
    Pattern.search_cons_of_not_prefix (by simp), Pattern.search_append_of_not_mem hdash,
    Pattern.search_cons_of_not_prefix (by simp)]
  exact Pattern.search_of_matchFront hfront

/-- The command up to the redirection. -/
def commandFront (callbacks i j k period : ℕ) (utilization : Text) : Text :=
  "ros2 run evaluation_3_randomdag uunifast_node ".toList ++
    ("-n ".toList ++ (nodeName i j k ++ (' ' ::
      ("-p ".toList ++ (intText period ++ (' ' ::
        ("-st ".toList ++ (subTopicName i j k ++ (' ' ::
          ("-pt ".toList ++ (pubTopicName callbacks i j k ++ (' ' ::
            ("-u ".toList ++ (utilization ++ [' ']))))))))))))))

theorem commandText_eq : commandText chains callbacks i j k period utilization =
    commandFront callbacks i j k period utilization ++
      ("> ".toList ++ (txtPath chains (nodeName i j k) ++ " &".toList)) := by
  unfold commandText commandFront
  generalize "ros2 run evaluation_3_randomdag uunifast_node ".toList = run
  generalize "-n ".toList = n
  generalize "-p ".toList = p
  generalize "-st ".toList = st
  generalize "-pt ".toList = pt
  generalize "-u ".toList = u
  generalize "> ".toList = redirect
  generalize " &".toList = background
  simp only [List.append_assoc, List.cons_append, List.nil_append]

/-- The result file is the second half of the name up to `.txt`. -/
theorem commandLine_eq : commandText chains callbacks i j k period utilization ++ ['\n'] =
    commandFront callbacks i j k period utilization ++ ("> ./result_".toList ++
      ((intText chains ++ ("chains/".toList ++ nodeName i j k)) ++
        (".txt".toList ++ " &\n".toList))) := by
  have hredirect : "> ./result_".toList = "> ".toList ++ "./result_".toList := by decide
  have hend : " &\n".toList = " &".toList ++ ['\n'] := by decide
  rw [hredirect, hend, commandText_eq]
  unfold txtPath
  generalize "> ".toList = redirect
  generalize "./result_".toList = result
  generalize "chains/".toList = dir
  generalize ".txt".toList = txt
  generalize " &".toList = background
  simp only [List.append_assoc]

theorem forall_mem_commandFront {P : Char → Prop} (hname : ∀ c, IsNameChar c → P c)
    (hoptions : ∀ c ∈ "ros2 run evaluation_3_randomdag uunifast_node -p -st -u".toList, P c)
    (hu : ∀ c ∈ utilization, P c) :
    ∀ c ∈ commandFront callbacks i j k period utilization, P c := by
  have happend : ∀ {w v : Text}, (∀ c ∈ w, P c) → (∀ c ∈ v, P c) → ∀ c ∈ w ++ v, P c :=
    fun hw hv => List.forall_mem_append.mpr ⟨hw, hv⟩
  have hspace : ∀ {v : Text}, (∀ c ∈ v, P c) → ∀ c ∈ ' ' :: v, P c :=
    fun hv => List.forall_mem_cons.mpr ⟨hoptions ' ' (by decide), hv⟩
  have hnamed : ∀ {w : Text}, (∀ c ∈ w, IsNameChar c) → ∀ c ∈ w, P c :=
    fun hw c hc => hname c (hw c hc)
  have hsub : ∀ {w : Text},
      w ⊆ "ros2 run evaluation_3_randomdag uunifast_node -p -st -u".toList → ∀ c ∈ w, P c :=
    fun hw c hc => hoptions c (hw hc)
  unfold commandFront
  refine happend (hsub (by decide)) (happend (hsub (by decide)) ?_)
  refine happend (hnamed isNameChar_nodeName) (hspace (happend (hsub (by decide)) ?_))
  refine happend (hnamed isNameChar_intText) (hspace (happend (hsub (by decide)) ?_))
  refine happend (hnamed isNameChar_subTopicName) (hspace (happend (hsub (by decide)) ?_))
  refine happend (hnamed isNameChar_pubTopicName) (hspace (happend (hsub (by decide)) ?_))
  exact happend hu (hspace (List.forall_mem_nil P))

/-- A command is one line. -/
theorem forall_mem_commandText (hu : ∀ c ∈ utilization, c ≠ '\n' ∧ c ≠ '\r') :
    ∀ c ∈ commandText chains callbacks i j k period utilization, c ≠ '\n' ∧ c ≠ '\r' := by
  have hfront : ∀ c ∈ commandFront callbacks i j k period utilization, c ≠ '\n' ∧ c ≠ '\r' :=
    forall_mem_commandFront (fun c hc => hc.2.2.2.2) (List.all_iff_forall_prop.mp (by decide)) hu
  have hname : ∀ c ∈ nodeName i j k, c ≠ '\n' ∧ c ≠ '\r' :=
    fun c hc => (isNameChar_nodeName c hc).2.2.2.2
  have hchains : ∀ c ∈ intText chains, c ≠ '\n' ∧ c ≠ '\r' :=
    fun c hc => (isNameChar_intText c hc).2.2.2.2
  rw [commandText_eq]
  unfold txtPath
  simp only [List.forall_mem_append]
  have hliteral : ∀ w ∈ ["> ".toList, "./result_".toList, "chains/".toList, ".txt".toList,
      " &".toList], (w.all fun c => decide (c ≠ '\n' ∧ c ≠ '\r')) = true := by decide
  simp only [List.forall_mem_cons, List.all_iff_forall_prop] at hliteral
  obtain ⟨hredirect, hresult, hdir, htxt, hbackground, -⟩ := hliteral
  exact ⟨hfront, hredirect, ⟨hresult, hchains, hdir, hname, htxt⟩, hbackground⟩

/-- The redirection is the only one, and the name of its file has one `.txt`. -/
theorem search_filenameRegex_command (hu : '>' ∉ utilization) :
    ∃ m, filenameRegex.search
        (commandText chains callbacks i j k period utilization ++ ['\n']) = some m ∧
      m.group 1 = txtPath chains (nodeName i j k) := by
  have hfront : '>' ∉ commandFront callbacks i j k period utilization := by
    intro hmem
    have hne : ∀ c ∈ commandFront callbacks i j k period utilization, c ≠ '>' :=
      forall_mem_commandFront (fun c hc => hc.2.1) (List.all_iff_forall_prop.mp (by decide))
        fun c hc heq => hu (heq ▸ hc)
    exact hne _ hmem rfl
  rw [commandLine_eq]
  set front := commandFront callbacks i j k period utilization
  have hstem : ∀ c ∈ intText chains ++ ("chains/".toList ++ nodeName i j k), IsNameChar c :=
    List.forall_mem_append.mpr
      ⟨isNameChar_intText, List.forall_mem_append.mpr
        ⟨List.all_iff_forall_prop.mp (by decide), isNameChar_nodeName⟩⟩
  have hspace : ' ' ∉ intText chains ++ ("chains/".toList ++ nodeName i j k) :=
    fun hmem => (hstem _ hmem).2.2.2.1 rfl
  have hpath : txtPath chains (nodeName i j k) = "./result_".toList ++
      ((intText chains ++ ("chains/".toList ++ nodeName i j k)) ++ ".txt".toList) := by
    unfold txtPath
    generalize "./result_".toList = result
    generalize "chains/".toList = dir
    simp only [List.append_assoc]
  rw [hpath]
  have hne : intText chains ++ ("chains/".toList ++ nodeName i j k) ≠ [] :=
    List.append_ne_nil_of_left_ne_nil Nat.toDigits_ne_nil _
  generalize intText chains ++ ("chains/".toList ++ nodeName i j k) = stem at hstem hspace hne
  have hsome : (filenameRegex.search
      (front ++ ("> ./result_".toList ++ (stem ++ (".txt".toList ++ " &\n".toList))))).isSome :=
    isSome_search_filenameRegex.mpr ⟨front, stem, " &\n".toList, rfl, hne, hspace⟩
  obtain ⟨m, hm⟩ := Option.isSome_iff_exists.mp hsome
  refine ⟨m, hm, ?_⟩
  obtain ⟨front', hfound, hreads⟩ := Pattern.reads_of_search hm
  obtain ⟨_, _, _, groups, htaken, hgroups, ⟨rfl, rfl⟩, inner, hinner, rfl⟩ := hreads
  obtain ⟨_, _, _, _, rfl, _, ⟨rfl, _⟩, stem', _, _, _, rfl, _, _, ⟨rfl, _⟩⟩ := hinner
  have hgroup : m.group 1 = "./result_".toList ++ (stem' ++ ".txt".toList) := by
    rw [PatternMatch.group, hgroups, List.nil_append, List.getD_cons_zero]
  have hrest : '>' ∉ " ./result_".toList ++ (stem ++ (".txt".toList ++ " &\n".toList)) :=
    List.not_mem_append (by decide)
      (List.not_mem_append (fun hmem => (hstem _ hmem).2.1 rfl) (by decide))
  have hcut : front ++ '>' :: (" ./result_".toList ++ (stem ++ (".txt".toList ++ " &\n".toList))) =
      front' ++ '>' :: (" ./result_".toList ++ (stem' ++ (".txt".toList ++ m.rest))) := by
    rw [htaken] at hfound
    generalize ".txt".toList = txt at hfound ⊢
    simpa [List.append_assoc] using hfound
  have htail := ((List.append_cons_inj_of_notMem hfront hrest).mp hcut).2.2
  have hdot : '.' ∉ stem := fun hmem => (hstem _ hmem).2.2.1 rfl
  have hname : stem ++ '.' :: "txt &\n".toList = stem' ++ '.' :: ("txt".toList ++ m.rest) :=
    List.append_cancel_left htail
  have heq := ((List.append_cons_inj_of_notMem hdot (by decide)).mp hname).1
  rw [hgroup, heq]

theorem periodAndFile_command (hpy : py.Standard) (hascii : py.Ascii)
    (hperiod : (intText period).length ≤ 640) (hu : '>' ∉ utilization) :
    periodAndFile py (commandText chains callbacks i j k period utilization ++ ['\n']) =
      some (some ((period : ℤ), txtPath chains (nodeName i j k))) := by
  set line := commandText chains callbacks i j k period utilization ++ ['\n']
  have hperiodMatch : ∃ taken rest,
      (periodRegex py).search line = some ⟨taken, rest, [intText period]⟩ :=
    search_periodRegex_command hascii
  have hfileMatch : ∃ m, filenameRegex.search line = some m ∧
      m.group 1 = txtPath chains (nodeName i j k) := search_filenameRegex_command hu
  obtain ⟨taken, rest, hsearch⟩ := hperiodMatch
  obtain ⟨m, hm, hgroup⟩ := hfileMatch
  rw [periodAndFile, hsearch, hm]
  show (int py (intText period)).map _ = _
  rw [int_intText hpy hascii hperiod, hgroup]
  rfl

theorem readable_of_periodAndFile (hpy : py.Standard) (hascii : py.Ascii) {line : Text}
    (hlength : line.length ≤ 640) (h : (periodAndFile py line).isSome) :
    NumbersReadable py line := by
  refine ⟨fun m _ hm => ?_, isSome_periodAndFile_iff.mp h⟩
  obtain ⟨before, rfl, _, _, _, groups, htaken, hgroups, ⟨-, rfl⟩, hreads⟩ :=
    Pattern.reads_of_search hm
  obtain ⟨num1, _, _, groups1, rfl, rfl, ⟨_, ⟨hne1, hall1, rfl⟩, rfl⟩, hreads⟩ := hreads
  obtain ⟨_, _, _, groups2, rfl, rfl, ⟨-, rfl⟩, hreads⟩ := hreads
  obtain ⟨num2, _, _, groups3, rfl, rfl, ⟨_, ⟨hne2, hall2, rfl⟩, rfl⟩, hreads⟩ := hreads
  obtain ⟨_, _, _, groups4, rfl, rfl, ⟨-, rfl⟩, hreads⟩ := hreads
  obtain ⟨num3, _, _, groups5, rfl, rfl, ⟨_, ⟨hne3, hall3, rfl⟩, rfl⟩, -, rfl⟩ := hreads
  rw [htaken] at hlength
  simp only [List.length_append] at hlength
  have hle1 : num1.length ≤ 640 := by omega
  have hle2 : num2.length ≤ 640 := by omega
  have hle3 : num3.length ≤ 640 := by omega
  intro n hn
  have hread : ∀ {w : Text}, w ≠ [] → (∀ c ∈ w, isDecimal py c = true) → w.length ≤ 640 →
      (int py w).isSome :=
    fun hne hall hle => Option.isSome_of_eq_some (int_of_decimal hpy hascii hne hall hle)
  rcases List.mem_cons.mp hn with rfl | hn
  · rw [PatternMatch.group, hgroups]
    exact hread hne1 hall1 hle1
  rcases List.mem_cons.mp hn with rfl | hn
  · rw [PatternMatch.group, hgroups]
    exact hread hne2 hall2 hle2
  · rw [List.mem_singleton.mp hn, PatternMatch.group, hgroups]
    exact hread hne3 hall3 hle3

theorem length_commandText_le (hchains : chains < 10 ^ 2) (hi : i < 10 ^ 19) (hj : j < 10 ^ 2)
    (hk : k < 10 ^ 19) (hperiod : period < 10 ^ 3) (hu : utilization.length ≤ 24) :
    (commandText chains callbacks i j k period utilization ++ ['\n']).length ≤ 640 := by
  have hname : ∀ {k : ℕ}, k < 10 ^ 19 → (indexText i j k).length ≤ 42 := by
    intro k hk
    have := length_intText_le (by decide) hi
    have := length_intText_le (by decide) hj
    have := length_intText_le (by decide) hk
    simp only [indexText, List.length_append, List.length_cons]
    omega
  have hnode : (nodeName i j k).length ≤ 46 := by
    have := hname hk
    unfold nodeName
    rw [List.length_append, show "node".toList.length = 4 from rfl]
    omega
  have htopic : ∀ {k : ℕ}, k < 10 ^ 19 → (topicName i j k).length ≤ 47 := by
    intro k hk
    have := hname hk
    unfold topicName
    rw [List.length_append, show "topic".toList.length = 5 from rfl]
    omega
  have hpub : (pubTopicName callbacks i j k).length ≤ 47 := by
    unfold pubTopicName
    split_ifs
    · exact htopic hk
    · decide
    · exact htopic hk
  have hsub : (subTopicName i j k).length ≤ 47 := by
    unfold subTopicName
    split_ifs
    · decide
    · exact htopic (by omega)
  have hpath : (txtPath chains (nodeName i j k)).length ≤ 68 := by
    have := length_intText_le (by decide) hchains
    unfold txtPath
    simp only [List.length_append, show "./result_".toList.length = 9 from rfl,
      show "chains/".toList.length = 7 from rfl, show ".txt".toList.length = 4 from rfl]
    omega
  have := length_intText_le (by decide) hperiod
  unfold commandText
  simp only [List.length_append, List.length_cons, List.length_nil,
    show "ros2 run evaluation_3_randomdag uunifast_node ".toList.length = 46 from rfl,
    show "-n ".toList.length = 3 from rfl, show "-p ".toList.length = 3 from rfl,
    show "-st ".toList.length = 4 from rfl, show "-pt ".toList.length = 4 from rfl,
    show "-u ".toList.length = 3 from rfl, show "> ".toList.length = 2 from rfl,
    show " &".toList.length = 2 from rfl]
  omega

end Read

/-! ## The lines of a script -/

/-- An empty command list leaves an empty line. -/
def fileLines (file : List ChainCommand) : List Text :=
  (if file = [] then [[]] else file.map ChainCommand.cmd) ++ ["sleep 20".toList]

theorem intercalate_newline {lines : List Text} (hne : lines ≠ []) :
    ['\n'].intercalate lines ++ ['\n'] = lines.flatMap fun line => line ++ ['\n'] := by
  induction lines with
  | nil => exact absurd rfl hne
  | cons line lines ih =>
    cases lines with
    | nil => simp
    | cons next lines =>
      rw [List.intercalate_cons_cons, List.flatMap_cons, ← ih (List.cons_ne_nil next lines)]
      simp only [List.append_assoc]

theorem writtenChain_eq (file : List ChainCommand) :
    writtenChain file = (fileLines file).flatMap fun line => line ++ ['\n'] := by
  have hsleep : "\nsleep 20\n".toList = ['\n'] ++ ("sleep 20".toList ++ ['\n']) := by decide
  unfold writtenChain fileLines
  rw [hsleep, ← List.append_assoc, List.flatMap_append, List.flatMap_singleton]
  congr 1
  split_ifs with hfile
  · subst hfile
    rfl
  · exact intercalate_newline (by simpa using hfile)

/-! ## The commands of a machine -/

section Distribution
variable {commands : List ChainCommand} {chosenPattern : List Char}

theorem onMachine_eq_nil_iff (hlength : commands.length = chosenPattern.length) {machine : Char} :
    onMachine machine commands chosenPattern = [] ↔ machine ∉ chosenPattern := by
  have hsnd : (commands.zip chosenPattern).map Prod.snd = chosenPattern :=
    List.map_snd_zip hlength.ge
  rw [onMachine, List.map_eq_nil_iff, List.filter_eq_nil_iff]
  constructor
  · intro h hmem
    rw [← hsnd] at hmem
    obtain ⟨x, hx, rfl⟩ := List.mem_map.mp hmem
    exact h x hx (decide_eq_true rfl)
  · intro h x hx heq
    refine h ?_
    rw [← hsnd, ← of_decide_eq_true heq]
    exact List.mem_map_of_mem hx

/-- Every command is on one machine. -/
theorem onMachine_perm (hlength : commands.length = chosenPattern.length)
    (hletters : ∀ x ∈ chosenPattern, x = 'a' ∨ x = 'b') :
    (onMachine 'a' commands chosenPattern ++ onMachine 'b' commands chosenPattern).Perm
      commands := by
  have hsecond : (commands.zip chosenPattern).filter (fun x => x.2 = 'b') =
      (commands.zip chosenPattern).filter fun x => !decide (x.2 = 'a') := by
    refine List.filter_congr fun x hx => ?_
    rcases hletters x.2 (List.of_mem_zip hx).2 with ha | hb
    · rw [ha]
      decide
    · rw [hb]
      decide
  have hperm := (List.filter_append_perm (fun x => decide (x.2 = 'a'))
    (commands.zip chosenPattern)).map Prod.fst
  rw [List.map_append, List.map_fst_zip hlength.le] at hperm
  rwa [onMachine, onMachine, hsecond]

theorem mem_of_mem_onMachine {machine : Char} {c : ChainCommand}
    (h : c ∈ onMachine machine commands chosenPattern) : c ∈ commands := by
  obtain ⟨x, hx, rfl⟩ := List.mem_map.mp h
  exact (List.of_mem_zip (List.mem_of_mem_filter hx)).1

end Distribution

/-- A chain that never changes machine is on the first one. -/
theorem IsPattern.letter_mem_iff {length edges : ℕ} {s : List Char}
    (h : IsPattern length 'a' edges s) : 'b' ∈ s ↔ edges ≠ 0 := by
  constructor
  · rintro hmem rfl
    have hlength : 0 < length := by
      rw [← h.length]
      exact List.length_pos_of_mem hmem
    have heq := (isPattern_zero_iff (Or.inl rfl) hlength s).mp h
    rw [heq] at hmem
    exact absurd (List.eq_of_mem_replicate hmem) (by decide)
  · intro hne
    by_contra hmem
    have hall : s = List.replicate s.length 'a' := by
      refine List.eq_replicate_of_mem fun x hx => ?_
      exact (h.letters x hx).resolve_right fun hb => hmem (hb ▸ hx)
    have hchanges := h.changes
    rw [hall, changes_replicate] at hchanges
    exact hne hchanges.symm

/-! ## The two scripts -/

section Scripts
variable (chains callbacks : ℕ) (draws : Draws) (numUdpComm i : ℕ)

/-- The pattern of a chain. -/
def patternOf (j : ℕ) : List Char :=
  (distributeCommands (draws.randbelow j) numUdpComm callbacks).getD []

/-- The commands of a chain on a machine. -/
def chainFile (machine : Char) (j : ℕ) : List ChainCommand :=
  onMachine machine (chainCommands chains callbacks draws i j)
    (patternOf callbacks draws numUdpComm j)

variable {chains callbacks draws numUdpComm i}

theorem length_chainCommands (j : ℕ) :
    (chainCommands chains callbacks draws i j).length = callbacks := by
  rw [chainCommands, List.length_map, List.length_range]

theorem makeChain_spec {s t : ChainScripts} {j : ℕ}
    (h : makeChain chains callbacks draws numUdpComm i s j = some t) :
    distributeCommands (draws.randbelow j) numUdpComm callbacks =
        some (patternOf callbacks draws numUdpComm j) ∧
      (∀ machine ∈ ['a', 'b'], t.script machine = (if j = 0 then [] else s.script machine) ++
        writtenChain (chainFile chains callbacks draws numUdpComm i machine j)) ∧
      t.commandsWithPaths = s.commandsWithPaths ++ chainCommands chains callbacks draws i j := by
  unfold makeChain at h
  dsimp only at h
  rw [length_chainCommands] at h
  obtain ⟨pattern, hpattern, rfl⟩ := Option.map_eq_some_iff.mp h
  have hof : patternOf callbacks draws numUdpComm j = pattern := by
    rw [patternOf, hpattern]
    rfl
  refine ⟨by rw [hof, hpattern], fun machine hmachine => ?_, rfl⟩
  rw [chainFile, hof]
  rcases List.mem_cons.mp hmachine with rfl | hb
  · rfl
  · rw [List.mem_singleton.mp hb]
    rfl

/-- The files after some chains, the first included. -/
theorem foldlM_makeChain {old : ChainScripts} : ∀ {n : ℕ} {s : ChainScripts},
    (List.range (n + 1)).foldlM (makeChain chains callbacks draws numUdpComm i) old = some s →
    (∀ j < n + 1, distributeCommands (draws.randbelow j) numUdpComm callbacks =
        some (patternOf callbacks draws numUdpComm j)) ∧
      (∀ machine ∈ ['a', 'b'], s.script machine = (List.range (n + 1)).flatMap fun j =>
        writtenChain (chainFile chains callbacks draws numUdpComm i machine j)) ∧
      s.commandsWithPaths = old.commandsWithPaths ++
        (List.range (n + 1)).flatMap (chainCommands chains callbacks draws i)
  | 0, s, h => by
      have hstep : makeChain chains callbacks draws numUdpComm i old 0 = some s := by simpa using h
      obtain ⟨hpattern, hscript, hpaths⟩ := makeChain_spec hstep
      refine ⟨fun j hj => ?_, fun machine hmachine => ?_, by simpa using hpaths⟩
      · rw [Nat.lt_one_iff.mp hj]
        exact hpattern
      · rw [hscript machine hmachine, if_pos rfl]
        simp
  | n + 1, s, h => by
      rw [List.range_succ, List.foldlM_append] at h
      obtain ⟨u, hu, hlast⟩ := Option.bind_eq_some_iff.mp h
      have hstep : makeChain chains callbacks draws numUdpComm i u (n + 1) = some s := by
        simpa using hlast
      obtain ⟨hpatterns, hscripts, hall⟩ := foldlM_makeChain hu
      obtain ⟨hpattern, hscript, hpaths⟩ := makeChain_spec hstep
      refine ⟨fun j hj => ?_, fun machine hmachine => ?_, ?_⟩
      · rcases Nat.lt_succ_iff_lt_or_eq.mp hj with hlt | rfl
        · exact hpatterns j hlt
        · exact hpattern
      · rw [hscript machine hmachine, if_neg (Nat.succ_ne_zero n), hscripts machine hmachine,
          List.range_succ (n := n + 1), List.flatMap_append, List.flatMap_singleton]
      · rw [hpaths, hall, List.range_succ (n := n + 1), List.flatMap_append, List.flatMap_singleton,
          List.append_assoc]

theorem chainFile_perm {j : ℕ} (hcallbacks : 1 ≤ callbacks)
    (hpattern : distributeCommands (draws.randbelow j) numUdpComm callbacks =
      some (patternOf callbacks draws numUdpComm j)) :
    (chainFile chains callbacks draws numUdpComm i 'a' j ++
      chainFile chains callbacks draws numUdpComm i 'b' j).Perm
        (chainCommands chains callbacks draws i j) := by
  have h := isPattern_of_distributeCommands hcallbacks hpattern
  exact onMachine_perm ((length_chainCommands j).trans h.length.symm) h.letters

/-- The first machine has commands of every chain; the other one of every chain or of none. -/
theorem chainFile_eq_nil_iff {j : ℕ} (hcallbacks : 1 ≤ callbacks)
    (hpattern : distributeCommands (draws.randbelow j) numUdpComm callbacks =
      some (patternOf callbacks draws numUdpComm j)) :
    chainFile chains callbacks draws numUdpComm i 'a' j ≠ [] ∧
      (chainFile chains callbacks draws numUdpComm i 'b' j = [] ↔ numUdpComm = 0) := by
  have h := isPattern_of_distributeCommands hcallbacks hpattern
  have hlength : (chainCommands chains callbacks draws i j).length =
      (patternOf callbacks draws numUdpComm j).length :=
    (length_chainCommands j).trans h.length.symm
  constructor
  · rw [chainFile, ne_eq, onMachine_eq_nil_iff hlength, not_not]
    exact List.mem_of_mem_head? h.head
  · rw [chainFile, onMachine_eq_nil_iff hlength, h.letter_mem_iff, not_ne_iff]

theorem mem_periods {p : ℕ} : p ∈ draws.periods ↔ p ∈ draws.sample := List.mem_insertionSort _

theorem Draws.Valid.getD_lt (h : draws.Valid chains) (j : ℕ) : draws.periods.getD j 0 < 1000 := by
  rw [List.getD_eq_getElem?_getD]
  cases hget : draws.periods[j]? with
  | none => decide
  | some p => exact (h.range p (mem_periods.mp (List.mem_of_getElem? hget))).2

/-- What is read out of a command of a chain. -/
theorem chainCommand_spec {py : Interpreter} (hpy : py.Standard) (hascii : py.Ascii)
    (hdraws : draws.Valid chains) (hchains : chains < 10 ^ 2) (hi : i < 10 ^ 19)
    (hcallbacks : callbacks < 10 ^ 19) {j : ℕ} (hj : j < chains) {c : ChainCommand}
    (hc : c ∈ chainCommands chains callbacks draws i j) :
    (∀ x ∈ c.cmd, x ≠ '\n' ∧ x ≠ '\r') ∧ NumbersReadable py (c.cmd ++ ['\n']) ∧
      periodAndFile py (c.cmd ++ ['\n']) =
        some (some (((draws.periods.getD j 0 : ℕ) : ℤ), c.txtPath)) ∧ c.priority = 90 - j := by
  obtain ⟨k, hk, rfl⟩ := List.mem_map.mp hc
  have hk := List.mem_range.mp hk
  obtain ⟨hlength, hchars⟩ := hdraws.utilization (j * callbacks + k)
  have hperiod := hdraws.getD_lt j
  have hgreater : '>' ∉ draws.utilization (j * callbacks + k) :=
    fun hmem => absurd (hchars _ hmem) (by decide)
  have hdigits : (intText (draws.periods.getD j 0)).length ≤ 3 :=
    length_intText_le (by decide) hperiod
  have hread : periodAndFile py (commandText chains callbacks i j k (draws.periods.getD j 0)
      (draws.utilization (j * callbacks + k)) ++ ['\n']) =
        some (some (((draws.periods.getD j 0 : ℕ) : ℤ), txtPath chains (nodeName i j k))) :=
    periodAndFile_command hpy hascii (hdigits.trans (by decide)) hgreater
  refine ⟨forall_mem_commandText fun x hx => ?_, ?_, hread, rfl⟩
  · constructor
    · rintro rfl
      exact absurd (hchars _ hx) (by decide)
    · rintro rfl
      exact absurd (hchars _ hx) (by decide)
  · exact readable_of_periodAndFile hpy hascii
      (length_commandText_le hchains hi (hj.trans hchains) (hk.trans hcallbacks) hperiod hlength)
      (Option.isSome_of_eq_some hread)

end Scripts

/-! ## What is read out of a script -/

/-- A command that is read back as it was meant. -/
structure ReadBack (py : Interpreter) (period : ℕ) (c : ChainCommand) : Prop where
  line : ∀ x ∈ c.cmd, x ≠ '\n' ∧ x ≠ '\r'
  readable : NumbersReadable py (c.cmd ++ ['\n'])
  read : periodAndFile py (c.cmd ++ ['\n']) = some (some ((period : ℤ), c.txtPath))

section Files
variable {py : Interpreter} {chains : ℕ} {period : ℕ → ℕ} {file : ℕ → List ChainCommand}

theorem periodAndFile_of_search_eq_none {line : Text} (h : filenameRegex.search line = none) :
    periodAndFile py line = some none := by
  unfold periodAndFile
  rw [h]
  split <;> first | rfl | contradiction

/-- The lines that are no commands. -/
theorem otherLine_spec (hpy : py.Standard) (hascii : py.Ascii) : ∀ line ∈ [[], "sleep 20".toList],
    ('\n' ∉ line ∧ '\r' ∉ line) ∧ NumbersReadable py (line ++ ['\n']) ∧
      periodAndFile py (line ++ ['\n']) = some none := by
  have hsearch : ∀ line ∈ [[], "sleep 20".toList],
      ('\n' ∉ line ∧ '\r' ∉ line) ∧ filenameRegex.search (line ++ ['\n']) = none ∧
        (line ++ ['\n']).length ≤ 640 := by
    decide +kernel
  intro line hline
  obtain ⟨hchars, hnone, hlength⟩ := hsearch line hline
  have hread : periodAndFile py (line ++ ['\n']) = some none :=
    periodAndFile_of_search_eq_none hnone
  have hsome : (periodAndFile py (line ++ ['\n'])).isSome := by
    rw [hread]
    rfl
  exact ⟨hchars, readable_of_periodAndFile hpy hascii hlength hsome, hread⟩

theorem fileLines_spec (hpy : py.Standard) (hascii : py.Ascii) {cmds : List ChainCommand} {p : ℕ}
    (h : ∀ c ∈ cmds, ReadBack py p c) :
    (∀ line ∈ fileLines cmds, ('\n' ∉ line ∧ '\r' ∉ line) ∧ NumbersReadable py (line ++ ['\n'])) ∧
      (fileLines cmds).filterMap (fun line => (periodAndFile py (line ++ ['\n'])).join) =
        cmds.map fun c => ((p : ℤ), c.txtPath) := by
  have hother := otherLine_spec hpy hascii
  have hsleep := hother "sleep 20".toList (by decide)
  have hempty := hother [] (by decide)
  constructor
  · intro line hline
    rcases List.mem_append.mp hline with hline | hline
    · split_ifs at hline with hcmds
      · rw [List.mem_singleton.mp hline]
        exact ⟨hempty.1, hempty.2.1⟩
      · obtain ⟨c, hc, rfl⟩ := List.mem_map.mp hline
        refine ⟨⟨fun hmem => ?_, fun hmem => ?_⟩, (h c hc).readable⟩
        · exact ((h c hc).line _ hmem).1 rfl
        · exact ((h c hc).line _ hmem).2 rfl
    · rw [List.mem_singleton.mp hline]
      exact ⟨hsleep.1, hsleep.2.1⟩
  · have hcmds : (if cmds = [] then [[]] else cmds.map ChainCommand.cmd).filterMap
        (fun line => (periodAndFile py (line ++ ['\n'])).join) =
          cmds.map fun c => ((p : ℤ), c.txtPath) := by
      split_ifs with hnil
      · rw [hnil, List.filterMap_cons_none]
        · rfl
        · rw [hempty.2.2]
          rfl
      · rw [List.filterMap_map, ← List.filterMap_eq_map]
        refine List.filterMap_congr fun c hc => ?_
        show (periodAndFile py (c.cmd ++ ['\n'])).join = _
        rw [(h c hc).read]
        rfl
    rw [fileLines, List.filterMap_append, hcmds, List.filterMap_cons_none, List.filterMap_nil,
      List.append_nil]
    rw [hsleep.2.2]
    rfl

/-- The periods and result files of a whole script. -/
theorem commands_script (hpy : py.Standard) (hascii : py.Ascii)
    (h : ∀ j < chains, ∀ c ∈ file j, ReadBack py (period j) c) {text : Text}
    (htext : text = (List.range chains).flatMap fun j => writtenChain (file j)) :
    (∀ line ∈ readlines text, NumbersReadable py line) ∧
      commands py text = (List.range chains).flatMap fun j =>
        (file j).map fun c => ((period j : ℤ), c.txtPath) := by
  have hlines : text = ((List.range chains).flatMap fun j => fileLines (file j)).flatMap
      fun line => line ++ ['\n'] := by
    rw [htext, List.flatMap_assoc]
    exact List.flatMap_congr fun j _ => writtenChain_eq (file j)
  have hspec : ∀ j ∈ List.range chains, _ :=
    fun j hj => fileLines_spec hpy hascii (h j (List.mem_range.mp hj))
  have hread : readlines text = ((List.range chains).flatMap fun j => fileLines (file j)).map
      fun line => line ++ ['\n'] := by
    rw [hlines, readlines_flatMap]
    intro line hline
    obtain ⟨j, hj, hmem⟩ := List.mem_flatMap.mp hline
    exact ((hspec j hj).1 line hmem).1
  constructor
  · rw [hread]
    intro line hline
    obtain ⟨line, hmem, rfl⟩ := List.mem_map.mp hline
    obtain ⟨j, hj, hmem⟩ := List.mem_flatMap.mp hmem
    exact ((hspec j hj).1 line hmem).2
  · rw [commands, hread, List.filterMap_map, List.filterMap_flatMap]
    exact List.flatMap_congr fun j hj => (hspec j hj).2

end Files

/-! ## The priorities of both scripts -/

section Priorities
variable {chains : ℕ} {draws : Draws} {cmds pairs : List (ℤ × Text)} {entries : List Text}

/-- 90 for the shortest period, one less for every further one. -/
def Draws.priority (draws : Draws) (p : ℤ) : ℤ :=
  90 - ((draws.periods.map Nat.cast).idxOf p : ℤ)

theorem Draws.Valid.pairwise (h : draws.Valid chains) :
    (draws.periods.map (Nat.cast : ℕ → ℤ)).Pairwise (· < ·) := by
  have hle : draws.periods.Pairwise (· ≤ ·) := List.pairwise_insertionSort _ _
  have hnodup : draws.periods.Nodup := (List.perm_insertionSort _ _).nodup_iff.mpr h.nodup
  rw [List.pairwise_map]
  refine (hle.and hnodup).imp fun hlt => ?_
  exact Nat.cast_lt.mpr (lt_of_le_of_ne hlt.1 hlt.2)

theorem Draws.Valid.length_periods (h : draws.Valid chains) : draws.periods.length = chains := by
  rw [Draws.periods, List.length_insertionSort, h.length]

theorem Draws.Valid.priority_getD (h : draws.Valid chains) {j : ℕ} (hj : j < chains) :
    draws.priority (draws.periods.getD j 0 : ℕ) = 90 - j := by
  have hlt : j < (draws.periods.map (Nat.cast : ℕ → ℤ)).length := by
    rwa [List.length_map, h.length_periods]
  have hnodup : (draws.periods.map (Nat.cast : ℕ → ℤ)).Nodup := h.pairwise.imp LT.lt.ne
  have hget : ((draws.periods.getD j 0 : ℕ) : ℤ) = (draws.periods.map (Nat.cast : ℕ → ℤ))[j] := by
    rw [List.getElem_map, List.getD_eq_getElem?_getD, List.getElem?_eq_getElem, Option.getD_some]
  rw [Draws.priority, hget, hnodup.idxOf_getElem j hlt]

theorem rateMonotonic_priority (h : draws.Valid chains) (hfew : chains ≤ 90)
    (hcmds : ∀ x ∈ cmds, x.1 ∈ draws.periods.map (Nat.cast : ℕ → ℤ))
    (hentries : entries.Perm (cmds.map fun x => assignmentLine x.2 (draws.priority x.1))) :
    RateMonotonic cmds entries draws.priority := by
  constructor
  case once => exact hentries
  case shorter =>
    intro x hx y hy hlt
    have hidx := idxOf_lt_idxOf h.pairwise (hcmds x hx) (hcmds y hy) hlt
    show 90 - _ < 90 - _
    omega
  case realTime =>
    intro x hx
    have hidx := List.idxOf_lt_length_of_mem (hcmds x hx)
    rw [List.length_map, h.length_periods] at hidx
    show 1 ≤ 90 - _ ∧ 90 - _ ≤ 99
    omega

/-- A script with commands of every chain ranks the periods as all of them are ranked. -/
theorem rankPriority_eq (h : draws.Valid chains)
    (hmem : ∀ p, p ∈ pairs.map Prod.fst ↔ p ∈ draws.periods.map (Nat.cast : ℕ → ℤ)) (p : ℤ) :
    rankPriority pairs p = draws.priority p := by
  have hsame : uniquePeriods pairs = draws.periods.map (Nat.cast : ℕ → ℤ) := by
    have hnodup : (uniquePeriods pairs).Nodup := (pairwise_uniquePeriods pairs).imp LT.lt.ne
    have hperm := (List.perm_ext_iff_of_nodup hnodup (h.pairwise.imp LT.lt.ne)).mpr
      fun p => mem_uniquePeriods.trans (hmem p)
    exact hperm.eq_of_pairwise (fun a b _ _ hab hba => absurd hab hba.asymm)
      (pairwise_uniquePeriods pairs) h.pairwise
  rw [rankPriority, hsame]
  rfl

end Priorities

section Generated
variable {py : Interpreter} {chains callbacks numUdpComm i : ℕ} {draws : Draws}

/-- The periods and result files of the commands of a machine. -/
def machineCommands (chains callbacks numUdpComm i : ℕ) (draws : Draws) (machine : Char) :
    List (ℤ × Text) :=
  (List.range chains).flatMap fun j =>
    (chainFile chains callbacks draws numUdpComm i machine j).map fun c =>
      (((draws.periods.getD j 0 : ℕ) : ℤ), c.txtPath)

theorem mem_machineCommands_fst {machine : Char} {p : ℤ} :
    p ∈ (machineCommands chains callbacks numUdpComm i draws machine).map Prod.fst ↔
      ∃ j < chains, chainFile chains callbacks draws numUdpComm i machine j ≠ [] ∧
        p = (draws.periods.getD j 0 : ℕ) := by
  simp only [machineCommands, List.map_flatMap, List.map_map, List.mem_flatMap, List.mem_range,
    List.mem_map, Function.comp_apply]
  constructor
  · rintro ⟨j, hj, c, hc, rfl⟩
    exact ⟨j, hj, List.ne_nil_of_mem hc, rfl⟩
  · rintro ⟨j, hj, hne, rfl⟩
    obtain ⟨c, rest, hcons⟩ := List.exists_cons_of_ne_nil hne
    exact ⟨j, hj, c, hcons ▸ List.mem_cons_self, rfl⟩

theorem mem_map_periods_iff (h : draws.Valid chains) {p : ℤ} :
    p ∈ draws.periods.map (Nat.cast : ℕ → ℤ) ↔
      ∃ j < chains, p = (draws.periods.getD j 0 : ℕ) := by
  rw [List.mem_map]
  constructor
  · rintro ⟨q, hq, rfl⟩
    obtain ⟨j, hj, rfl⟩ := List.mem_iff_getElem.mp hq
    refine ⟨j, h.length_periods ▸ hj, ?_⟩
    rw [List.getD_eq_getElem?_getD, List.getElem?_eq_getElem hj, Option.getD_some]
  · rintro ⟨j, hj, rfl⟩
    have hj : j < draws.periods.length := h.length_periods.symm ▸ hj
    refine ⟨_, ?_, rfl⟩
    rw [List.getD_eq_getElem?_getD, List.getElem?_eq_getElem hj, Option.getD_some]
    exact List.getElem_mem hj

/-- The other machine has commands of every chain or of none. -/
theorem chainFile_all_or_none (hcallbacks : 1 ≤ callbacks)
    (hpattern : ∀ j < chains, distributeCommands (draws.randbelow j) numUdpComm callbacks =
      some (patternOf callbacks draws numUdpComm j))
    {machine : Char} (hmachine : machine ∈ ['a', 'b']) :
    (∀ j < chains, chainFile chains callbacks draws numUdpComm i machine j ≠ []) ∨
      ∀ j < chains, chainFile chains callbacks draws numUdpComm i machine j = [] := by
  have hfiles : ∀ j < chains, chainFile chains callbacks draws numUdpComm i 'a' j ≠ [] ∧
      (chainFile chains callbacks draws numUdpComm i 'b' j = [] ↔ numUdpComm = 0) :=
    fun j hj => chainFile_eq_nil_iff hcallbacks (hpattern j hj)
  rcases List.mem_cons.mp hmachine with rfl | hb
  · exact Or.inl fun j hj => (hfiles j hj).1
  · rw [List.mem_singleton.mp hb]
    by_cases hzero : numUdpComm = 0
    · exact Or.inr fun j hj => (hfiles j hj).2.mpr hzero
    · exact Or.inl fun j hj => mt (hfiles j hj).2.mp hzero

/-- What is written for one machine. -/
theorem rewritten_machine (hpy : py.Standard) (hascii : py.Ascii) (hdraws : draws.Valid chains)
    (hchains : chains ≤ 90) (hcallbacks : 1 ≤ callbacks) (hshort : callbacks < 10 ^ 19)
    (hi : i < 10 ^ 19)
    (hpattern : ∀ j < chains, distributeCommands (draws.randbelow j) numUdpComm callbacks =
      some (patternOf callbacks draws numUdpComm j))
    {machine : Char} (hmachine : machine ∈ ['a', 'b']) {text : Text}
    (htext : text = (List.range chains).flatMap fun j =>
      writtenChain (chainFile chains callbacks draws numUdpComm i machine j)) (filename : Text) :
    ∃ lines entries, rewritten py filename text = some (scriptContent py filename lines entries) ∧
      lines.Perm (readlines text) ∧
      commands py text = machineCommands chains callbacks numUdpComm i draws machine ∧
      entries.Perm ((commands py text).map fun x => assignmentLine x.2 (draws.priority x.1)) := by
  have hback : ∀ j < chains, ∀ c ∈ chainFile chains callbacks draws numUdpComm i machine j,
      ReadBack py (draws.periods.getD j 0) c := by
    intro j hj c hc
    obtain ⟨hline, hreadable, hread, -⟩ := chainCommand_spec hpy hascii hdraws
      (lt_of_le_of_lt hchains (by decide)) hi hshort hj (mem_of_mem_onMachine hc)
    exact ⟨hline, hreadable, hread⟩
  obtain ⟨hreadable, hcommands⟩ := commands_script hpy hascii hback htext
  obtain ⟨lines, pairs, hlines, hpairs, hwritten⟩ := rewritten_eq_some filename hreadable
  refine ⟨lines, rankedEntries pairs, hwritten, hlines, hcommands, ?_⟩
  have hmap : rankedEntries pairs = pairs.map fun x => assignmentLine x.2 (draws.priority x.1) := by
    rcases chainFile_all_or_none (i := i) hcallbacks hpattern hmachine with hall | hnone
    · have hmem : ∀ p, p ∈ pairs.map Prod.fst ↔ p ∈ draws.periods.map (Nat.cast : ℕ → ℤ) := by
        intro p
        rw [(hpairs.map Prod.fst).mem_iff, hcommands, mem_map_periods_iff hdraws]
        refine mem_machineCommands_fst.trans (exists_congr fun j => ?_)
        exact and_congr_right fun hj => and_iff_right (hall j hj)
      exact List.map_congr_left fun x _ => by rw [rankPriority_eq hdraws hmem]
    · have hnil : machineCommands chains callbacks numUdpComm i draws machine = [] := by
        rw [machineCommands, List.flatMap_eq_nil_iff]
        intro j hj
        rw [hnone j (List.mem_range.mp hj), List.map_nil]
      rw [hcommands.trans hnil] at hpairs
      rw [hpairs.eq_nil]
      rfl
  rw [hmap]
  exact hpairs.map _

theorem priority_chainCommand (hdraws : draws.Valid chains) {j : ℕ} (hj : j < chains)
    {c : ChainCommand} (hc : c ∈ chainCommands chains callbacks draws i j) :
    c.priority = draws.priority (draws.periods.getD j 0 : ℕ) := by
  obtain ⟨k, _, rfl⟩ := List.mem_map.mp hc
  exact (hdraws.priority_getD hj).symm

/-- Both lists together are the commands with the priorities meant for them. -/
theorem machineCommands_perm (hdraws : draws.Valid chains) (hcallbacks : 1 ≤ callbacks)
    (hpattern : ∀ j < chains, distributeCommands (draws.randbelow j) numUdpComm callbacks =
      some (patternOf callbacks draws numUdpComm j)) :
    ((machineCommands chains callbacks numUdpComm i draws 'a' ++
        machineCommands chains callbacks numUdpComm i draws 'b').map
      fun x => assignmentLine x.2 (draws.priority x.1)).Perm
    (((List.range chains).flatMap (chainCommands chains callbacks draws i)).map
      fun c => assignmentLine c.txtPath c.priority) := by
  have hentries : ∀ machine, (machineCommands chains callbacks numUdpComm i draws machine).map
      (fun x => assignmentLine x.2 (draws.priority x.1)) =
        ((List.range chains).flatMap (chainFile chains callbacks draws numUdpComm i machine)).map
          fun c => assignmentLine c.txtPath c.priority := by
    intro machine
    rw [machineCommands, List.map_flatMap, List.map_flatMap]
    refine List.flatMap_congr fun j hj => ?_
    rw [List.map_map]
    refine List.map_congr_left fun c hc => ?_
    show assignmentLine c.txtPath _ = _
    rw [priority_chainCommand hdraws (List.mem_range.mp hj) (mem_of_mem_onMachine hc)]
  rw [List.map_append, hentries, hentries, ← List.map_append]
  refine ((List.flatMap_append_perm _ _ _).trans ?_).map _
  exact List.Perm.flatMap_left _ fun j hj =>
    chainFile_perm hcallbacks (hpattern j (List.mem_range.mp hj))

/-- **The priorities of a set of chains.** Whatever the draws, `make_script.py` gives every command of
the two scripts the priority that `make_command` has for it, although it sees one script at a time and
no priority: each command stands in the list of one machine, and the two lists together are rate
monotonic. -/
theorem generated_priorities (hpy : py.Standard) (hascii : py.Ascii) (hdraws : draws.Valid chains)
    (hpos : 1 ≤ chains) (hchains : chains ≤ 90) (hcallbacks : 1 ≤ callbacks)
    (hshort : callbacks < 10 ^ 19) (hi : i < 10 ^ 19) {oldA oldB : Text} {s : ChainScripts}
    (h : makeCommand chains callbacks draws numUdpComm i oldA oldB = some s) :
    ∃ (lines entries : Char → List Text) (priority : ℤ → ℤ),
      (∀ machine ∈ ['a', 'b'],
        rewritten py (scriptName machine i) (s.script machine) =
            some (scriptContent py (scriptName machine i) (lines machine) (entries machine)) ∧
          (lines machine).Perm (readlines (s.script machine)) ∧
          RateMonotonic (commands py (s.script machine)) (entries machine) priority) ∧
      RateMonotonic (commands py (s.script 'a') ++ commands py (s.script 'b'))
        (entries 'a' ++ entries 'b') priority ∧
      (entries 'a' ++ entries 'b').Perm
        (s.commandsWithPaths.map fun c => assignmentLine c.txtPath c.priority) := by
  obtain ⟨n, rfl⟩ := Nat.exists_eq_add_of_le' hpos
  obtain ⟨hpattern, hscripts, hpaths⟩ := foldlM_makeChain h
  have hwritten : ∀ machine ∈ ['a', 'b'], _ := fun machine hmachine =>
    rewritten_machine hpy hascii hdraws hchains hcallbacks hshort hi hpattern hmachine
      (hscripts machine hmachine) (scriptName machine i)
  choose! lines entries hsome hlines hcommands hentries using hwritten
  have ha : 'a' ∈ ['a', 'b'] := by decide
  have hb : 'b' ∈ ['a', 'b'] := by decide
  have hperiods : ∀ machine ∈ ['a', 'b'], ∀ x ∈ commands py (s.script machine),
      x.1 ∈ draws.periods.map (Nat.cast : ℕ → ℤ) := by
    intro machine hmachine x hx
    rw [hcommands machine hmachine] at hx
    obtain ⟨j, hj, -, heq⟩ := mem_machineCommands_fst.mp (List.mem_map_of_mem hx)
    exact (mem_map_periods_iff hdraws).mpr ⟨j, hj, heq⟩
  have hboth : (entries 'a' ++ entries 'b').Perm
      ((commands py (s.script 'a') ++ commands py (s.script 'b')).map
        fun x => assignmentLine x.2 (draws.priority x.1)) := by
    rw [List.map_append]
    exact (hentries 'a' ha).append (hentries 'b' hb)
  refine ⟨lines, entries, draws.priority, fun machine hmachine => ⟨hsome machine hmachine,
    hlines machine hmachine, rateMonotonic_priority hdraws hchains (hperiods machine hmachine)
      (hentries machine hmachine)⟩, ?_, ?_⟩
  · refine rateMonotonic_priority hdraws hchains (fun x hx => ?_) hboth
    exact (List.mem_append.mp hx).elim (hperiods 'a' ha x) (hperiods 'b' hb x)
  · rw [hcommands 'a' ha, hcommands 'b' hb] at hboth
    rw [hpaths, List.nil_append]
    exact hboth.trans (machineCommands_perm hdraws hcallbacks hpattern)

/-- Two chains that go from one machine to the other and back. -/
def twoChains : Draws := ⟨[500, 20], fun _ => "0.25".toList, fun _ _ => 0⟩

theorem generated_priorities_two_chains :
    ∃ s, makeCommand 2 3 twoChains 2 7 [] [] = some s ∧ ∃ entries : Char → List Text,
      (entries 'a' ++ entries 'b').Perm
        (["    \"./result_2chains/node7_0_0.txt 90\"\n", "    \"./result_2chains/node7_0_1.txt 90\"\n",
          "    \"./result_2chains/node7_0_2.txt 90\"\n", "    \"./result_2chains/node7_1_0.txt 89\"\n",
          "    \"./result_2chains/node7_1_1.txt 89\"\n",
          "    \"./result_2chains/node7_1_2.txt 89\"\n"].map String.toList) := by
  have hlines : (makeCommand 2 3 twoChains 2 7 [] []).map (fun s =>
      s.commandsWithPaths.map fun c => assignmentLine c.txtPath c.priority) =
        some (["    \"./result_2chains/node7_0_0.txt 90\"\n",
          "    \"./result_2chains/node7_0_1.txt 90\"\n", "    \"./result_2chains/node7_0_2.txt 90\"\n",
          "    \"./result_2chains/node7_1_0.txt 89\"\n", "    \"./result_2chains/node7_1_1.txt 89\"\n",
          "    \"./result_2chains/node7_1_2.txt 89\"\n"].map String.toList) := by
    decide +kernel
  obtain ⟨s, hs, heq⟩ := Option.map_eq_some_iff.mp hlines
  have hvalid : twoChains.Valid 2 := by
    refine ⟨rfl, by decide, by decide, fun n => ?_⟩
    show "0.25".toList.length ≤ 24 ∧ ∀ c ∈ "0.25".toList, c ∈ "0123456789.e+-".toList
    exact ⟨by decide, List.all_iff_forall_prop.mp (by decide)⟩
  have hstandard : cpython.Standard := ⟨by decide, fun limit h => by cases h⟩
  have hascii : cpython.Ascii := fun _ _ => rfl
  obtain ⟨_, entries, _, _, _, hperm⟩ := generated_priorities hstandard hascii hvalid (by decide)
    (by decide) (by decide) (by decide) (by decide) hs
  rw [heq] at hperm
  exact ⟨s, hs, entries, hperm⟩

end Generated

end CrosRt.Scripts
