import Mathlib.Data.Rat.Init
import Mathlib.Algebra.Order.Ring.Rat
import Mathlib.Tactic.Linarith
import CrosRt.Scripts.PythonText

/-! # End-to-end latencies from two logs

`analysis_e2e.py` of two of the evaluations: for each message of a window the time from its `pub`
line in the publisher's log to its `end` line in the subscriber's. The two scripts differ in the
window only. Times are rationals, `float` is any function that reads them off a token.

`find_value` answers 0.0 for a message without a line, and takes a `pub` line in either log.
-/

namespace CrosRt.Scripts
set_option autoImplicit false

open Python

/-- The lines of a log, split into words. -/
abbrev LogData := List (List Text)

/-- The scripts of `evaluation_fig9` and of `evaluation_fig11_fig12_fig13`. -/
inductive E2eScript
  | fig9
  | fig11
  deriving DecidableEq, Repr

/-- `read_data`; the words of a stripped line are those of the line. -/
def readData (log : Text) : LogData := (readlines log).map split

/-- `get_last_num`: the outer `none` is an exception, the inner one the value `None`. -/
def getLastNum (py : Interpreter) (log : Text) : Option (Option ℤ) :=
  match ((readData log).filter fun tokens => tokens ≠ []).getLast? with
  | none => some none
  | some tokens =>
      if tokens.length < 2 then some none
      else
        tokens[2]?.map fun token =>
          if "Data#".toList <+: token then
            ((token.splitOnP fun c => c = '#')[1]?).bind (int py)
          else none

def dataId (cnt : ℤ) : Text := "Data#".toList ++ intText cnt

section Model
variable (float : Text → Option ℚ)

/-- `find_value`; `none` for an exception. -/
def findValue (target : Text) (endMarker : Option Text) : LogData → Option ℚ
  | [] => some 0
  | tokens :: data =>
      match tokens[2]? with
      | none => none
      | some token =>
          if token = target ∧ (tokens[1]? = endMarker ∨ tokens[1]? = some "pub".toList) then
            tokens[3]?.bind float
          else findValue target endMarker data

def latency (subData pubData : LogData) (cnt : ℤ) : Option ℚ :=
  (findValue float (dataId cnt) (some "end".toList) subData).bind fun subValue =>
    (findValue float (dataId cnt) none pubData).map fun pubValue =>
      if 0 ≤ subValue - pubValue then (subValue - pubValue) * 1000 else 100000

def outputLines (subData pubData : LogData) : List ℤ → Option (List (ℤ × ℚ))
  | [] => some []
  | cnt :: window =>
      (latency float subData pubData cnt).bind fun diff =>
        (outputLines subData pubData window).map fun lines => (cnt, diff) :: lines

/-- `range(start, stop)`. -/
def pyRange (start stop : ℤ) : List ℤ := (List.range (stop - start).toNat).map fun i => start + i

def windowFig9 (outputPath : Text) : List ℤ :=
  if "chain4".toList <:+: outputPath then pyRange 100 (400 + 1)
  else if "chain3".toList <:+: outputPath then pyRange 1000 (3000 + 1)
  else pyRange 4000 (6000 + 1)

def windowFig11 (lastNum : ℤ) (outputPath : Text) : List ℤ :=
  let startCnt :=
    if "chain0".toList <:+: outputPath then
      if 0 < lastNum - 300 then lastNum - 300 else lastNum - 50
    else if 0 < lastNum - 200 then lastNum - 200 else lastNum - 50
  pyRange startCnt (lastNum - 1 + 1)

/-- The window of a script; `none` where it stops without one. -/
def E2eScript.window (script : E2eScript) (py : Interpreter) (subLog outputPath : Text) :
    Option (List ℤ) :=
  match script with
  | .fig9 => some (windowFig9 outputPath)
  | .fig11 =>
      (getLastNum py subLog).bind fun lastNum =>
        lastNum.map fun lastNum => windowFig11 lastNum outputPath

/-- `main`: the lines written, `none` where the script stops before. -/
def E2eScript.main (script : E2eScript) (py : Interpreter) (subLog pubLog outputPath : Text) :
    Option (List (ℤ × ℚ)) :=
  (script.window py subLog outputPath).bind
    (outputLines float (readData subLog) (readData pubLog))

/-! ## What the logs say -/

def IsRecord (markers : List Text) (target : Text) (tokens : List Text) : Prop :=
  tokens[2]? = some target ∧ ∃ marker ∈ markers, tokens[1]? = some marker

instance (markers : List Text) (target : Text) : DecidablePred (IsRecord markers target) :=
  fun _ => inferInstanceAs (Decidable (_ ∧ _))

def firstRecord (markers : List Text) (cnt : ℤ) (data : LogData) : Option ℚ :=
  (data.find? fun tokens => IsRecord markers (dataId cnt) tokens).bind fun tokens =>
    tokens[3]?.bind float

def firstEnd (cnt : ℤ) (data : LogData) : Option ℚ := firstRecord float ["end".toList] cnt data

def firstPub (cnt : ℤ) (data : LogData) : Option ℚ := firstRecord float ["pub".toList] cnt data

def firstEndOrPub (cnt : ℤ) (data : LogData) : Option ℚ :=
  firstRecord float ["end".toList, "pub".toList] cnt data

/-- The time from publication to end in milliseconds, 100000 where a record is missing or the end
comes before the publication. -/
def endToEnd (subData pubData : LogData) (cnt : ℤ) : ℚ :=
  match firstEnd float cnt subData, firstPub float cnt pubData with
  | some stop, some start => if 0 ≤ stop - start then (stop - start) * 1000 else 100000
  | _, _ => 100000

/-- Four words a line, and times that are positive numbers. -/
structure Readable (data : LogData) : Prop where
  words : ∀ tokens ∈ data, 4 ≤ tokens.length
  times : ∀ tokens ∈ data, tokens[1]? = some "end".toList ∨ tokens[1]? = some "pub".toList →
    ∃ time, tokens[3]?.bind float = some time ∧ 0 < time

/-- A time read as 100000: before `start`, or exactly 100 seconds after it. -/
def ReadsAsMissing (start time : ℚ) : Prop := time < start ∨ time = start + 100

/-- The message is in the publisher's log and its first `end` or `pub` line in the subscriber's log
is the first `end` line, or it has none there. The rest are coincidences: times that read as
100000. -/
def RecordsMatch (subData pubData : LogData) (cnt : ℤ) : Prop :=
  match firstPub float cnt pubData, firstEndOrPub float cnt subData with
  | some _, none => True
  | none, taken => taken = some 100
  | some start, some taken =>
      match firstEnd float cnt subData with
      | some stop => taken = stop ∨ ReadsAsMissing start taken ∧ ReadsAsMissing start stop
      | none => ReadsAsMissing start taken

end Model

/-! ## Looking a message up -/

section Lookup
variable {float : Text → Option ℚ} {data : LogData}

theorem Readable.tail {tokens : List Text} (h : Readable float (tokens :: data)) :
    Readable float data where
  words l hl := h.words l (List.mem_cons_of_mem tokens hl)
  times l hl := h.times l (List.mem_cons_of_mem tokens hl)

/-- The markers that `find_value` takes for an `end_marker`. -/
def markersOf (endMarker : Option Text) : List Text := endMarker.toList ++ ["pub".toList]

theorem isRecord_iff (endMarker : Option Text) (target : Text) {token : Text} {tokens : List Text}
    (hlen : 4 ≤ tokens.length) (htoken : tokens[2]? = some token) :
    IsRecord (markersOf endMarker) target tokens ↔
      token = target ∧ (tokens[1]? = endMarker ∨ tokens[1]? = some "pub".toList) := by
  have hone : tokens[1]? = some tokens[1] := List.getElem?_eq_getElem (by omega)
  rw [IsRecord, htoken, Option.some.injEq, hone]
  cases endMarker <;> simp [markersOf, eq_comm]

theorem time_of_isRecord (endMarker : Option Text)
    (hend : ∀ marker ∈ endMarker, marker = "end".toList) {target : Text}
    (h : Readable float data) {tokens : List Text} (hline : tokens ∈ data)
    (hrecord : IsRecord (markersOf endMarker) target tokens) :
    ∃ time, tokens[3]?.bind float = some time ∧ 0 < time := by
  obtain ⟨-, marker, hmarker, hone⟩ := hrecord
  refine h.times tokens hline ?_
  rw [markersOf, List.mem_append, Option.mem_toList, List.mem_singleton] at hmarker
  rcases hmarker with hmarker | rfl
  · rw [hone, hend marker hmarker]
    exact Or.inl rfl
  · exact Or.inr hone

/-- `find_value` gives the time of the first record, and 0 where there is none. -/
theorem findValue_eq (endMarker : Option Text)
    (hend : ∀ marker ∈ endMarker, marker = "end".toList) (h : Readable float data) (cnt : ℤ) :
    findValue float (dataId cnt) endMarker data =
      some ((firstRecord float (markersOf endMarker) cnt data).getD 0) := by
  induction data with
  | nil => rfl
  | cons tokens data ih =>
    have hlen := h.words tokens List.mem_cons_self
    have htwo : tokens[2]? = some tokens[2] := List.getElem?_eq_getElem (by omega)
    have hrecord := isRecord_iff endMarker (dataId cnt) hlen htwo
    rw [findValue, htwo]
    simp only
    by_cases hr : IsRecord (markersOf endMarker) (dataId cnt) tokens
    · obtain ⟨time, htime, -⟩ := time_of_isRecord endMarker hend h List.mem_cons_self hr
      rw [if_pos (hrecord.mp hr), htime, firstRecord,
        List.find?_cons_of_pos (by simpa using hr), Option.bind_some, htime, Option.getD_some]
    · rw [if_neg (mt hrecord.mpr hr), ih h.tail, firstRecord, firstRecord,
        List.find?_cons_of_neg (by simpa using hr)]

theorem firstRecord_pos (endMarker : Option Text)
    (hend : ∀ marker ∈ endMarker, marker = "end".toList) (h : Readable float data) {cnt : ℤ}
    {time : ℚ} (htime : firstRecord float (markersOf endMarker) cnt data = some time) :
    0 < time := by
  obtain ⟨tokens, hline, htime⟩ := Option.bind_eq_some_iff.mp htime
  have hrecord : IsRecord (markersOf endMarker) (dataId cnt) tokens := by
    simpa using List.find?_some hline
  obtain ⟨time', htime', hpos⟩ :=
    time_of_isRecord endMarker hend h (List.mem_of_find?_eq_some hline) hrecord
  rw [htime', Option.some.injEq] at htime
  exact htime ▸ hpos

theorem firstEndOrPub_pos (h : Readable float data) {cnt : ℤ} {time : ℚ}
    (htime : firstEndOrPub float cnt data = some time) : 0 < time :=
  firstRecord_pos (some "end".toList) (by simp) h htime

theorem firstPub_pos (h : Readable float data) {cnt : ℤ} {time : ℚ}
    (htime : firstPub float cnt data = some time) : 0 < time :=
  firstRecord_pos none (by simp) h htime

theorem firstEndOrPub_ne_none {cnt : ℤ} {time : ℚ} (h : Readable float data)
    (htime : firstEnd float cnt data = some time) : firstEndOrPub float cnt data ≠ none := by
  obtain ⟨tokens, hline, -⟩ := Option.bind_eq_some_iff.mp htime
  have hend : IsRecord ["end".toList] (dataId cnt) tokens := by
    simpa using List.find?_some hline
  obtain ⟨htwo, marker, hmarker, hone⟩ := hend
  have hrecord : IsRecord (markersOf (some "end".toList)) (dataId cnt) tokens :=
    ⟨htwo, marker, List.mem_append_left _ hmarker, hone⟩
  have hsome : (data.find? fun tokens =>
      IsRecord (markersOf (some "end".toList)) (dataId cnt) tokens).isSome := by
    rw [List.find?_isSome]
    exact ⟨tokens, List.mem_of_find?_eq_some hline, by simpa using hrecord⟩
  obtain ⟨taken, htaken⟩ := Option.isSome_iff_exists.mp hsome
  have hmem := List.mem_of_find?_eq_some htaken
  obtain ⟨time', htime', -⟩ := time_of_isRecord (some "end".toList) (by simp) h hmem
    (by simpa using List.find?_some htaken)
  intro hnone
  have heq : firstEndOrPub float cnt data = taken[3]?.bind float := by
    rw [firstEndOrPub, firstRecord]
    exact (congrArg (fun found => found.bind fun tokens => tokens[3]?.bind float) htaken)
  rw [hnone, htime'] at heq
  exact absurd heq (Option.some_ne_none time').symm

end Lookup

/-! ## The value written -/

section Value
variable {float : Text → Option ℚ} {subData pubData : LogData}

def written (subValue pubValue : ℚ) : ℚ :=
  if 0 ≤ subValue - pubValue then (subValue - pubValue) * 1000 else 100000

theorem latency_eq (hsub : Readable float subData) (hpub : Readable float pubData) (cnt : ℤ) :
    latency float subData pubData cnt =
      some (written ((firstEndOrPub float cnt subData).getD 0)
        ((firstPub float cnt pubData).getD 0)) := by
  rw [latency, findValue_eq (some "end".toList) (by simp) hsub,
    findValue_eq none (by simp) hpub]
  rfl

theorem written_eq_missing_iff (start time : ℚ) :
    written time start = 100000 ↔ ReadsAsMissing start time := by
  rw [written, ReadsAsMissing]
  by_cases h : 0 ≤ time - start
  · rw [if_pos h]
    constructor
    · intro heq
      exact Or.inr (by linarith)
    · rintro (hlt | heq)
      · exact absurd h (by linarith)
      · rw [heq]
        ring
  · rw [if_neg h]
    exact iff_of_true rfl (Or.inl (by linarith))

theorem written_eq_iff (start time time' : ℚ) :
    written time start = written time' start ↔
      time = time' ∨ ReadsAsMissing start time ∧ ReadsAsMissing start time' := by
  constructor
  · intro heq
    by_cases hmissing : written time start = 100000
    · exact Or.inr ⟨(written_eq_missing_iff start time).mp hmissing,
        (written_eq_missing_iff start time').mp (heq ▸ hmissing)⟩
    · have hmissing' : written time' start ≠ 100000 := heq ▸ hmissing
      left
      rw [written] at heq hmissing
      rw [written] at heq hmissing'
      by_cases h : 0 ≤ time - start
      · by_cases h' : 0 ≤ time' - start
        · rw [if_pos h, if_pos h'] at heq
          linarith
        · exact absurd (if_neg h') hmissing'
      · exact absurd (if_neg h) hmissing
  · rintro (rfl | ⟨h, h'⟩)
    · rfl
    · rw [(written_eq_missing_iff start time).mpr h, (written_eq_missing_iff start time').mpr h']

theorem written_missing_pub {taken : ℚ} (h : 0 < taken) :
    written taken 0 = 100000 ↔ taken = 100 := by
  rw [written_eq_missing_iff, ReadsAsMissing, zero_add]
  exact or_iff_right (not_lt.mpr h.le)

/-- One message: the value written is the latency exactly when the records match. -/
theorem written_iff (hsub : Readable float subData) (hpub : Readable float pubData) (cnt : ℤ) :
    written ((firstEndOrPub float cnt subData).getD 0) ((firstPub float cnt pubData).getD 0) =
        endToEnd float subData pubData cnt ↔
      RecordsMatch float subData pubData cnt := by
  rw [RecordsMatch, endToEnd]
  cases hstart : firstPub float cnt pubData with
  | none =>
    have hmissing : (match firstEnd float cnt subData, (none : Option ℚ) with
        | some stop, some start => if 0 ≤ stop - start then (stop - start) * 1000 else 100000
        | _, _ => (100000 : ℚ)) = 100000 := by
      cases firstEnd float cnt subData <;> rfl
    rw [hmissing, Option.getD_none]
    cases htaken : firstEndOrPub float cnt subData with
    | none => simp [written]
    | some taken =>
      rw [Option.getD_some, written_missing_pub (firstEndOrPub_pos hsub htaken)]
      simp
  | some start =>
    have hpos := firstPub_pos hpub hstart
    rw [Option.getD_some]
    cases htaken : firstEndOrPub float cnt subData with
    | none =>
      cases hstop : firstEnd float cnt subData with
      | none =>
        refine iff_of_true ?_ trivial
        rw [Option.getD_none, written_eq_missing_iff]
        exact Or.inl hpos
      | some stop => exact absurd htaken (firstEndOrPub_ne_none hsub hstop)
    | some taken =>
      rw [Option.getD_some]
      cases hstop : firstEnd float cnt subData with
      | none => exact written_eq_missing_iff start taken
      | some stop => exact written_eq_iff start taken stop

theorem outputLines_eq {value : ℤ → ℚ} {window : List ℤ}
    (h : ∀ cnt, latency float subData pubData cnt = some (value cnt)) :
    outputLines float subData pubData window = some (window.map fun cnt => (cnt, value cnt)) := by
  induction window with
  | nil => rfl
  | cons cnt window ih => rw [outputLines, h cnt, ih, Option.bind_some, Option.map_some, List.map_cons]

theorem main_eq (script : E2eScript) (py : Interpreter) {subLog pubLog : Text}
    (outputPath : Text) (hsub : Readable float (readData subLog))
    (hpub : Readable float (readData pubLog)) {window : List ℤ}
    (hwindow : script.window py subLog outputPath = some window) :
    script.main float py subLog pubLog outputPath =
      some (window.map fun cnt =>
        (cnt, written ((firstEndOrPub float cnt (readData subLog)).getD 0)
          ((firstPub float cnt (readData pubLog)).getD 0))) := by
  rw [E2eScript.main, hwindow, Option.bind_some]
  exact outputLines_eq (latency_eq hsub hpub)

/-- **Latencies of a window.** Of two readable logs each script writes one line for each message of
its window, and the value of a line is the latency of the message exactly when the message's records
match. -/
theorem main_latency_iff (script : E2eScript) (py : Interpreter) {subLog pubLog : Text}
    (outputPath : Text) (hsub : Readable float (readData subLog))
    (hpub : Readable float (readData pubLog)) {window : List ℤ}
    (hwindow : script.window py subLog outputPath = some window) :
    ∃ lines, script.main float py subLog pubLog outputPath = some lines ∧
      lines.map Prod.fst = window ∧
      ∀ line ∈ lines, line.2 = endToEnd float (readData subLog) (readData pubLog) line.1 ↔
        RecordsMatch float (readData subLog) (readData pubLog) line.1 := by
  refine ⟨_, main_eq script py outputPath hsub hpub hwindow, ?_, ?_⟩
  · rw [List.map_map]
    exact List.map_id window
  · intro line hline
    obtain ⟨cnt, -, rfl⟩ := List.mem_map.mp hline
    exact written_iff hsub hpub cnt

end Value

section Example

def decimalFraction (token : Text) : Option ℚ :=
  match token.splitOnP fun c => c = '.' with
  | [whole] => (digits cpython whole).map fun ds => (Nat.ofDigits 10 ds.reverse : ℚ)
  | [whole, fraction] =>
      (digits cpython whole).bind fun ds => (digits cpython fraction).map fun fs =>
        (Nat.ofDigits 10 (ds ++ fs).reverse : ℚ) / 10 ^ fs.length
  | _ => none

/-- Message 5 ended a quarter of a second after its publication; message 6 was published and has not
ended; message 4 is in neither log. -/
def subLogExample : Text := "node0_0_2 end Data#5 12.5\nnode0_0_2 end Data#7 12.75\n".toList

def pubLogExample : Text := "node0_0_0 pub Data#5 12.25\nnode0_0_0 pub Data#6 12.5\n".toList

theorem decimalFraction_of_split {token whole fraction : Text} {d f : List ℕ}
    (hsplit : token.splitOnP (fun c => c = '.') = [whole, fraction])
    (hwhole : digits cpython whole = some d) (hfraction : digits cpython fraction = some f) :
    decimalFraction token = some ((Nat.ofDigits 10 (d ++ f).reverse : ℚ) / 10 ^ f.length) := by
  rw [decimalFraction, hsplit]
  simp only [hwhole, hfraction, Option.bind_some, Option.map_some]

theorem decimalFraction_example :
    decimalFraction "12.5".toList = some (125 / 10) ∧
      decimalFraction "12.25".toList = some (1225 / 100) ∧
      decimalFraction "12.75".toList = some (1275 / 100) := by
  refine ⟨?_, ?_, ?_⟩
  · have hsplit : "12.5".toList.splitOnP (fun c => c = '.') = ["12".toList, "5".toList] := by decide
    rw [decimalFraction_of_split hsplit (d := [1, 2]) (f := [5]) (by decide) (by decide)]
    norm_num [Nat.ofDigits]
  · have hsplit : "12.25".toList.splitOnP (fun c => c = '.') = ["12".toList, "25".toList] := by
      decide
    rw [decimalFraction_of_split hsplit (d := [1, 2]) (f := [2, 5]) (by decide) (by decide)]
    norm_num [Nat.ofDigits]
  · have hsplit : "12.75".toList.splitOnP (fun c => c = '.') = ["12".toList, "75".toList] := by
      decide
    rw [decimalFraction_of_split hsplit (d := [1, 2]) (f := [7, 5]) (by decide) (by decide)]
    norm_num [Nat.ofDigits]

theorem readData_example :
    readData subLogExample = [["node0_0_2", "end", "Data#5", "12.5"].map String.toList,
        ["node0_0_2", "end", "Data#7", "12.75"].map String.toList] ∧
      readData pubLogExample = [["node0_0_0", "pub", "Data#5", "12.25"].map String.toList,
        ["node0_0_0", "pub", "Data#6", "12.5"].map String.toList] := by
  constructor <;> decide

theorem readable_example :
    Readable decimalFraction (readData subLogExample) ∧
      Readable decimalFraction (readData pubLogExample) := by
  obtain ⟨h5, h25, h75⟩ := decimalFraction_example
  obtain ⟨hsubData, hpubData⟩ := readData_example
  constructor
  · rw [hsubData]
    refine ⟨by simp, fun line hline _ => ?_⟩
    rcases List.mem_pair.mp hline with rfl | rfl
    · exact ⟨_, h5, by norm_num⟩
    · exact ⟨_, h75, by norm_num⟩
  · rw [hpubData]
    refine ⟨by simp, fun line hline _ => ?_⟩
    rcases List.mem_pair.mp hline with rfl | rfl
    · exact ⟨_, h25, by norm_num⟩
    · exact ⟨_, h5, by norm_num⟩

theorem window_example :
    E2eScript.fig11.window cpython subLogExample "set0_chain0.txt".toList =
      some (pyRange (-43) 7) := by
  decide

theorem main_latency_iff_example :
    ∃ lines, E2eScript.fig11.main decimalFraction cpython subLogExample pubLogExample
        "set0_chain0.txt".toList = some lines ∧
      lines.map Prod.fst = pyRange (-43) 7 ∧
      ∀ line ∈ lines, line.2 = endToEnd decimalFraction (readData subLogExample)
          (readData pubLogExample) line.1 ↔
        RecordsMatch decimalFraction (readData subLogExample) (readData pubLogExample) line.1 :=
  main_latency_iff .fig11 cpython _ readable_example.1 readable_example.2 window_example

/-- Message 4 is in neither log, and 0 is written for it. -/
theorem zero_for_missing_message :
    ∃ lines, E2eScript.fig11.main decimalFraction cpython subLogExample pubLogExample
        "set0_chain0.txt".toList = some lines ∧ (4, 0) ∈ lines ∧
      endToEnd decimalFraction (readData subLogExample) (readData pubLogExample) 4 = 100000 := by
  obtain ⟨hsub, hpub⟩ := readable_example
  obtain ⟨hsubData, hpubData⟩ := readData_example
  have hend : firstEnd decimalFraction 4 (readData subLogExample) = none := by
    rw [hsubData, firstEnd, firstRecord, List.find?_cons_of_neg (by decide),
      List.find?_cons_of_neg (by decide)]
    rfl
  have htaken : firstEndOrPub decimalFraction 4 (readData subLogExample) = none := by
    rw [hsubData, firstEndOrPub, firstRecord, List.find?_cons_of_neg (by decide),
      List.find?_cons_of_neg (by decide)]
    rfl
  have hstart : firstPub decimalFraction 4 (readData pubLogExample) = none := by
    rw [hpubData, firstPub, firstRecord, List.find?_cons_of_neg (by decide),
      List.find?_cons_of_neg (by decide)]
    rfl
  refine ⟨_, main_eq .fig11 cpython _ hsub hpub window_example, ?_, ?_⟩
  · rw [List.mem_map]
    refine ⟨4, by decide, ?_⟩
    rw [htaken, hstart]
    norm_num [written]
  · rw [endToEnd, hend, hstart]

end Example

end CrosRt.Scripts
