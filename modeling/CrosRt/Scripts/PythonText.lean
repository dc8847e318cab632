import Mathlib.Data.List.Infix
import Mathlib.Data.Nat.Digits.Lemmas

/-! # Python's strings

What the user scripts use of `str` and `int`, on decoded text. Two things that an interpreter brings
along are parameters: the decimal value of a character (Unicode's `Nd`) and the limit on the digits
that `int` reads (`sys.set_int_max_str_digits`, absent before 3.10.7).
-/

namespace CrosRt.Python
set_option autoImplicit false

abbrev Text := List Char

structure Interpreter where
  decimal : Char → Option ℕ
  maxStrDigits : Option ℕ

/-- `str.isspace` of one character. -/
def isSpace (c : Char) : Bool :=
  let n := c.toNat
  (9 ≤ n && n ≤ 13) || (28 ≤ n && n ≤ 32) || n == 0x85 || n == 0xA0 || n == 0x1680 ||
    (0x2000 ≤ n && n ≤ 0x200A) || n == 0x2028 || n == 0x2029 || n == 0x202F || n == 0x205F ||
    n == 0x3000

/-- The line boundaries of `str.splitlines`. -/
def isLineBreak (c : Char) : Bool :=
  let n := c.toNat
  (10 ≤ n && n ≤ 13) || (28 ≤ n && n ≤ 30) || n == 0x85 || n == 0x2028 || n == 0x2029

/-- A carriage return and a line feed are one boundary. -/
def joinCrLf : Text → Text
  | '\r' :: '\n' :: rest => '\n' :: joinCrLf rest
  | c :: rest => c :: joinCrLf rest
  | [] => []

/-- `str.splitlines`: no empty line stands after the last boundary. -/
def splitlines (text : Text) : List Text :=
  let lines := (joinCrLf text).splitOnP isLineBreak
  if lines.getLast? = some [] then lines.dropLast else lines

/-- What a text file opened for reading turns its line ends into. -/
def universalNewlines : Text → Text
  | '\r' :: '\n' :: rest => '\n' :: universalNewlines rest
  | '\r' :: rest => '\n' :: universalNewlines rest
  | c :: rest => c :: universalNewlines rest
  | [] => []

/-- The lines of a text, each with its line feed. -/
def lineFeedLines : Text → List Text
  | [] => []
  | c :: rest =>
      if c = '\n' then [c] :: lineFeedLines rest
      else
        match lineFeedLines rest with
        | [] => [[c]]
        | line :: lines => (c :: line) :: lines

/-- `file.readlines()`, which is also what iterating over a file gives. -/
def readlines (text : Text) : List Text := lineFeedLines (universalNewlines text)

/-- `str.split` without an argument: the runs of characters that are not spaces. -/
def split (line : Text) : List Text := (line.splitOnP isSpace).filter fun part => part ≠ []

/-- The digits of a number, single underscores allowed between two of them. -/
def digits (py : Interpreter) : Text → Option (List ℕ)
  | [] => none
  | [c] => (py.decimal c).map fun d => [d]
  | c :: '_' :: rest => (py.decimal c).bind fun d => (digits py rest).map fun ds => d :: ds
  | c :: rest => (py.decimal c).bind fun d => (digits py rest).map fun ds => d :: ds

def natural (py : Interpreter) (token : Text) : Option ℕ :=
  (digits py token).bind fun ds =>
    match py.maxStrDigits with
    | some limit => if limit < ds.length then none else some (Nat.ofDigits 10 ds.reverse)
    | none => some (Nat.ofDigits 10 ds.reverse)

/-- `int` of a token; `none` for a `ValueError`. -/
def int (py : Interpreter) : Text → Option ℤ
  | '-' :: token => (natural py token).map fun n => -Int.ofNat n
  | '+' :: token => (natural py token).map Int.ofNat
  | token => (natural py token).map Int.ofNat

/-- `str` of an integer. -/
def intText : ℤ → Text
  | .ofNat n => Nat.toDigits 10 n
  | .negSucc n => '-' :: Nat.toDigits 10 (n + 1)

/-- A loop that appends what its body finds, if anything, the outer `none` being an exception. -/
def collect {α β : Type*} (f : α → Option (Option β)) : List α → Option (List β)
  | [] => some []
  | x :: xs => (f x).bind fun found => (collect f xs).map fun more => found.toList ++ more

def asciiDecimal (c : Char) : Option ℕ :=
  if '0' ≤ c ∧ c ≤ '9' then some (c.toNat - '0'.toNat) else none

def cpython : Interpreter := ⟨asciiDecimal, none⟩

section Collect
variable {α β : Type*} {f : α → Option (Option β)}

theorem collect_eq_some {xs : List α} (h : ∀ x ∈ xs, (f x).isSome) :
    collect f xs = some (xs.filterMap fun x => (f x).join) := by
  induction xs with
  | nil => rfl
  | cons x xs ih =>
    obtain ⟨hx, hxs⟩ := List.forall_mem_cons.mp h
    obtain ⟨found, hfound⟩ := Option.isSome_iff_exists.mp hx
    rw [collect, ih hxs, hfound, Option.bind_some, Option.map_some, List.filterMap_cons, hfound]
    cases found with
    | none => rfl
    | some b => rfl

theorem isSome_of_collect {xs : List α} (h : (collect f xs).isSome) :
    ∀ x ∈ xs, (f x).isSome := by
  induction xs with
  | nil => exact fun x hx => absurd hx List.not_mem_nil
  | cons x xs ih =>
    rw [collect, Option.isSome_bind] at h
    cases hfound : f x with
    | none =>
      rw [hfound] at h
      exact absurd h Bool.false_ne_true
    | some found =>
      rw [hfound, Option.any_some, Option.isSome_map] at h
      exact List.forall_mem_cons.mpr ⟨by rw [hfound]; rfl, ih h⟩

end Collect

/-! ## Lines and words -/

section Text

theorem forall_mem_of_all {p : Char → Bool} {w : Text} (h : (w.all fun c => !p c) = true) :
    ∀ c ∈ w, p c = false := by
  simpa using h

theorem isSpace_of_isLineBreak {c : Char} (h : isLineBreak c = true) : isSpace c = true := by
  simp only [isLineBreak, isSpace, Bool.or_eq_true, Bool.and_eq_true, decide_eq_true_eq,
    beq_iff_eq] at h ⊢
  omega

theorem isLineBreak_of_word {w : Text} (h : ∀ c ∈ w, isSpace c = false) :
    ∀ c ∈ w, isLineBreak c = false := by
  intro c hc
  by_contra hbreak
  have hspace := isSpace_of_isLineBreak (Bool.eq_true_of_not_eq_false hbreak)
  rw [h c hc] at hspace
  exact Bool.false_ne_true hspace

theorem universalNewlines_of_not_mem {text : Text} (h : '\r' ∉ text) :
    universalNewlines text = text := by
  induction text with
  | nil => rfl
  | cons c text ih =>
    obtain ⟨hc, htext⟩ := not_or.mp (mt List.mem_cons.mpr h)
    rw [universalNewlines, ih htext]
    · exact fun _ heq _ => absurd heq.symm hc
    · exact fun heq => absurd heq.symm hc

theorem lineFeedLines_append {line : Text} (h : '\n' ∉ line) (rest : Text) :
    lineFeedLines (line ++ '\n' :: rest) = (line ++ ['\n']) :: lineFeedLines rest := by
  induction line with
  | nil => rfl
  | cons c line ih =>
    obtain ⟨hc, hline⟩ := not_or.mp (mt List.mem_cons.mpr h)
    rw [List.cons_append, lineFeedLines, if_neg (Ne.symm hc), ih hline]
    rfl

/-- A text that is written line by line is read line by line. -/
theorem readlines_flatMap {lines : List Text} (h : ∀ line ∈ lines, '\n' ∉ line ∧ '\r' ∉ line) :
    readlines (lines.flatMap fun line => line ++ ['\n']) =
      lines.map fun line => line ++ ['\n'] := by
  have hcr : '\r' ∉ lines.flatMap fun line => line ++ ['\n'] := by
    intro hmem
    obtain ⟨line, hline, hin⟩ := List.mem_flatMap.mp hmem
    rcases List.mem_append.mp hin with hin | hin
    · exact (h line hline).2 hin
    · exact absurd (List.mem_singleton.mp hin) (by decide)
  rw [readlines, universalNewlines_of_not_mem hcr]
  clear hcr
  induction lines with
  | nil => rfl
  | cons line lines ih =>
    obtain ⟨hline, hlines⟩ := List.forall_mem_cons.mp h
    rw [List.flatMap_cons, List.append_assoc, List.singleton_append,
      lineFeedLines_append hline.1, ih hlines, List.map_cons]

theorem joinCrLf_cons {c : Char} (h : c ≠ '\r') (rest : Text) :
    joinCrLf (c :: rest) = c :: joinCrLf rest := by
  rw [joinCrLf]
  intro rest' heq
  exact absurd heq h

theorem joinCrLf_append {line : Text} (h : ∀ c ∈ line, isLineBreak c = false) (rest : Text) :
    joinCrLf (line ++ rest) = line ++ joinCrLf rest := by
  induction line with
  | nil => rfl
  | cons c line ih =>
    obtain ⟨hc, hline⟩ := List.forall_mem_cons.mp h
    have hcr : c ≠ '\r' := by
      rintro rfl
      exact absurd hc (by decide)
    rw [List.cons_append, joinCrLf_cons hcr, ih hline, List.cons_append]

/-- The text up to a line feed is a line. -/
theorem splitlines_append {line : Text} (h : ∀ c ∈ line, isLineBreak c = false) (rest : Text) :
    splitlines (line ++ '\n' :: rest) = line :: splitlines rest := by
  have hjoin : joinCrLf (line ++ '\n' :: rest) = line ++ '\n' :: joinCrLf rest := by
    rw [joinCrLf_append h, joinCrLf_cons (by decide)]
  obtain ⟨first, lines, hlines⟩ :=
    List.exists_cons_of_ne_nil (List.splitOnP_ne_nil isLineBreak (joinCrLf rest))
  rw [splitlines, splitlines, hjoin,
    List.splitOnP_append_cons_of_forall_mem h '\n' (by decide), hlines]
  simp only [List.getLast?_cons_cons, List.dropLast_cons_cons]
  by_cases hlast : (first :: lines).getLast? = some []
  · rw [if_pos hlast, if_pos hlast]
  · rw [if_neg hlast, if_neg hlast]

example : splitlines "ab\r\n\ncd\n".toList = ["ab".toList, [], "cd".toList] := by decide

theorem split_of_word {w : Text} (hne : w ≠ []) (h : ∀ c ∈ w, isSpace c = false) :
    split w = [w] := by
  rw [split, List.splitOnP_eq_singleton h, List.filter_cons_of_pos (by simpa using hne),
    List.filter_nil]

theorem split_append {w : Text} (hne : w ≠ []) (h : ∀ c ∈ w, isSpace c = false) (rest : Text) :
    split (w ++ ' ' :: rest) = w :: split rest := by
  rw [split, List.splitOnP_append_cons_of_forall_mem h ' ' (by decide),
    List.filter_cons_of_pos (by simpa using hne), split]

example : split " [2]  port:\t7411 ".toList = ["[2]", "port:", "7411"].map String.toList := by
  decide

end Text

/-! ## Numbers -/

/-- An interpreter as it is built: the ASCII digits have their values, and a limit on the digits is
640 at least. -/
structure Interpreter.Standard (py : Interpreter) : Prop where
  decimal : ∀ d, d < 10 → py.decimal d.digitChar = some d
  maxStrDigits : ∀ limit ∈ py.maxStrDigits, 640 ≤ limit

def decimalText (n : ℕ) : Text := (Nat.digits 10 n).reverse.map Nat.digitChar

section Numbers
variable {py : Interpreter}

theorem digitChar_spec : ∀ d, d < 10 →
    isSpace d.digitChar = false ∧ d.digitChar ≠ '_' ∧ d.digitChar ≠ '-' ∧ d.digitChar ≠ '+' ∧
      d.digitChar ≠ 'p' := by
  decide

theorem exists_digit_of_mem {n : ℕ} {c : Char} (h : c ∈ decimalText n) :
    ∃ d, d < 10 ∧ c = d.digitChar := by
  obtain ⟨d, hd, rfl⟩ := List.mem_map.mp h
  exact ⟨d, Nat.digits_lt_base (by decide) (List.mem_reverse.mp hd), rfl⟩

theorem decimalText_ne_nil {n : ℕ} (h : 0 < n) : decimalText n ≠ [] := by
  rw [decimalText, ne_eq, List.map_eq_nil_iff, List.reverse_eq_nil_iff]
  exact Nat.digits_ne_nil_iff_ne_zero.mpr (by omega)

theorem isSpace_decimalText (n : ℕ) : ∀ c ∈ decimalText n, isSpace c = false := by
  intro c hc
  obtain ⟨d, hd, rfl⟩ := exists_digit_of_mem hc
  exact (digitChar_spec d hd).1

theorem digits_map (hpy : py.Standard) {ds : List ℕ} (hne : ds ≠ []) (h : ∀ d ∈ ds, d < 10) :
    digits py (ds.map Nat.digitChar) = some ds := by
  induction ds with
  | nil => exact absurd rfl hne
  | cons d ds ih =>
    obtain ⟨hd, hds⟩ := List.forall_mem_cons.mp h
    cases ds with
    | nil => simp only [List.map_cons, List.map_nil, digits, hpy.decimal d hd, Option.map_some]
    | cons e ds =>
      have hrest := ih (List.cons_ne_nil e ds) hds
      have he := (digitChar_spec e (hds e List.mem_cons_self)).2.1
      rw [List.map_cons, List.map_cons, digits]
      · rw [hpy.decimal d hd, Option.bind_some, ← List.map_cons, hrest, Option.map_some]
      · exact fun h => absurd h (List.cons_ne_nil _ _)
      · intro rest heq
        exact he (List.cons.inj heq).1

theorem int_decimalText (hpy : py.Standard) {n : ℕ} (hpos : 0 < n) (h : n < 2 ^ 63) :
    int py (decimalText n) = some (n : ℤ) := by
  have hne : (Nat.digits 10 n).reverse ≠ [] :=
    mt List.reverse_eq_nil_iff.mp (Nat.digits_ne_nil_iff_ne_zero.mpr (by omega))
  have hlt : ∀ d ∈ (Nat.digits 10 n).reverse, d < 10 :=
    fun d hd => Nat.digits_lt_base (by decide) (List.mem_reverse.mp hd)
  have hlen : (Nat.digits 10 n).length ≤ 63 := by
    rw [Nat.digits_length_le_iff (by decide)]
    exact h.trans (by decide)
  have hnatural : natural py (decimalText n) = some n := by
    rw [natural, decimalText, digits_map hpy hne hlt, Option.bind_some, List.length_reverse,
      List.reverse_reverse, Nat.ofDigits_digits]
    cases hmax : py.maxStrDigits with
    | none => rfl
    | some limit =>
      have := hpy.maxStrDigits limit hmax
      exact if_neg (by omega)
  obtain ⟨c, rest, hcons⟩ := List.exists_cons_of_ne_nil (decimalText_ne_nil hpos)
  obtain ⟨d, hd, hc⟩ := exists_digit_of_mem (hcons ▸ List.mem_cons_self : c ∈ decimalText n)
  have hminus : c ≠ '-' := hc ▸ (digitChar_spec d hd).2.2.1
  have hplus : c ≠ '+' := hc ▸ (digitChar_spec d hd).2.2.2.1
  rw [hcons, int, ← hcons, hnatural]
  · rfl
  · intro token heq
    exact absurd (List.cons.inj heq).1 hminus
  · intro token heq
    exact absurd (List.cons.inj heq).1 hplus

theorem intText_injective {a b : ℤ} (h : intText a = intText b) : a = b := by
  have hminus : ∀ n, '-' ∉ Nat.toDigits 10 n := by
    intro n hmem
    exact absurd (Nat.isDigit_of_mem_toDigits (by decide) (by decide) hmem) (by decide)
  have hdigits : ∀ m n, Nat.toDigits 10 m = Nat.toDigits 10 n → m = n := by
    intro m n heq
    rw [← Nat.ofDigitChars_ten_toDigits (n := m), heq, Nat.ofDigitChars_ten_toDigits]
  cases a with
  | ofNat m =>
    cases b with
    | ofNat n => rw [hdigits m n h]
    | negSucc n =>
      have hmem : '-' ∈ intText (.ofNat m) := by
        rw [h]
        exact List.mem_cons_self
      exact absurd hmem (hminus m)
  | negSucc m =>
    cases b with
    | ofNat n =>
      have hmem : '-' ∈ intText (.ofNat n) := by
        rw [← h]
        exact List.mem_cons_self
      exact absurd hmem (hminus n)
    | negSucc n => rw [Nat.succ.inj (hdigits _ _ (List.cons.inj h).2)]

/-- The ASCII characters have the decimal values Unicode gives them. -/
def Interpreter.Ascii (py : Interpreter) : Prop :=
  ∀ c : Char, c.toNat < 128 → py.decimal c = asciiDecimal c

theorem digits_of_decimal (hascii : py.Ascii) {w : Text} (hne : w ≠ [])
    (h : ∀ c ∈ w, (py.decimal c).isSome) :
    digits py w = some (w.map fun c => (py.decimal c).getD 0) := by
  induction w with
  | nil => exact absurd rfl hne
  | cons c w ih =>
    obtain ⟨hc, hw⟩ := List.forall_mem_cons.mp h
    obtain ⟨d, hd⟩ := Option.isSome_iff_exists.mp hc
    cases w with
    | nil => simp only [digits, hd, List.map_cons, List.map_nil, Option.map_some, Option.getD_some]
    | cons e w =>
      have hrest := ih (List.cons_ne_nil e w) hw
      have he : e ≠ '_' := by
        rintro rfl
        have hunderscore := (List.forall_mem_cons.mp hw).1
        rw [hascii '_' (by decide)] at hunderscore
        exact absurd hunderscore (by decide)
      rw [digits]
      · rw [hd, Option.bind_some, hrest, Option.map_some, List.map_cons (a := c), hd,
          Option.getD_some]
      · exact fun h => absurd h (List.cons_ne_nil _ _)
      · intro rest heq
        exact he (List.cons.inj heq).1

/-- A number of at most 640 digits can be read. -/
theorem int_of_decimal (hpy : py.Standard) (hascii : py.Ascii) {w : Text} (hne : w ≠ [])
    (h : ∀ c ∈ w, (py.decimal c).isSome) (hlength : w.length ≤ 640) :
    int py w = some ((Nat.ofDigits 10 (w.map fun c => (py.decimal c).getD 0).reverse : ℕ) : ℤ) := by
  have hnatural : natural py w =
      some (Nat.ofDigits 10 (w.map fun c => (py.decimal c).getD 0).reverse) := by
    rw [natural, digits_of_decimal hascii hne h, Option.bind_some]
    cases hmax : py.maxStrDigits with
    | none => rfl
    | some limit =>
      have hlimit := hpy.maxStrDigits limit hmax
      exact if_neg (by rw [List.length_map]; omega)
  obtain ⟨c, rest, rfl⟩ := List.exists_cons_of_ne_nil hne
  have hsign : ∀ sign, sign.toNat < 128 → asciiDecimal sign = none → c ≠ sign := by
    rintro _ hlt hnone rfl
    have hc := (List.forall_mem_cons.mp h).1
    rw [hascii c hlt, hnone] at hc
    exact Bool.false_ne_true hc
  rw [int, hnatural]
  · rfl
  · intro token heq
    exact absurd (List.cons.inj heq).1 (hsign '-' (by decide) (by decide))
  · intro token heq
    exact absurd (List.cons.inj heq).1 (hsign '+' (by decide) (by decide))

theorem decimal_of_isDigit (hascii : py.Ascii) {c : Char} (h : c.isDigit) :
    py.decimal c = some (c.toNat - '0'.toNat) := by
  rw [Char.isDigit, Bool.and_eq_true, decide_eq_true_eq, decide_eq_true_eq] at h
  rw [hascii c (lt_of_le_of_lt (UInt32.le_iff_toNat_le.mp h.2) (by decide))]
  exact if_pos h

theorem ofDigits_reverse (w : Text) :
    Nat.ofDigits 10 (w.map fun c => c.toNat - '0'.toNat).reverse = Nat.ofDigitChars 10 w 0 := by
  rw [Nat.ofDigits_eq_foldr, List.foldr_reverse, List.foldl_map, Nat.ofDigitChars_eq_foldl]
  congr 1
  funext n c
  rw [Nat.add_comm]
  rfl

/-- `int` reads what `str` has written. -/
theorem int_intText (hpy : py.Standard) (hascii : py.Ascii) {n : ℕ}
    (h : (intText n).length ≤ 640) : int py (intText n) = some (n : ℤ) := by
  have hdigit : ∀ c ∈ Nat.toDigits 10 n, py.decimal c = some (c.toNat - '0'.toNat) :=
    fun c hc => decimal_of_isDigit hascii (Nat.isDigit_of_mem_toDigits (by decide) (by decide) hc)
  have hvalues : (Nat.toDigits 10 n).map (fun c => (py.decimal c).getD 0) =
      (Nat.toDigits 10 n).map fun c => c.toNat - '0'.toNat := by
    refine List.map_congr_left fun c hc => ?_
    rw [hdigit c hc, Option.getD_some]
  show int py (Nat.toDigits 10 n) = _
  rw [int_of_decimal hpy hascii Nat.toDigits_ne_nil _ h, hvalues, ofDigits_reverse,
    Nat.ofDigitChars_ten_toDigits]
  exact fun c hc => Option.isSome_of_eq_some (hdigit c hc)

example : int cpython "-7_411".toList = some (-7411) ∧ int cpython "7__4".toList = none := by
  decide

example : cpython.Standard where
  decimal := by decide
  maxStrDigits limit h := nomatch h

end Numbers

end CrosRt.Python
