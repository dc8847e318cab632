import Mathlib.Tactic.Ring
import CrosRt.Driver.NonRtQueue

/-! # The polling server of the non-real-time path

`run_non_rt_handler` of `non_rt_pl.c`: `non_rt_pl_poll` is busy for its share of the period and the
thread sleeps for the rest. The two shares are computed in two files, each by an `int` product that
is divided by 100 afterwards, and the number of frames of a share by a second division. The module
parameters `period` and `util` are checked nowhere.
-/

namespace CrosRt
set_option autoImplicit false

/-- `sleep_time` of `run_non_rt_handler`. -/
def sleepTime (period util : ℤ) : ℤ := (int32 (period * (100 - util))).tdiv 100

/-! ## The cycle -/

/-- The two shares are computed without overflow, neither is negative, and together they are the
period up to the millisecond that the divisions may lose. -/
structure CycleExact (period util : ℤ) : Prop where
  busy_fits : FitsInt32 (util * period)
  sleep_fits : FitsInt32 (period * (100 - util))
  busy_nonneg : 0 ≤ processMs period util
  sleep_nonneg : 0 ≤ sleepTime period util
  total : processMs period util + sleepTime period util = period ∨
    processMs period util + sleepTime period util = period - 1

section Cycle
variable {period util : ℤ}

theorem processMs_of_fits (hnonneg : 0 ≤ util * period) (h : FitsInt32 (util * period)) :
    processMs period util = util * period / 100 := by
  rw [processMs, int32_of_fits h, Int.tdiv_eq_ediv_of_nonneg hnonneg]

theorem sleepTime_of_fits (hnonneg : 0 ≤ period * (100 - util))
    (h : FitsInt32 (period * (100 - util))) :
    sleepTime period util = period * (100 - util) / 100 := by
  rw [sleepTime, int32_of_fits h, Int.tdiv_eq_ediv_of_nonneg hnonneg]

/-- Two complementary shares, each rounded down, miss at most one. -/
theorem shares_add (a b : ℤ) (h : a + b = 100 * period) :
    a / 100 + b / 100 = period ∨ a / 100 + b / 100 = period - 1 := by
  omega

/-- A product with either share stays below `2 ^ 31` exactly when the one with the larger does. -/
theorem le_div_max_iff (hperiod : 0 ≤ period) (h₀ : 0 ≤ util) (h₁ : util ≤ 100) :
    period ≤ (2 ^ 31 - 1) / max util (100 - util) ↔
      util * period < 2 ^ 31 ∧ period * (100 - util) < 2 ^ 31 := by
  have hpos : 0 < max util (100 - util) := by omega
  rw [Int.le_ediv_iff_mul_le hpos]
  rcases le_total util (100 - util) with h | h
  · rw [max_eq_right h, mul_comm util period]
    have hle : period * util ≤ period * (100 - util) := mul_le_mul_of_nonneg_left h hperiod
    constructor
    · intro hp
      exact ⟨by omega, by omega⟩
    · intro hp
      have := hp.2
      omega
  · rw [max_eq_left h, mul_comm util period]
    have hle : period * (100 - util) ≤ period * util := mul_le_mul_of_nonneg_left h hperiod
    constructor
    · intro hp
      exact ⟨by omega, by omega⟩
    · intro hp
      have := hp.1
      omega

/-- **The cycle of the polling server** is exact precisely for the periods whose product with the
larger share is an `int`; all periods up to `21474836` are. -/
theorem cycleExact_iff (hperiod : 0 ≤ period) (h₀ : 0 ≤ util) (h₁ : util ≤ 100) :
    CycleExact period util ↔ period ≤ (2 ^ 31 - 1) / max util (100 - util) := by
  have hbusy : 0 ≤ util * period := mul_nonneg h₀ hperiod
  have hsleep : 0 ≤ period * (100 - util) := mul_nonneg hperiod (by omega)
  rw [le_div_max_iff hperiod h₀ h₁]
  constructor
  · intro h
    exact ⟨h.busy_fits.2, h.sleep_fits.2⟩
  · rintro ⟨hlt, hlt'⟩
    have hfits : FitsInt32 (util * period) := ⟨by omega, hlt⟩
    have hfits' : FitsInt32 (period * (100 - util)) := ⟨by omega, hlt'⟩
    have hadd : util * period + period * (100 - util) = 100 * period := by ring
    have hms := processMs_of_fits hbusy hfits
    have hst := sleepTime_of_fits hsleep hfits'
    exact
      { busy_fits := hfits
        sleep_fits := hfits'
        busy_nonneg := by omega
        sleep_nonneg := by omega
        total := by
          rw [hms, hst]
          exact shares_add _ _ hadd }

end Cycle

theorem cycleExact_iff_default : CycleExact 100 50 :=
  (cycleExact_iff (by decide) (by decide) (by decide)).mpr (by decide)

/-- A period of about six hours with all of it for the server. -/
theorem not_cycleExact_long_period :
    ¬ CycleExact 21474837 100 ∧ processMs 21474837 100 < 0 := by
  refine ⟨fun h => ?_, by decide⟩
  have hlt := h.busy_fits.2
  revert hlt
  decide

/-! ## The frames of a share -/

section Progress
variable {F : Type*}

/-- The frames a share of the period allows for: one every two milliseconds, and at least one. -/
def frameAllowance (period util : ℤ) : ℤ :=
  if util * period / 100 / 2 = 0 then 1 else util * period / 100 / 2

/-- One call takes the first frames out in order, not more than the share allows for, and takes out
at least one if there is one. -/
structure PlProgress (nonRt : List F) (period util : ℤ) : Prop where
  append : (nonRtPlPoll nonRt period util).delivered ++ (nonRtPlPoll nonRt period util).nonRt =
    nonRt
  length_le : ((nonRtPlPoll nonRt period util).delivered.length : ℤ) ≤ frameAllowance period util
  delivers : nonRt ≠ [] → (nonRtPlPoll nonRt period util).delivered ≠ []

theorem processBudget_of_fits {period util : ℤ} (hnonneg : 0 ≤ util * period)
    (h : util * period < 2 ^ 31) : processBudget period util = util * period / 100 / 2 := by
  rw [processBudget, processMs_of_fits hnonneg ⟨by omega, h⟩,
    Int.tdiv_eq_ediv_of_nonneg (by omega)]

/-- **Progress of the polling server.** With a share of a millisecond at least, one call makes
progress exactly when the queue is empty or the share is two milliseconds: below that the budget
is 0 and no call takes a frame out. -/
theorem plProgress_iff (nonRt : List F) {period util : ℤ} (hms : 100 ≤ util * period)
    (hfits : util * period < 2 ^ 31) :
    PlProgress nonRt period util ↔ nonRt = [] ∨ 200 ≤ util * period := by
  have hbudget := processBudget_of_fits (by omega) hfits
  have hdelivered := nonRtPlPoll_delivered nonRt period util
  constructor
  · intro h
    by_contra hnot
    obtain ⟨hne, hlt⟩ := not_or.mp hnot
    have hzero : (processBudget period util).toNat = 0 := by omega
    refine h.delivers hne ?_
    rw [hdelivered, hzero, List.take_zero]
  · intro h
    refine ⟨nonRtPlPoll_append nonRt period util, ?_, fun hne => ?_⟩
    · rw [hdelivered, List.length_take, frameAllowance]
      by_cases hzero : util * period / 100 / 2 = 0
      · rw [if_pos hzero]
        omega
      · rw [if_neg hzero]
        omega
    · have hpos : 0 < (processBudget period util).toNat := by
        have := h.resolve_left hne
        omega
      rw [hdelivered]
      exact fun hnil => hne ((List.take_eq_nil_iff.mp hnil).resolve_left (by omega))

end Progress

theorem plProgress_iff_default : PlProgress [1, 2, 3] 100 50 :=
  (plProgress_iff [1, 2, 3] (by decide) (by decide)).mpr
    (Or.inr (by decide))

/-- A millisecond of every 100: the waiting frame stays. -/
theorem not_plProgress_one_millisecond :
    ¬ PlProgress [1] 100 1 ∧ (nonRtPlPoll [1] 100 1).nonRt = [1] := by
  refine ⟨fun h => h.delivers (by decide) ?_, by decide⟩
  decide

end CrosRt
