import CrosRt.Foundations.RingWindow
import Mathlib.Data.BitVec
import Mathlib.Data.List.Count

/-! # The flow limit of a backlog

`skb_flow_limit`: of the frames that find the queue they go to at least half full, a CPU keeps the flows
of the last `FLOW_LIMIT_HISTORY` in a ring, a count of one byte for each flow, and refuses a frame whose
flow makes up more than half of the ring. A frame that finds the queue shorter is let through and leaves
no trace.

The ring starts with flow 0 in every place, which nobody counted; until these are gone the count of
flow 0 can only fall short. It holds 16 bits of a flow, and nothing keeps a table from having more than
`2 ^ 16` buckets; the results are about tables that have no more.
-/

namespace CrosRt
set_option autoImplicit false

open RingWindow

/-- `struct sd_flow_limit`. -/
structure FlowLimit where
  count : BitVec 64
  numBuckets : BitVec 32
  historyHead : Fin 128
  history : Fin 128 → BitVec 16
  buckets : BitVec 32 → BitVec 8

namespace FlowLimit

/-- A table as allocated. -/
def fresh (numBuckets : BitVec 32) : FlowLimit where
  count := 0
  numBuckets := numBuckets
  historyHead := 0
  history := fun _ => 0
  buckets := fun _ => 0

def newFlow (numBuckets hash : BitVec 32) : BitVec 32 := hash &&& (numBuckets - 1)

/-- The table after a frame, and whether the frame is over the limit. -/
def limit (fl : FlowLimit) (hash : BitVec 32) : Bool × FlowLimit :=
  let new := newFlow fl.numBuckets hash
  let old := (fl.history fl.historyHead).setWidth 32
  let buckets :=
    if fl.buckets old = 0 then fl.buckets
    else Function.update fl.buckets old (fl.buckets old - 1)
  let buckets := Function.update buckets new (buckets new + 1)
  let exceeds := decide (64 < (buckets new).toNat)
  (exceeds, { fl with
    count := if exceeds then fl.count + 1 else fl.count
    historyHead := fl.historyHead + 1
    history := Function.update fl.history fl.historyHead (new.setWidth 16)
    buckets := buckets })

end FlowLimit

/-- `skb_flow_limit` on the table of the running CPU. -/
def skbFlowLimit (maxBacklog : ℕ) (fl : Option FlowLimit) (hash : BitVec 32) (qlen : ℕ) :
    Bool × Option FlowLimit :=
  if qlen < maxBacklog / 2 then (false, fl)
  else
    match fl with
    | none => (false, none)
    | some fl => ((fl.limit hash).1, some (fl.limit hash).2)

namespace FlowLimit

/-! ## The window of the last flows -/

/-- A flow of a table of at most `2 ^ 16` buckets fits the history. -/
theorem newFlow_lt {nb : BitVec 32} (h : 0 < nb.toNat ∧ nb.toNat ≤ 2 ^ 16) (hash : BitVec 32) :
    (newFlow nb hash).toNat < 2 ^ 16 := by
  have hle : (newFlow nb hash).toNat ≤ (nb - 1).toNat := by
    rw [newFlow, BitVec.toNat_and]
    exact Nat.and_le_right
  have hpred : (nb - 1).toNat = nb.toNat - 1 := by
    have hlt := nb.isLt
    rw [BitVec.toNat_sub]
    show (2 ^ 32 - 1 + nb.toNat) % 2 ^ 32 = _
    omega
  omega

/-- The last 128 flows, or all where there are fewer. -/
def recent (flows : List (BitVec 32)) : List (BitVec 32) := flows.drop (flows.length - 128)

theorem length_recent (flows : List (BitVec 32)) :
    (recent flows).length = min flows.length 128 := by
  rw [recent, List.length_drop]
  omega

theorem recent_append_short {flows : List (BitVec 32)} (h : flows.length < 128) (f : BitVec 32) :
    recent (flows ++ [f]) = recent flows ++ [f] := by
  have h₀ : flows.length - 128 = 0 := by omega
  have h₁ : flows.length + 1 - 128 = 0 := by omega
  rw [recent, recent, List.length_append, List.length_singleton, h₀, h₁]
  rfl

theorem recent_append_full {flows : List (BitVec 32)} (h : 128 ≤ flows.length) (f : BitVec 32) :
    ∃ o r, recent flows = o :: r ∧ recent (flows ++ [f]) = r ++ [f] := by
  have hlt : flows.length - 128 < flows.length := by omega
  refine ⟨flows[flows.length - 128], flows.drop (flows.length - 128 + 1), ?_, ?_⟩
  · exact List.drop_eq_getElem_cons hlt
  · have hnext : flows.length + 1 - 128 = flows.length - 128 + 1 := by omega
    rw [recent, List.length_append, List.length_singleton, hnext,
      List.drop_append_of_le_length hlt]

/-- What the table knows after the flows. -/
structure Counts (fl : FlowLimit) (flows : List (BitVec 32)) : Prop where
  window : Window 0 fl.history fl.historyHead.val
    (List.replicate (128 - (recent flows).length) 0 ++ (recent flows).map (·.setWidth 16))
  small : ∀ f ∈ recent flows, f.toNat < 2 ^ 16
  le : ∀ f, (fl.buckets f).toNat ≤ (recent flows).count f
  eq : ∀ f ≠ 0, (fl.buckets f).toNat = (recent flows).count f

theorem counts_fresh (nb : BitVec 32) : (fresh nb).Counts [] where
  window := window_replicate fun _ => rfl
  small := nofun
  le := fun _ => le_rfl
  eq := fun _ _ => rfl

/-! ## One frame -/

section Buckets
variable {buckets : BitVec 32 → BitVec 8} {r : List (BitVec 32)}

/-- The bucket of the flow that leaves the ring. -/
def leave (buckets : BitVec 32 → BitVec 8) (old : BitVec 32) : BitVec 32 → BitVec 8 :=
  if buckets old = 0 then buckets else Function.update buckets old (buckets old - 1)

theorem leave_of_ne {old g : BitVec 32} (h : g ≠ old) : leave buckets old g = buckets g := by
  unfold leave
  split
  · rfl
  · exact Function.update_of_ne h _ _

theorem toNat_leave_self (old : BitVec 32) :
    (leave buckets old old).toNat = (buckets old).toNat - 1 := by
  unfold leave
  split
  · rename_i h
    rw [h]
    rfl
  · rename_i h
    rw [Function.update_self]
    have hpos : (buckets old).toNat ≠ 0 := fun h0 => h (BitVec.eq_of_toNat_eq h0)
    have hlt := (buckets old).isLt
    rw [BitVec.toNat_sub]
    show (2 ^ 8 - 1 + (buckets old).toNat) % 2 ^ 8 = _
    omega

/-- The bucket of the new flow, in a ring that has room for it. -/
theorem count_enter (hr : r.length < 128) (hle : ∀ g, (buckets g).toNat ≤ r.count g)
    (heq : ∀ g ≠ 0, (buckets g).toNat = r.count g) (f : BitVec 32) :
    (∀ g, (Function.update buckets f (buckets f + 1) g).toNat ≤ (r ++ [f]).count g) ∧
      ∀ g ≠ 0, (Function.update buckets f (buckets f + 1) g).toNat = (r ++ [f]).count g := by
  have hf : (buckets f + 1).toNat = (buckets f).toNat + 1 := by
    have := hle f
    have hcount : r.count f ≤ r.length := List.count_le_length
    rw [BitVec.toNat_add]
    show ((buckets f).toNat + 1) % 2 ^ 8 = _
    omega
  have key : ∀ g, (Function.update buckets f (buckets f + 1) g).toNat =
      (buckets g).toNat + if f = g then 1 else 0 := by
    intro g
    by_cases hg : g = f
    · subst hg
      rw [Function.update_self, hf, if_pos rfl]
    · rw [Function.update_of_ne hg, if_neg (Ne.symm hg), Nat.add_zero]
  have hcount : ∀ g, (r ++ [f]).count g = r.count g + if f = g then 1 else 0 := by
    intro g
    rw [List.count_append, List.count_singleton]
    simp only [beq_iff_eq]
  refine ⟨fun g => ?_, fun g hg => ?_⟩
  · rw [key, hcount]
    exact Nat.add_le_add_right (hle g) _
  · rw [key, hcount, heq g hg]

end Buckets

theorem window_limit {fl : FlowLimit} {a : BitVec 16} {q : List (BitVec 16)}
    (h : Window 0 fl.history fl.historyHead.val (a :: q)) (hq : q.length = 127) (hash : BitVec 32) :
    Window 0 (fl.limit hash).2.history (fl.limit hash).2.historyHead.val
      (q ++ [(newFlow fl.numBuckets hash).setWidth 16]) := by
  have hrot := h.rotate (by rw [hq]) ((newFlow fl.numBuckets hash).setWidth 16)
  rw [cell_val] at hrot
  refine hrot.congr_start ?_
  show (fl.historyHead.val + 1) % 128 = (fl.historyHead + 1).val % 128
  rw [Fin.val_add]
  exact (Nat.mod_mod _ _).symm

/-- The flow `o` of the oldest place leaves the ring, which holds `k` places that no frame has taken and
the flows `r` besides it. -/
theorem counts_rotate {fl : FlowLimit} {a : BitVec 16} {o : BitVec 32} {flows r : List (BitVec 32)}
    {k : ℕ} (hash : BitVec 32)
    (hwin : Window 0 fl.history fl.historyHead.val (a :: (List.replicate k 0 ++ r.map (·.setWidth 16))))
    (hk : k + r.length = 127) (ha : a.setWidth 32 = o)
    (hrecent : recent (flows ++ [newFlow fl.numBuckets hash]) = r ++ [newFlow fl.numBuckets hash])
    (hsmall : ∀ g ∈ r ++ [newFlow fl.numBuckets hash], g.toNat < 2 ^ 16)
    (hle : ∀ g, (leave fl.buckets o g).toNat ≤ r.count g)
    (heq : ∀ g ≠ 0, (leave fl.buckets o g).toNat = r.count g) :
    (fl.limit hash).2.Counts (flows ++ [newFlow fl.numBuckets hash]) := by
  have hold : (fl.history fl.historyHead).setWidth 32 = o := by
    have hfront := hwin.front
    rw [cell_val] at hfront
    rw [hfront, ha]
  have hbuckets : (fl.limit hash).2.buckets = Function.update (leave fl.buckets o)
      (newFlow fl.numBuckets hash) (leave fl.buckets o (newFlow fl.numBuckets hash) + 1) := by
    unfold limit
    dsimp only
    rw [hold]
    rfl
  have henter := count_enter (by omega) hle heq (newFlow fl.numBuckets hash)
  have hlen : 128 - (r.length + 1) = k := by omega
  have hnext := window_limit hwin (by simpa using hk) hash
  refine ⟨?_, ?_, ?_, ?_⟩
  · rw [hrecent, List.length_append, List.length_singleton, hlen, List.map_append, ← List.append_assoc]
    exact hnext
  · rw [hrecent]
    exact hsmall
  · rw [hrecent, hbuckets]
    exact henter.1
  · rw [hrecent, hbuckets]
    exact henter.2

theorem counts_limit {fl : FlowLimit} {flows : List (BitVec 32)} (h : fl.Counts flows)
    (hfits : 0 < fl.numBuckets.toNat ∧ fl.numBuckets.toNat ≤ 2 ^ 16) (hash : BitVec 32) :
    (fl.limit hash).2.Counts (flows ++ [newFlow fl.numBuckets hash]) := by
  have hnew := newFlow_lt hfits hash
  have hwin := h.window
  have hsmall : ∀ r : List (BitVec 32), (∀ g ∈ r, g.toNat < 2 ^ 16) →
      ∀ g ∈ r ++ [newFlow fl.numBuckets hash], g.toNat < 2 ^ 16 := by
    intro r hr g hg
    rcases List.mem_append.mp hg with hg | hg
    · exact hr g hg
    · rwa [List.mem_singleton.mp hg]
  rcases Nat.lt_or_ge flows.length 128 with hlt | hge
  · -- The ring still holds a place that no frame has taken, and it holds flow 0.
    have hr : (recent flows).length = flows.length := by
      rw [length_recent]
      omega
    obtain ⟨k, hk⟩ : ∃ k, 128 - (recent flows).length = k + 1 :=
      ⟨128 - (recent flows).length - 1, by omega⟩
    rw [hk, List.replicate_succ, List.cons_append] at hwin
    refine counts_rotate hash hwin (by omega) rfl (recent_append_short hlt _) (hsmall _ h.small)
      (fun g => ?_) (fun g hg => ?_)
    · by_cases hg : g = 0
      · subst hg
        exact (toNat_leave_self 0).trans_le ((Nat.sub_le _ _).trans (h.le 0))
      · exact (congrArg BitVec.toNat (leave_of_ne hg)).trans_le (h.le g)
    · exact (congrArg BitVec.toNat (leave_of_ne hg)).trans (h.eq g hg)
  · obtain ⟨o, r, ho, hrecent⟩ := recent_append_full hge (newFlow fl.numBuckets hash)
    have hr : r.length = 127 := by
      have hlen := length_recent flows
      rw [ho, List.length_cons] at hlen
      omega
    have hnone : 128 - (r.length + 1) = 0 := by omega
    rw [ho, List.length_cons, hnone, List.replicate_zero, List.nil_append, List.map_cons] at hwin
    have hout : (o.setWidth 16).setWidth 32 = o := by
      have hsm := h.small o (by rw [ho]; exact List.mem_cons_self)
      apply BitVec.eq_of_toNat_eq
      simp only [BitVec.toNat_setWidth]
      omega
    have hcount : ∀ g, (recent flows).count g = r.count g + if o = g then 1 else 0 := by
      intro g
      rw [ho, List.count_cons]
      simp only [beq_iff_eq]
    have hrsmall : ∀ g ∈ r, g.toNat < 2 ^ 16 :=
      fun g hg => h.small g (by rw [ho]; exact List.mem_cons_of_mem _ hg)
    refine counts_rotate hash (k := 0) hwin (by omega) hout hrecent (hsmall r hrsmall)
      (fun g => ?_) (fun g hne => ?_)
    · have hg := h.le g
      rw [hcount] at hg
      by_cases hgo : g = o
      · subst hgo
        rw [toNat_leave_self]
        rw [if_pos rfl] at hg
        omega
      · rw [if_neg (Ne.symm hgo), Nat.add_zero] at hg
        rwa [leave_of_ne hgo]
    · have hg := h.eq g hne
      rw [hcount] at hg
      by_cases hgo : g = o
      · subst hgo
        rw [toNat_leave_self]
        rw [if_pos rfl] at hg
        omega
      · rw [if_neg (Ne.symm hgo), Nat.add_zero] at hg
        rwa [leave_of_ne hgo]

theorem limit_eq (fl : FlowLimit) (hash : BitVec 32) :
    (fl.limit hash).1 =
      decide (64 < ((fl.limit hash).2.buckets (newFlow fl.numBuckets hash)).toNat) := rfl

/-! ## Any number of frames -/

/-- A frame given to `skb_flow_limit`, with the length of the queue and the value of
`netdev_max_backlog` at that time. -/
structure Frame where
  hash : BitVec 32
  qlen : ℕ
  maxBacklog : ℕ
  deriving DecidableEq, Repr

/-- The queue is at least half full. -/
def Frame.recorded (x : Frame) : Bool := !decide (x.qlen < x.maxBacklog / 2)

/-- The table of a CPU after some frames. -/
def afterFrames (fl : Option FlowLimit) (frames : List Frame) : Option FlowLimit :=
  frames.foldl (fun fl x => (skbFlowLimit x.maxBacklog fl x.hash x.qlen).2) fl

/-- The flows of the frames that found the queue at least half full. -/
def seen (nb : BitVec 32) (frames : List Frame) : List (BitVec 32) :=
  (frames.filter Frame.recorded).map fun x => newFlow nb x.hash

theorem skbFlowLimit_recorded {x : Frame} (hx : x.recorded = true) (fl : FlowLimit) :
    skbFlowLimit x.maxBacklog (some fl) x.hash x.qlen =
      ((fl.limit x.hash).1, some (fl.limit x.hash).2) := by
  unfold skbFlowLimit
  exact if_neg (by simpa [Frame.recorded] using hx)

theorem skbFlowLimit_short {x : Frame} (hx : x.recorded = false) (fl : Option FlowLimit) :
    skbFlowLimit x.maxBacklog fl x.hash x.qlen = (false, fl) := by
  unfold skbFlowLimit
  exact if_pos (by simpa [Frame.recorded] using hx)

theorem seen_append (nb : BitVec 32) (frames : List Frame) (x : Frame) :
    seen nb (frames ++ [x]) =
      if x.recorded then seen nb frames ++ [newFlow nb x.hash] else seen nb frames := by
  unfold seen
  rw [List.filter_append, List.map_append]
  cases hx : x.recorded <;> simp [hx]

theorem counts_afterFrames {nb : BitVec 32} (h : 0 < nb.toNat ∧ nb.toNat ≤ 2 ^ 16)
    (frames : List Frame) :
    ∃ fl, afterFrames (some (fresh nb)) frames = some fl ∧ fl.numBuckets = nb ∧
      fl.Counts (seen nb frames) := by
  induction frames using List.reverseRecOn with
  | nil => exact ⟨fresh nb, rfl, rfl, counts_fresh nb⟩
  | append_singleton frames x ih =>
    obtain ⟨fl, hfl, rfl, hcounts⟩ := ih
    have hlast : afterFrames (some (fresh fl.numBuckets)) (frames ++ [x]) =
        (skbFlowLimit x.maxBacklog (some fl) x.hash x.qlen).2 := by
      rw [← hfl, afterFrames, List.foldl_append]
      rfl
    rw [hlast, seen_append]
    cases hx : x.recorded with
    | true =>
      rw [skbFlowLimit_recorded hx]
      exact ⟨_, rfl, rfl, counts_limit hcounts h x.hash⟩
    | false =>
      rw [skbFlowLimit_short hx]
      exact ⟨fl, rfl, rfl, hcounts⟩

/-- **More than half of the ring.** Whatever frames a CPU has seen, with whatever queue lengths, the
next one is refused only if its queue is at least half full and its flow makes up more than half of the
last 128 frames that found theirs so, itself included; and for every flow but flow 0 it is refused
exactly then. The table has at most `2 ^ 16` buckets; no count wraps. -/
theorem flow_over_limit_iff {nb : BitVec 32} (h : 0 < nb.toNat ∧ nb.toNat ≤ 2 ^ 16)
    (frames : List Frame) (x : Frame) :
    ((skbFlowLimit x.maxBacklog (afterFrames (some (fresh nb)) frames) x.hash x.qlen).1 = true →
        x.maxBacklog / 2 ≤ x.qlen ∧
          64 < (recent (seen nb (frames ++ [x]))).count (newFlow nb x.hash)) ∧
      (newFlow nb x.hash ≠ 0 →
        ((skbFlowLimit x.maxBacklog (afterFrames (some (fresh nb)) frames) x.hash x.qlen).1 = true ↔
          x.maxBacklog / 2 ≤ x.qlen ∧
            64 < (recent (seen nb (frames ++ [x]))).count (newFlow nb x.hash))) := by
  obtain ⟨fl, hfl, rfl, hcounts⟩ := counts_afterFrames h frames
  have hnext := counts_limit hcounts h x.hash
  rw [hfl, seen_append]
  cases hx : x.recorded with
  | true =>
    have hlong : x.maxBacklog / 2 ≤ x.qlen := by simpa [Frame.recorded] using hx
    rw [skbFlowLimit_recorded hx, if_pos rfl, limit_eq, decide_eq_true_iff]
    refine ⟨fun hlt => ⟨hlong, hlt.trans_le (hnext.le _)⟩, fun hne => ?_⟩
    rw [hnext.eq _ hne]
    exact (and_iff_right hlong).symm
  | false =>
    have hshort : ¬ x.maxBacklog / 2 ≤ x.qlen := by simpa [Frame.recorded] using hx
    rw [skbFlowLimit_short hx]
    exact ⟨nofun, fun _ => iff_of_false Bool.false_ne_true fun hboth => hshort hboth.1⟩

/-- A single flow fills the first half of the ring and one place more; a frame that finds its queue short
does not count. -/
theorem flow_over_limit_iff_single_flow :
    (skbFlowLimit 1000 (afterFrames (some (fresh 4096))
      (List.replicate 64 ⟨5, 600, 1000⟩ ++ [⟨5, 3, 1000⟩])) 5 600).1 = true :=
  ((flow_over_limit_iff (by decide) (List.replicate 64 ⟨5, 600, 1000⟩ ++ [⟨5, 3, 1000⟩])
    ⟨5, 600, 1000⟩).2 (by decide)).mpr (by decide)

end FlowLimit

end CrosRt
