import Mathlib.Algebra.Order.Ring.Int
import Mathlib.Logic.Function.Basic

/-! # Generic receive offload

`napi_gro_receive` of `net/core/dev.c`, as changed in this tree: `gro_normal_one` no longer waits for
a batch. The protocols' `gro_receive` and `gro_complete` callbacks are part of an event: what they
may do to a buffer or to the list they are given is any value of `GroReceive`.

The receive side of the NAPI instance (`NapiRx`) also records where the buffers went: handed to
`netif_receive_skb_list_internal`, freed, or taken by a callback.
-/

namespace CrosRt.Gro
set_option autoImplicit false

structure Skb (F : Type*) where
  frame : F
  merged : List F

/-- A buffer kept for merging, with `count` and `age` of its `NAPI_GRO_CB`. -/
structure HeldSkb (F : Type*) extends Skb F where
  count : ℕ
  age : ℕ

/-- `struct gro_list`, the youngest buffer first. -/
structure GroList (F : Type*) where
  list : List (HeldSkb F)
  count : ℤ

/-- What became of a buffer whose callback answered `-EINPROGRESS`. -/
inductive Fate where
  | passedUp
  | freed
  | kept
  deriving DecidableEq

structure NapiRx (F : Type*) where
  rxList : List (Skb F)
  rxCount : ℤ
  passedUp : List (Skb F)
  freed : List (Skb F)
  consumed : List (F × Fate)

structure Napi (F : Type*) where
  groHash : Fin 8 → GroList F
  groBitmask : Fin 8 → Bool
  rx : NapiRx F

/-- The pointer a `gro_receive` callback returns: an error, null, or a buffer of the list. -/
inductive Pp where
  | inProgress (fate : Fate)
  | null
  | held (i : ℕ)
  deriving DecidableEq

/-- One call of a `gro_receive` callback. It leaves the counts `counts` on the buffers of the list;
with `sameFlow` it has merged the frame into one of them. The last two fields are the answers of
`gro_complete`, should one of the two buffers be completed in this call: the count it leaves, or
`none` for an error. -/
structure GroReceive where
  counts : List ℕ
  pp : Pp
  sameFlow : Option ℕ
  free : Bool
  flush : Bool
  ppComplete : Option ℕ
  oldestComplete : Option ℕ
  deriving DecidableEq

/-- A frame given to `napi_gro_receive`; no callback is called where the device does without offload
or no protocol has one for the frame. -/
structure GroFrame (F : Type*) where
  skb : F
  hash : ℕ
  jiffies : ℕ
  groReceive : Option GroReceive

inductive GroResult where
  | merged
  | mergedFree
  | held
  | normal
  | consumed
  deriving DecidableEq

/-- What `dev_gro_receive` works on: the list of the frame's bucket and the receive side. -/
structure GroWork (F : Type*) where
  groList : GroList F
  rx : NapiRx F

/-- The instance after `init_gro_hash`, `rx_list` empty. -/
def initNapi (F : Type*) : Napi F := ⟨fun _ => ⟨[], 0⟩, fun _ => false, ⟨[], 0, [], [], []⟩⟩

section Model
variable {F : Type*}

def GroFrame.bucket (e : GroFrame F) : Fin 8 := Fin.ofNat 8 e.hash

def groNormalList (napi : NapiRx F) : NapiRx F :=
  if napi.rxCount = 0 then napi
  else { napi with rxList := [], rxCount := 0, passedUp := napi.passedUp ++ napi.rxList }

def groNormalOne (napi : NapiRx F) (skb : Skb F) (segs : ℕ) : NapiRx F :=
  groNormalList { napi with rxList := napi.rxList ++ [skb], rxCount := napi.rxCount + segs }

def napiGroComplete (napi : NapiRx F) (skb : HeldSkb F) (groComplete : Option ℕ) : NapiRx F :=
  if skb.count = 1 then groNormalOne napi skb.toSkb skb.count
  else
    match groComplete with
    | none => { napi with freed := napi.freed ++ [skb.toSkb] }
    | some count => groNormalOne napi skb.toSkb count

def recount (list : List (HeldSkb F)) (counts : List ℕ) : List (HeldSkb F) :=
  List.zipWith (fun p count => { p with count := count }) list counts

def mergeInto (skb : F) (p : HeldSkb F) : HeldSkb F := { p with merged := p.merged ++ [skb] }

/-- The buffer the frame is merged into: `same_flow` is not looked at after an error. -/
def GroReceive.mergesInto (cb : GroReceive) : Option ℕ :=
  match cb.pp with
  | .inProgress _ => none
  | .null | .held _ => cb.sameFlow

/-- The list after the callback; `none` for what no callback does: it leaves as many buffers as it
is given and merges into one of them. -/
def GroReceive.call (cb : GroReceive) (skb : F) (list : List (HeldSkb F)) :
    Option (List (HeldSkb F)) :=
  if cb.counts.length = list.length then
    match cb.mergesInto with
    | none => some (recount list cb.counts)
    | some i =>
        if i < list.length then some ((recount list cb.counts).modify i (mergeInto skb)) else none
  else none

/-- `if (pp)` of `dev_gro_receive`: the buffer is taken off the list and completed. -/
def completePp (w : GroWork F) (i : ℕ) (groComplete : Option ℕ) : Option (GroWork F) :=
  w.groList.list[i]?.map fun pp =>
    ⟨⟨w.groList.list.eraseIdx i, w.groList.count - 1⟩, napiGroComplete w.rx pp groComplete⟩

/-- The count is not lowered: the caller adds a buffer. -/
def groFlushOldest (w : GroWork F) (groComplete : Option ℕ) : GroWork F :=
  match w.groList.list.getLast? with
  | none => w
  | some oldest =>
      ⟨⟨w.groList.list.dropLast, w.groList.count⟩, napiGroComplete w.rx oldest groComplete⟩

/-- The frame becomes the youngest of the list, the oldest of eight making room. -/
def holdSkb (w : GroWork F) (skb : F) (age : ℕ) (groComplete : Option ℕ) : GroWork F :=
  let w :=
    if 8 ≤ w.groList.count then groFlushOldest w groComplete
    else ⟨⟨w.groList.list, w.groList.count + 1⟩, w.rx⟩
  ⟨⟨⟨⟨skb, []⟩, 1, age⟩ :: w.groList.list, w.groList.count⟩, w.rx⟩

def mergeOrHold (w : GroWork F) (skb : F) (age : ℕ) (cb : GroReceive) : GroWork F × GroResult :=
  if cb.sameFlow.isSome then (w, if cb.free then .mergedFree else .merged)
  else if cb.flush then (w, .normal)
  else (holdSkb w skb age cb.oldestComplete, .held)

/-- `dev_gro_receive` on the list of the bucket, from the callback on. -/
def groListReceive (w : GroWork F) (skb : F) (age : ℕ) (cb : GroReceive) :
    Option (GroWork F × GroResult) :=
  (cb.call skb w.groList.list).bind fun list =>
    let w : GroWork F := ⟨⟨list, w.groList.count⟩, w.rx⟩
    match cb.pp with
    | .inProgress fate =>
        some (⟨w.groList, { w.rx with consumed := w.rx.consumed ++ [(skb, fate)] }⟩, .consumed)
    | .null => some (mergeOrHold w skb age cb)
    | .held i => (completePp w i cb.ppComplete).map fun w => mergeOrHold w skb age cb

/-- The list of the frame's bucket is replaced, and its bit set or cleared by its count. -/
def Napi.setBucket (napi : Napi F) (bucket : Fin 8) (w : GroWork F) : Napi F :=
  ⟨Function.update napi.groHash bucket w.groList,
    Function.update napi.groBitmask bucket (decide (w.groList.count ≠ 0)), w.rx⟩

def devGroReceive (napi : Napi F) (e : GroFrame F) : Option (Napi F × GroResult) :=
  let w : GroWork F := ⟨napi.groHash e.bucket, napi.rx⟩
  let received :=
    match e.groReceive with
    | none => some (w, GroResult.normal)
    | some cb => groListReceive w e.skb e.jiffies cb
  received.map fun r => (napi.setBucket e.bucket r.1, r.2)

/-- A merged frame's data stays with the buffer it was merged into, also when its own buffer is
freed. -/
def napiSkbFinish (napi : NapiRx F) (skb : F) (ret : GroResult) : NapiRx F :=
  match ret with
  | .normal => groNormalOne napi ⟨skb, []⟩ 1
  | .mergedFree | .held | .merged | .consumed => napi

def napiGroReceive (napi : Napi F) (e : GroFrame F) : Option (Napi F × GroResult) :=
  (devGroReceive napi e).map fun r =>
    (⟨r.1.groHash, r.1.groBitmask, napiSkbFinish r.1.rx e.skb r.2⟩, r.2)

end Model

end CrosRt.Gro
