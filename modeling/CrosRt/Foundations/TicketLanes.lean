import Mathlib.Data.List.Infix
import Mathlib.Logic.Function.Basic
import Mathlib.Logic.Relation

/-! # Changing lanes by ticket

Several queues, the lanes, are served independently. Some of the items belong to a flow, and a flow
joins one lane at a time. Each lane counts the items it has issued a place to and those it has served;
a flow keeps the count of its lane at its last item, its ticket, and changes lanes only when the lane
has served that many. `InOrder.step` and `InOrder.run` say that the items of a flow leave the lanes in
the order in which they joined them, whatever lanes these were. Lanes, flows and items are any types.
-/

namespace CrosRt.TicketLanes
set_option autoImplicit false

variable {L F A : Type*}

structure Lanes (L F A : Type*) where
  queue : L → List A
  served : L → ℕ
  issued : L → ℕ
  lane : F → Option L
  ticket : F → ℕ
  accepted : List A
  delivered : List A

inductive Step [DecidableEq L] [DecidableEq F] (flow : A → Option F) : Lanes L F A → Lanes L F A → Prop
  | join {s} (l : L) (a : A) (h : ∀ f, flow a = some f → s.lane f = some l) :
      Step flow s { s with
        queue := Function.update s.queue l (s.queue l ++ [a])
        issued := Function.update s.issued l (s.issued l + 1)
        ticket := fun f => if flow a = some f then s.issued l + 1 else s.ticket f
        accepted := s.accepted ++ [a] }
  | deliver {s} (l : L) (a : A) (q : List A) (h : s.queue l = a :: q) :
      Step flow s { s with
        queue := Function.update s.queue l q
        delivered := s.delivered ++ [a] }
  | serve {s} (l : L) (h : s.served l + (s.queue l).length < s.issued l) :
      Step flow s { s with served := Function.update s.served l (s.served l + 1) }
  | switch {s} (f : F) (l : Option L) (ticket : ℕ)
      (h : ∀ l, s.lane f = some l → s.ticket f ≤ s.served l) :
      Step flow s { s with
        lane := Function.update s.lane f l
        ticket := Function.update s.ticket f ticket }

variable {flow : A → Option F} {s t : Lanes L F A}

section Flows
variable [DecidableEq F]

def ofFlow (flow : A → Option F) (f : F) (as : List A) : List A :=
  as.filter fun a => flow a = some f

/-- The items of a flow that wait in its lane. -/
def waiting (flow : A → Option F) (s : Lanes L F A) (f : F) : List A :=
  match s.lane f with
  | none => []
  | some l => ofFlow flow f (s.queue l)

structure InOrder (flow : A → Option F) (s : Lanes L F A) : Prop where
  counted : ∀ l, s.served l + (s.queue l).length ≤ s.issued l
  lane : ∀ l, ∀ a ∈ s.queue l, ∀ f, flow a = some f → s.lane f = some l
  -- Behind an item of the flow there are at least the items issued a place after its ticket.
  ticket : ∀ l pre a post f, s.queue l = pre ++ a :: post → flow a = some f →
    s.issued l ≤ s.ticket f + post.length
  order : ∀ f, ofFlow flow f s.accepted = ofFlow flow f s.delivered ++ waiting flow s f

theorem ofFlow_append (f : F) (as bs : List A) :
    ofFlow flow f (as ++ bs) = ofFlow flow f as ++ ofFlow flow f bs :=
  List.filter_append ..

theorem ofFlow_eq_nil {f : F} {as : List A} (h : ∀ a ∈ as, flow a ≠ some f) :
    ofFlow flow f as = [] :=
  List.filter_eq_nil_iff.mpr fun a ha => by simpa using h a ha

theorem ofFlow_singleton_of_ne {f : F} {a : A} (h : flow a ≠ some f) : ofFlow flow f [a] = [] :=
  ofFlow_eq_nil fun _ hb => by rw [List.mem_singleton.mp hb]; exact h

/-- A flow whose ticket is served has no item in any lane. -/
theorem InOrder.not_mem (h : InOrder flow s) {f : F}
    (hserved : ∀ l, s.lane f = some l → s.ticket f ≤ s.served l) (l : L) :
    ∀ a ∈ s.queue l, flow a ≠ some f := by
  intro a ha hf
  obtain ⟨pre, post, hq⟩ := List.append_of_mem ha
  have hlane := h.lane l a ha f hf
  have hticket := h.ticket l pre a post f hq hf
  have hcount := h.counted l
  have hle := hserved l hlane
  rw [hq, List.length_append, List.length_cons] at hcount
  omega

end Flows

/-! ## The steps -/

section Steps
variable [DecidableEq L] [DecidableEq F]

theorem InOrder.join (h : InOrder flow s) {l : L} {a : A}
    (ha : ∀ f, flow a = some f → s.lane f = some l) :
    InOrder flow { s with
      queue := Function.update s.queue l (s.queue l ++ [a])
      issued := Function.update s.issued l (s.issued l + 1)
      ticket := fun f => if flow a = some f then s.issued l + 1 else s.ticket f
      accepted := s.accepted ++ [a] } where
  counted k := by
    by_cases hk : k = l
    · subst hk
      have := h.counted k
      simp only [Function.update_self, List.length_append, List.length_singleton]
      omega
    · simp only [Function.update_of_ne hk]
      exact h.counted k
  lane k b hb f hf := by
    by_cases hk : k = l
    · subst hk
      simp only [Function.update_self, List.mem_append, List.mem_singleton] at hb
      rcases hb with hb | rfl
      · exact h.lane k b hb f hf
      · exact ha f hf
    · simp only [Function.update_of_ne hk] at hb
      exact h.lane k b hb f hf
  ticket k pre b post f hq hf := by
    by_cases hk : k = l
    · subst hk
      simp only [Function.update_self] at hq ⊢
      rcases List.eq_nil_or_concat post with rfl | ⟨post', c, rfl⟩
      · -- The item that joins is the last one, and its flow takes the new ticket.
        obtain rfl : a = b := List.head_eq_of_cons_eq (List.append_inj_right' hq rfl)
        rw [if_pos hf]
        exact Nat.le_add_right _ _
      · have hq' : s.queue k = pre ++ b :: post' := by
          have : s.queue k ++ [a] = (pre ++ b :: post') ++ [c] := by
            rw [hq, List.append_assoc, List.cons_append, List.concat_eq_append]
          exact List.append_inj_left' this rfl
        have hold := h.ticket k pre b post' f hq' hf
        rw [List.concat_eq_append, List.length_append, List.length_singleton]
        split
        · omega
        · omega
    · simp only [Function.update_of_ne hk] at hq ⊢
      have hold := h.ticket k pre b post f hq hf
      have hne : flow a ≠ some f := fun hfa => by
        have h₁ := ha f hfa
        have h₂ := h.lane k b (by rw [hq]; simp) f hf
        exact hk (Option.some.inj (h₂.symm.trans h₁))
      rwa [if_neg hne]
  order f := by
    rw [ofFlow_append, h.order f, List.append_assoc]
    congr 1
    unfold waiting
    dsimp only
    by_cases hf : flow a = some f
    · rw [ha f hf]
      dsimp only
      rw [Function.update_self, ofFlow_append]
    · rw [ofFlow_singleton_of_ne hf, List.append_nil]
      split
      · rfl
      · rename_i k _
        by_cases hk : k = l
        · subst hk
          rw [Function.update_self, ofFlow_append, ofFlow_singleton_of_ne hf, List.append_nil]
        · rw [Function.update_of_ne hk]

theorem InOrder.deliver (h : InOrder flow s) {l : L} {a : A} {q : List A}
    (hq : s.queue l = a :: q) :
    InOrder flow { s with
      queue := Function.update s.queue l q
      delivered := s.delivered ++ [a] } where
  counted k := by
    by_cases hk : k = l
    · subst hk
      have := h.counted k
      rw [hq, List.length_cons] at this
      simp only [Function.update_self]
      omega
    · simp only [Function.update_of_ne hk]
      exact h.counted k
  lane k b hb f hf := by
    by_cases hk : k = l
    · subst hk
      simp only [Function.update_self] at hb
      exact h.lane k b (by rw [hq]; exact List.mem_cons_of_mem _ hb) f hf
    · simp only [Function.update_of_ne hk] at hb
      exact h.lane k b hb f hf
  ticket k pre b post f hb hf := by
    by_cases hk : k = l
    · subst hk
      simp only [Function.update_self] at hb
      exact h.ticket k (a :: pre) b post f (by rw [hq, hb, List.cons_append]) hf
    · simp only [Function.update_of_ne hk] at hb
      exact h.ticket k pre b post f hb hf
  order f := by
    rw [ofFlow_append, h.order f, List.append_assoc]
    congr 1
    have hmem : a ∈ s.queue l := by
      rw [hq]
      exact List.mem_cons_self
    unfold waiting
    dsimp only
    by_cases hf : flow a = some f
    · rw [h.lane l a hmem f hf]
      dsimp only
      rw [Function.update_self, hq, ← List.singleton_append, ofFlow_append]
    · rw [ofFlow_singleton_of_ne hf, List.nil_append]
      split
      · rfl
      · rename_i k _
        by_cases hk : k = l
        · subst hk
          rw [Function.update_self, hq, ← List.singleton_append, ofFlow_append,
            ofFlow_singleton_of_ne hf, List.nil_append]
        · rw [Function.update_of_ne hk]

theorem InOrder.serve (h : InOrder flow s) {l : L}
    (hl : s.served l + (s.queue l).length < s.issued l) :
    InOrder flow { s with served := Function.update s.served l (s.served l + 1) } :=
  { h with
    counted := fun k => by
      by_cases hk : k = l
      · subst hk
        simp only [Function.update_self]
        omega
      · simp only [Function.update_of_ne hk]
        exact h.counted k }

omit [DecidableEq L] in
theorem InOrder.switch (h : InOrder flow s) {f : F} (l : Option L) (ticket : ℕ)
    (hserved : ∀ l, s.lane f = some l → s.ticket f ≤ s.served l) :
    InOrder flow { s with
      lane := Function.update s.lane f l
      ticket := Function.update s.ticket f ticket } := by
  have hnone := h.not_mem hserved
  have hne : ∀ k, ∀ b ∈ s.queue k, ∀ g, flow b = some g → g ≠ f := by
    rintro k b hb g hg rfl
    exact hnone k b hb hg
  refine ⟨h.counted, fun k b hb g hg => ?_, fun k pre b post g hq hg => ?_, fun g => ?_⟩
  · simp only [Function.update_of_ne (hne k b hb g hg)]
    exact h.lane k b hb g hg
  · have hb : b ∈ s.queue k := by
      rw [hq]
      exact List.mem_append_right _ List.mem_cons_self
    simp only [Function.update_of_ne (hne k b hb g hg)]
    exact h.ticket k pre b post g hq hg
  · refine (h.order g).trans ?_
    congr 1
    unfold waiting
    dsimp only
    by_cases hg : g = f
    · -- Neither the old nor the new lane has an item of the flow.
      subst hg
      have hnil : ∀ k, ofFlow flow g (s.queue k) = [] := fun k => ofFlow_eq_nil (hnone k)
      simp only [Function.update_self, hnil]
      split <;> split <;> rfl
    · rw [Function.update_of_ne hg]

theorem InOrder.step (h : InOrder flow s) (hst : Step flow s t) : InOrder flow t := by
  cases hst with
  | join l a ha => exact h.join ha
  | deliver l a q hq => exact h.deliver hq
  | serve l hl => exact h.serve hl
  | switch f l ticket hserved => exact h.switch l ticket hserved

theorem InOrder.run (h : InOrder flow s) (hst : Relation.ReflTransGen (Step flow) s t) :
    InOrder flow t := by
  induction hst with
  | refl => exact h
  | tail _ hst ih => exact ih.step hst

omit [DecidableEq L] in
/-- Items of a flow are delivered in the order in which they were accepted. -/
theorem InOrder.in_order (h : InOrder flow s) (f : F) :
    ofFlow flow f s.delivered <+: ofFlow flow f s.accepted := by
  rw [h.order f]
  exact List.prefix_append _ _

end Steps

end CrosRt.TicketLanes
