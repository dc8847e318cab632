import Mathlib.Logic.Function.Basic

/-! # A token with at most one holder

Many parties, of which at most one holds a token: `HeldBy holds owner` says that the parties for which
`holds` is true are exactly the owner, or none where there is no owner. The parties are any type, and
what makes a party a holder (a program point, a flag of its own) is up to the user.

The rules follow the life of the token: one party changes and takes it (`HeldBy.acquire`), gives it up
(`HeldBy.release`), or neither (`HeldBy.keep`); and two holders are the same party (`HeldBy.eq`).
-/

namespace CrosRt.Holder
set_option autoImplicit false

variable {T P : Type*}

def HeldBy (holds : T → Prop) (owner : Option T) : Prop := ∀ t, holds t ↔ owner = some t

variable {holds : T → Prop} {owner : Option T}

theorem HeldBy.eq (h : HeldBy holds owner) {t u : T} (ht : holds t) (hu : holds u) : t = u :=
  Option.some.inj (((h t).mp ht).symm.trans ((h u).mp hu))

theorem HeldBy.owner_eq (h : HeldBy holds owner) {t : T} (ht : holds t) : owner = some t :=
  (h t).mp ht

theorem heldBy_none : HeldBy holds none ↔ ∀ t, ¬ holds t :=
  forall_congr' fun _ => ⟨fun h ht => (nomatch h.mp ht), fun h => iff_of_false h nofun⟩

/-! ## One party changes

The parties are known by their program points; `owns` says at which of them the token is held. -/

section Update
variable [DecidableEq T] (owns : P → Prop) {pc : T → P} {t : T} {p : P}

theorem HeldBy.update {owner' : Option T} (h : HeldBy (fun u => owns (pc u)) owner)
    (hself : owns p ↔ owner' = some t) (hother : ∀ u ≠ t, owner = some u ↔ owner' = some u) :
    HeldBy (fun u => owns (Function.update pc t p u)) owner' := by
  intro u
  by_cases hu : u = t
  · subst hu
    simpa only [Function.update_self] using hself
  · simpa only [Function.update_of_ne hu] using (h u).trans (hother u hu)

theorem HeldBy.acquire (h : HeldBy (fun u => owns (pc u)) none) (hp : owns p) :
    HeldBy (fun u => owns (Function.update pc t p u)) (some t) :=
  h.update owns (iff_of_true hp rfl)
    fun _ hu => iff_of_false nofun fun he => hu (Option.some.inj he).symm

theorem HeldBy.release (h : HeldBy (fun u => owns (pc u)) owner) (ht : owns (pc t)) (hp : ¬ owns p) :
    HeldBy (fun u => owns (Function.update pc t p u)) none :=
  h.update owns (iff_of_false hp nofun)
    fun _ hu => iff_of_false (fun he => hu (Option.some.inj ((h.owner_eq ht).symm.trans he)).symm)
      nofun

theorem HeldBy.keep (h : HeldBy (fun u => owns (pc u)) owner) (hp : owns p ↔ owns (pc t)) :
    HeldBy (fun u => owns (Function.update pc t p u)) owner :=
  h.update owns (hp.trans (h t)) fun _ _ => Iff.rfl

end Update

end CrosRt.Holder
