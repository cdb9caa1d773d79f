import Mathlib.Algebra.Order.Ring.Int
import Mathlib.Algebra.Order.Ring.Nat
import Mathlib.Data.Set.Insert
import Mathlib.Order.Lattice
import DTFramework.Lib.Traced

/-!
# Policies

A policy says of an event whether it is allowed at all, which rights it needs
and which it gives. A run obeys it when every event has the rights it needs,
from the start or from an earlier event; rights are never lost.

`Within pol A x` reads: started with the rights `A`, a run of `x` that returns
obeys the policy.

Results:

* `within_bind`, `within_emit_bind`, `within_loop`: the rules;
* `Obeys.needs`: what a run that obeys says of one event: the rights it needs were
  there before the run, or an event before it gives them.
-/
namespace DTFramework.Lib

structure Policy (E R : Type) where
  allowed : E → Prop
  needs : E → Set R
  gives : E → Set R

namespace Policy

variable {E ε R α β σ : Type} {pol : Policy E R}

/-- The rights after a list of events. -/
def held (pol : Policy E R) (A : Set R) : List E → Set R
  | [] => A
  | ev :: t => held pol (A ∪ pol.gives ev) t

/-- Every event is allowed and has the rights it needs. -/
def Obeys (pol : Policy E R) (A : Set R) : List E → Prop
  | [] => True
  | ev :: t => pol.allowed ev ∧ pol.needs ev ⊆ A ∧ Obeys pol (A ∪ pol.gives ev) t

theorem obeys_append (t u : List E) (A : Set R) : pol.Obeys A (t ++ u) ↔ pol.Obeys A t ∧
    pol.Obeys (pol.held A t) u := by
  induction t generalizing A with
  | nil => simp [Obeys, held]
  | cons ev t ih => simp only [List.cons_append, Obeys, held, ih, and_assoc]

theorem mem_held {r : R} {A : Set R} {t : List E} : r ∈ pol.held A t ↔ r ∈ A ∨ ∃ ev ∈ t, r ∈ pol.gives ev := by
  induction t generalizing A with
  | nil => simp [held]
  | cons ev t ih => simp only [held, ih, Set.mem_union, List.mem_cons, exists_eq_or_imp, or_assoc]

theorem subset_held (A : Set R) (t : List E) : A ⊆ pol.held A t := fun _ h => mem_held.mpr (.inl h)

theorem Obeys.mono {A B : Set R} {t : List E} (h : pol.Obeys A t) (hab : A ⊆ B) : pol.Obeys B t := by
  induction t generalizing A B with
  | nil => trivial
  | cons ev t ih => exact ⟨h.1, h.2.1.trans hab, ih h.2.2 (Set.union_subset_union_left _ hab)⟩

theorem Obeys.allowed {A : Set R} {t : List E} (h : pol.Obeys A t) : ∀ ev ∈ t, pol.allowed ev := by
  induction t generalizing A with
  | nil => exact fun _ h => (nomatch h)
  | cons e t ih =>
    intro ev hev
    rcases List.mem_cons.mp hev with rfl | hev
    · exact h.1
    · exact ih h.2.2 ev hev

/-- What a run that obeys says of one event: the rights it needs were there
before the run, or an event before it gives them. -/
theorem Obeys.needs {A : Set R} {t u : List E} {ev : E} (h : pol.Obeys A (t ++ ev :: u)) {r : R}
    (hr : r ∈ pol.needs ev) : r ∈ A ∨ ∃ e ∈ t, r ∈ pol.gives e :=
  mem_held.mp (((obeys_append _ _ _).mp h).2.2.1 hr)

/-- Events of another kind that need and give the same. -/
theorem Obeys.map {F : Type} {pol' : Policy F R} {g : E → F} (ha : ∀ ev, pol.allowed ev → pol'.allowed (g ev))
    (hn : ∀ ev, pol'.needs (g ev) = pol.needs ev) (hg : ∀ ev, pol'.gives (g ev) = pol.gives ev) {A : Set R}
    {t : List E}
    (h : pol.Obeys A t) : pol'.Obeys A (t.map g) := by
  induction t generalizing A with
  | nil => trivial
  | cons ev t ih =>
    refine ⟨ha ev h.1, ?_, ?_⟩
    · rw [hn]
      exact h.2.1
    · rw [hg]
      exact ih h.2.2

/-- Started with the rights `A`, the computation obeys. -/
def Within (pol : Policy E R) (A : Set R) (x : Traced E ε α) : Prop := ∀ a t, x = .ok (a, t) → pol.Obeys A t

theorem within_pure {A : Set R} {a : α} : Within pol A (pure a : Traced E ε α) := by
  intro b t h
  cases h
  trivial

theorem within_fault {A : Set R} (e : ε) : Within pol A (Traced.fault e : Traced E ε α) := by
  intro a t h
  cases h

/-- One computation after another: the rights of the first one are still there. -/
theorem within_bind {A : Set R} {x : Traced E ε α} {f : α → Traced E ε β} (hx : Within pol A x)
    (hf : ∀ a, Within pol A (f a)) : Within pol A (x >>= f) := by
  intro b t h
  obtain ⟨a, u, v, hu, hv, rfl⟩ := Traced.bind_eq_ok h
  exact (obeys_append _ _ _).mpr ⟨hx a u hu, (hf a b v hv).mono (subset_held A u)⟩

/-- After an event its rights are there besides. -/
theorem within_emit_bind {A : Set R} {ev : E} {f : Unit → Traced E ε β} (ha : pol.allowed ev) (hn : pol.needs ev ⊆ A)
    (hf : Within pol (A ∪ pol.gives ev) (f ())) : Within pol A (Traced.emit ev >>= f) := by
  intro b t h
  obtain ⟨a, u, v, hu, hv, rfl⟩ := Traced.bind_eq_ok h
  cases hu
  exact ⟨ha, hn, hf b v hv⟩

theorem within_ite {A : Set R} {c : Prop} [Decidable c] {x y : Traced E ε α}
    (hx : c → Within pol A x) (hy : ¬c → Within pol A y) : Within pol A (if c then x else y) := by
  split
  · exact hx ‹_›
  · exact hy ‹_›

/-- A loop whose turns obey with the rights there were at the start. -/
theorem within_loop {A : Set R} {step : σ → Traced E ε (σ ⊕ α)} {measure : σ → Nat}
    {lower : ∀ s s', (step s).val = .ok (.inl s') → measure s' < measure s} (hstep : ∀ s, Within pol A (step s))
    (s : σ) :
    Within pol A (Traced.loop step measure lower s) := by
  induction hn : measure s using Nat.strongRecOn generalizing s with
  | _ n ih =>
    subst hn
    intro a t h
    rw [Traced.loop] at h
    split at h
    · cases h
    · rename_i hs
      cases h
      exact hstep s _ _ hs
    · rename_i s' u hs
      have hrec := ih (measure s') (lower s s' (by rw [hs]; rfl)) s' rfl
      cases hl : Traced.loop step measure lower s' with
      | error e => rw [hl] at h; cases h
      | ok q =>
        obtain ⟨b, v⟩ := q
        rw [hl] at h
        cases h
        exact (obeys_append _ _ _).mpr ⟨hstep s _ _ hs, (hrec a v hl).mono (subset_held A u)⟩

end Policy

end DTFramework.Lib
