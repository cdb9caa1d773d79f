import Mathlib.Algebra.Order.Group.Multiset
import Mathlib.Algebra.Order.Ring.Int
import Mathlib.Algebra.Order.Ring.Nat
import Mathlib.Order.Lattice
import DTFramework.Lib.Traced

/-!
# Ledgers

What the events of a computation do to a stock of resources: a resource is
taken, or given back, and giving back one that is not in the stock is an error.

`Moves A x B` reads: with `A` in hand, `x` gives back nothing else, and when it
returns `a` it has `B a` in hand. Whatever else is in the stock stays there, so
a triple says where every resource taken on the way went. A computation with
nothing in hand before and after is `Neutral`.

Results:

* `moves_bind`, `moves_frame`, `moves_loop`: the rules;
* `Moves.run`: what a triple says about the stock.
-/
namespace DTFramework.Lib

/-- What an event does to the stock. -/
inductive Move (R : Type)
  | take (r : R)
  | give (r : R)
  | stay
deriving DecidableEq, Repr

namespace Ledger

variable {E ε R α β σ : Type} [DecidableEq R] {mv : E → Move R}

/-- The stock after a move; `none` when something is given back that is not there. -/
def apply : Move R → Multiset R → Option (Multiset R)
  | .take r, held => some (r ::ₘ held)
  | .give r, held => if r ∈ held then some (held.erase r) else none
  | .stay, held => some held

/-- The stock after a list of events. -/
def run (mv : E → Move R) : List E → Multiset R → Option (Multiset R)
  | [], held => some held
  | ev :: t, held => (apply (mv ev) held).bind (run mv t)

@[simp] theorem run_nil (held : Multiset R) : run mv [] held = some held := rfl

theorem run_append (t u : List E) (held : Multiset R) :
    run mv (t ++ u) held = (run mv t held).bind (run mv u) := by
  induction t generalizing held with
  | nil => rfl
  | cons ev t ih =>
    show (apply (mv ev) held).bind (run mv (t ++ u)) = _
    rw [run, Option.bind_assoc]
    exact congrArg _ (funext ih)

/-- With `A` in hand before, `B a` in hand after. -/
def Moves (mv : E → Move R) (A : Multiset R) (x : Traced E ε α) (B : α → Multiset R) : Prop :=
  ∀ a t, x = .ok (a, t) → ∀ held, run mv t (A + held) = some (B a + held)

/-- Nothing in hand before and after. -/
abbrev Neutral (mv : E → Move R) (x : Traced E ε α) : Prop := Moves mv 0 x fun _ => 0

/-- The stock after a run that starts with what the triple asks for. -/
theorem Moves.run {A : Multiset R} {x : Traced E ε α} {B : α → Multiset R} (h : Moves mv A x B) {a : α}
    {t : List E} (hx : x = .ok (a, t)) : Ledger.run mv t A = some (B a) := by
  have := h a t hx 0
  rwa [add_zero, add_zero] at this

theorem moves_pure {B : α → Multiset R} (a : α) : Moves mv (B a) (pure a : Traced E ε α) B := by
  intro b t h held
  cases h
  rfl

theorem moves_fault {A : Multiset R} {B : α → Multiset R} (e : ε) :
    Moves mv A (Traced.fault e : Traced E ε α) B := by
  intro a t h
  cases h

theorem moves_take {ev : E} {r : R} (h : mv ev = .take r) :
    Moves mv 0 (Traced.emit ev : Traced E ε Unit) fun _ => {r} := by
  intro a t hx held
  cases hx
  simp [Ledger.run, apply, h]

theorem moves_give {ev : E} {r : R} (h : mv ev = .give r) :
    Moves mv {r} (Traced.emit ev : Traced E ε Unit) fun _ => 0 := by
  intro a t hx held
  cases hx
  simp [Ledger.run, apply, h]

theorem moves_stay {ev : E} (h : mv ev = .stay) : Neutral mv (Traced.emit ev : Traced E ε Unit) := by
  intro a t hx held
  cases hx
  simp [Ledger.run, apply, h]

/-- One computation after another: the second one starts with what the first
one's result leaves in hand. -/
theorem moves_bind {A : Multiset R} {B : α → Multiset R} {C : β → Multiset R} {x : Traced E ε α}
    {f : α → Traced E ε β} (hx : Moves mv A x B) (hf : ∀ a, x.val = .ok a → Moves mv (B a) (f a) C) :
    Moves mv A (x >>= f) C := by
  intro b t h held
  obtain ⟨a, u, v, hu, hv, rfl⟩ := Traced.bind_eq_ok h
  rw [run_append, hx a u hu held, Option.bind_some]
  exact hf a (by rw [hu]; rfl) b v hv held

/-- What is in hand besides is left alone. -/
theorem moves_frame {A : Multiset R} {B : α → Multiset R} {x : Traced E ε α} (h : Moves mv A x B)
    (F : Multiset R) : Moves mv (A + F) x fun a => B a + F := by
  intro a t hx held
  rw [add_assoc, add_assoc]
  exact h a t hx (F + held)

/-- A neutral computation between two steps. -/
theorem moves_neutral_bind {A : Multiset R} {C : β → Multiset R} {x : Traced E ε α} {f : α → Traced E ε β}
    (hx : Neutral mv x) (hf : ∀ a, x.val = .ok a → Moves mv A (f a) C) : Moves mv A (x >>= f) C := by
  refine moves_bind (B := fun _ => A) ?_ hf
  have := moves_frame hx A
  simpa using this

theorem moves_ite {A : Multiset R} {B : α → Multiset R} {c : Prop} [Decidable c] {x y : Traced E ε α}
    (hx : c → Moves mv A x B) (hy : ¬c → Moves mv A y B) : Moves mv A (if c then x else y) B := by
  split
  · exact hx ‹_›
  · exact hy ‹_›

/-- Nothing is in hand after a result that leaves nothing. -/
theorem moves_pure_zero {a : α} : Neutral mv (pure a : Traced E ε α) := moves_pure (B := fun _ => 0) a

/-- A loop whose turns are neutral is neutral. -/
theorem moves_loop {step : σ → Traced E ε (σ ⊕ α)} {measure : σ → Nat}
    {lower : ∀ s s', (step s).val = .ok (.inl s') → measure s' < measure s}
    (hstep : ∀ s, Neutral mv (step s)) (s : σ) : Neutral mv (Traced.loop step measure lower s) := by
  induction hn : measure s using Nat.strongRecOn generalizing s with
  | _ n ih =>
    subst hn
    intro a t h held
    rw [Traced.loop] at h
    split at h
    · cases h
    · rename_i hs
      cases h
      exact hstep s _ _ hs held
    · rename_i s' u hs
      have hrec := ih (measure s') (lower s s' (by rw [hs]; rfl)) s' rfl
      cases hl : Traced.loop step measure lower s' with
      | error e => rw [hl] at h; cases h
      | ok q =>
        obtain ⟨b, v⟩ := q
        rw [hl] at h
        cases h
        rw [run_append, hstep s _ _ hs held, Option.bind_some]
        exact hrec a v hl held

/-- A computation whose events are events of another kind. -/
theorem moves_mapEvents {F : Type} {mv' : F → Move R} {g : E → F} (hg : ∀ ev, mv' (g ev) = mv ev) {A : Multiset R}
    {x : Traced E ε α} {B : α → Multiset R} (h : Moves mv A x B) : Moves mv' A (x.mapEvents g) B := by
  have hrun (t : List E) : ∀ held, Ledger.run mv' (t.map g) held = Ledger.run mv t held := by
    induction t with
    | nil => exact fun _ => rfl
    | cons ev t ih =>
      intro held
      show (apply (mv' (g ev)) held).bind (Ledger.run mv' (t.map g)) = (apply (mv ev) held).bind (Ledger.run mv t)
      rw [hg ev, funext ih]
  intro a t hx held
  obtain ⟨u, hu, rfl⟩ := Traced.mapEvents_eq_ok hx
  rw [hrun]
  exact h a u hu held

end Ledger

end DTFramework.Lib
