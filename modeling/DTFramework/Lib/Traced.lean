import Mathlib.Algebra.Order.Ring.Int
import Mathlib.Algebra.Order.Ring.Nat
import Mathlib.Order.Lattice
import Mathlib.Tactic.Common

/-!
# Computations that fault, and the events they emit

`Traced E ε α` is a computation that either stops with a fault in `ε`, or
returns an `α` together with the events of type `E` it emitted, in order. A
computation takes no state: two of them are compared by their results
(`val`), and what they did on the way is in the events.

`loop` runs a step until it is done. It takes a measure that every step which
is not the last one lowers, so a loop is a total function and an endless loop
has to be a fault of the step.

Results:

* `val_bind`: results compose without the events;
* `does_bind`: what a computation relies on of its events and what it ensures of
  them and of its value, carried through a composition;
* `loop_eq`: one turn of a loop;
* `loop_induct`: what every step preserves holds at the end of the loop;
* `loop_error_iff`: where a loop faults.
-/
namespace DTFramework.Lib

/-- A fault, or a value and the events emitted before it was returned. -/
def Traced (E ε α : Type) : Type := Except ε (α × List E)

namespace Traced

variable {E ε α β σ : Type}

/-- Return a value without an event. -/
def ret (a : α) : Traced E ε α := .ok (a, [])

/-- Stop. -/
def fault (e : ε) : Traced E ε α := .error e

/-- Emit one event. -/
def emit (ev : E) : Traced E ε Unit := .ok ((), [ev])

/-- The events of `t` come before those of the computation. -/
def after (t : List E) : Traced E ε α → Traced E ε α
  | .error e => .error e
  | .ok (a, u) => .ok (a, t ++ u)

/-- Run one computation after another. -/
def andThen (x : Traced E ε α) (f : α → Traced E ε β) : Traced E ε β :=
  match x with
  | .error e => .error e
  | .ok (a, t) => (f a).after t

instance : Monad (Traced E ε) where
  pure := ret
  bind := andThen

/-- The result, without the events. -/
def val : Traced E ε α → Except ε α
  | .error e => .error e
  | .ok (a, _) => .ok a

/-- The events; none are told of a computation that faults. -/
def events : Traced E ε α → List E
  | .error _ => []
  | .ok (_, t) => t

theorem eq_ok {x : Traced E ε α} {a : α} {t : List E} (h : x.val = .ok a) (ht : x.events = t) :
    x = .ok (a, t) := by
  cases x with
  | error e => cases h
  | ok p =>
    cases h
    subst ht
    rfl

@[simp] theorem val_ret (a : α) : (ret a : Traced E ε α).val = .ok a := rfl
@[simp] theorem val_pure (a : α) : (pure a : Traced E ε α).val = .ok a := rfl
@[simp] theorem val_fault (e : ε) : (fault e : Traced E ε α).val = .error e := rfl
@[simp] theorem val_emit (ev : E) : (emit ev : Traced E ε Unit).val = .ok () := rfl

@[simp] theorem val_after (t : List E) (x : Traced E ε α) : (x.after t).val = x.val := by
  cases x <;> rfl

@[simp] theorem val_bind (x : Traced E ε α) (f : α → Traced E ε β) :
    (x >>= f).val = match x.val with
      | .error e => .error e
      | .ok a => (f a).val := by
  cases x with
  | error e => rfl
  | ok p => exact val_after p.2 (f p.1)

theorem val_bind_ok {x : Traced E ε α} {f : α → Traced E ε β} {b : β} :
    (x >>= f).val = .ok b ↔ ∃ a, x.val = .ok a ∧ (f a).val = .ok b := by
  rw [val_bind]
  cases h : x.val with
  | error e => simp
  | ok a => simp

theorem val_bind_error {x : Traced E ε α} {f : α → Traced E ε β} {e : ε} :
    (x >>= f).val = .error e ↔ x.val = .error e ∨ ∃ a, x.val = .ok a ∧ (f a).val = .error e := by
  rw [val_bind]
  cases h : x.val with
  | error d => simp
  | ok a => simp

/-- Compositions have the same result when their parts have. -/
theorem val_bind_congr {x y : Traced E ε α} {f g : α → Traced E ε β} (hx : x.val = y.val)
    (hf : ∀ a, x.val = .ok a → (f a).val = (g a).val) : (x >>= f).val = (y >>= g).val := by
  rw [val_bind, val_bind, ← hx]
  cases h : x.val with
  | error e => rfl
  | ok a => exact hf a h

theorem val_ite_congr {c : Prop} [Decidable c] {x y x' y' : Traced E ε α} (hx : c → x.val = x'.val)
    (hy : ¬c → y.val = y'.val) : (if c then x else y).val = (if c then x' else y').val := by
  split
  · exact hx ‹_›
  · exact hy ‹_›

/-- A composition returned: so did both parts, and their events follow each other. -/
theorem bind_eq_ok {x : Traced E ε α} {f : α → Traced E ε β} {b : β} {t : List E} (h : x >>= f = .ok (b, t)) :
    ∃ a u v, x = .ok (a, u) ∧ f a = .ok (b, v) ∧ t = u ++ v := by
  change andThen x f = .ok (b, t) at h
  cases x with
  | error e => cases h
  | ok p =>
    obtain ⟨a, u⟩ := p
    change (f a).after u = .ok (b, t) at h
    cases hf : f a with
    | error e => rw [hf] at h; cases h
    | ok q =>
      obtain ⟨c, v⟩ := q
      rw [hf] at h
      cases h
      exact ⟨a, u, v, rfl, hf, rfl⟩

/-- The same computation, with events of another kind. -/
def mapEvents {F : Type} (g : E → F) : Traced E ε α → Traced F ε α
  | .error e => .error e
  | .ok (a, t) => .ok (a, t.map g)

@[simp] theorem val_mapEvents {F : Type} (g : E → F) (x : Traced E ε α) : (x.mapEvents g).val = x.val := by
  cases x <;> rfl

theorem mapEvents_eq_ok {F : Type} {g : E → F} {x : Traced E ε α} {a : α} {t : List F}
    (h : x.mapEvents g = .ok (a, t)) : ∃ u, x = .ok (a, u) ∧ t = u.map g := by
  cases x with
  | error e => cases h
  | ok p =>
    cases h
    exact ⟨p.2, rfl, rfl⟩

theorem val_ite {c : Prop} [Decidable c] (x y : Traced E ε α) :
    (if c then x else y).val = if c then x.val else y.val := by
  split <;> rfl

/-! ## What a computation ensures -/

/-- Every value the computation returns satisfies `P`. -/
def Ensures (x : Traced E ε α) (P : α → Prop) : Prop := ∀ a, x.val = .ok a → P a

theorem ensures_pure {a : α} {P : α → Prop} : (pure a : Traced E ε α).Ensures P ↔ P a :=
  ⟨fun h => h a rfl, fun h b hb => by cases hb; exact h⟩

theorem ensures_bind {x : Traced E ε α} {f : α → Traced E ε β} {P : β → Prop} :
    (x >>= f).Ensures P ↔ x.Ensures fun a => (f a).Ensures P := by
  constructor
  · intro h a ha b hb
    exact h b (val_bind_ok.mpr ⟨a, ha, hb⟩)
  · intro h b hb
    obtain ⟨a, ha, hb⟩ := val_bind_ok.mp hb
    exact h a ha b hb

theorem ensures_ite {c : Prop} [Decidable c] {x y : Traced E ε α} {P : α → Prop} :
    (if c then x else y).Ensures P ↔ (c → x.Ensures P) ∧ (¬c → y.Ensures P) := by
  split <;> simp_all

theorem ensures_true {x : Traced E ε α} : (x.Ensures fun _ => True) ↔ True :=
  ⟨fun _ => trivial, fun _ _ _ => trivial⟩

theorem Ensures.mono {x : Traced E ε α} {P Q : α → Prop} (h : x.Ensures P) (hPQ : ∀ a, P a → Q a) :
    x.Ensures Q := fun a ha => hPQ a (h a ha)

/-- Every fault the computation stops with satisfies `P`. -/
def Faults (x : Traced E ε α) (P : ε → Prop) : Prop := ∀ e, x.val = .error e → P e

theorem faults_pure {a : α} {P : ε → Prop} : (pure a : Traced E ε α).Faults P ↔ True :=
  ⟨fun _ => trivial, fun _ e h => by cases h⟩

theorem faults_fault {e : ε} {P : ε → Prop} : (fault e : Traced E ε α).Faults P ↔ P e :=
  ⟨fun h => h e rfl, fun h d hd => by cases hd; exact h⟩

theorem faults_bind {x : Traced E ε α} {f : α → Traced E ε β} {P : ε → Prop} :
    (x >>= f).Faults P ↔ x.Faults P ∧ x.Ensures fun a => (f a).Faults P := by
  unfold Faults Ensures
  rw [val_bind]
  cases h : x.val with
  | error d => simp
  | ok a => simp

theorem faults_ite {c : Prop} [Decidable c] {x y : Traced E ε α} {P : ε → Prop} :
    (if c then x else y).Faults P ↔ (c → x.Faults P) ∧ (¬c → y.Faults P) := by
  split <;> simp_all

/-- A computation that returns and whose events all satisfy `H`, which is what it
relies on: every event satisfies `P`, and its value `Q`. -/
def Does (x : Traced E ε α) (H P : E → Prop) (Q : α → Prop) : Prop :=
  ∀ a t, x = .ok (a, t) → (∀ ev ∈ t, H ev) → (∀ ev ∈ t, P ev) ∧ Q a

section
variable {H P : E → Prop} {Q : α → Prop}

theorem does_pure {a : α} (h : Q a) : (pure a : Traced E ε α).Does H P Q := by
  intro b t hb _
  cases hb
  exact ⟨fun _ hev => (nomatch hev), h⟩

theorem does_emit {ev : E} {Q : Unit → Prop} (h : H ev → P ev ∧ Q ()) : (emit ev : Traced E ε Unit).Does H P Q := by
  intro b t hb ht
  cases hb
  obtain ⟨hp, hq⟩ := h (ht ev List.mem_cons_self)
  refine ⟨fun e he => ?_, hq⟩
  rw [List.mem_singleton] at he
  rw [he]
  exact hp

theorem does_bind {R : α → Prop} {Q : β → Prop} {x : Traced E ε α} {f : α → Traced E ε β}
    (hx : x.Does H P R) (hf : ∀ a, R a → (f a).Does H P Q) : (x >>= f).Does H P Q := by
  intro b t h ht
  obtain ⟨a, u, v, hu, hv, rfl⟩ := bind_eq_ok h
  obtain ⟨hpu, hr⟩ := hx a u hu fun ev hev => ht ev (List.mem_append_left v hev)
  obtain ⟨hpv, hq⟩ := hf a hr b v hv fun ev hev => ht ev (List.mem_append_right u hev)
  exact ⟨fun ev hev => (List.mem_append.mp hev).elim (hpu ev) (hpv ev), hq⟩

theorem does_ite {c : Prop} [Decidable c] {x y : Traced E ε α} (hx : c → x.Does H P Q)
    (hy : ¬c → y.Does H P Q) : (if c then x else y).Does H P Q := by
  split
  · exact hx ‹_›
  · exact hy ‹_›

theorem does_mapEvents {F : Type} {g : E → F} {H P : F → Prop} {x : Traced E ε α}
    (hg : ∀ ev, P (g ev)) (hx : x.Ensures Q) : (x.mapEvents g).Does H P Q := by
  intro a t h _
  obtain ⟨u, hu, rfl⟩ := mapEvents_eq_ok h
  refine ⟨fun ev hev => ?_, hx a (by rw [hu]; rfl)⟩
  obtain ⟨e, -, rfl⟩ := List.mem_map.mp hev
  exact hg e

theorem Does.mono {R : α → Prop} {x : Traced E ε α} (h : x.Does H P Q) (hqr : ∀ a, Q a → R a) :
    x.Does H P R := fun a t hx ht => ⟨(h a t hx ht).1, hqr a (h a t hx ht).2⟩

end

/-! ## Loops -/

/-- Run `step` until it returns on the right. -/
def loop (step : σ → Traced E ε (σ ⊕ α)) (measure : σ → Nat)
    (lower : ∀ s s', (step s).val = .ok (.inl s') → measure s' < measure s) (s : σ) : Traced E ε α :=
  match _h : step s with
  | .error e => .error e
  | .ok (.inr a, t) => .ok (a, t)
  | .ok (.inl s', t) => (loop step measure lower s').after t
termination_by measure s
decreasing_by exact lower s s' (by rw [_h]; rfl)

section
variable {step : σ → Traced E ε (σ ⊕ α)} {measure : σ → Nat}
  {lower : ∀ s s', (step s).val = .ok (.inl s') → measure s' < measure s}

/-- One turn of a loop. -/
theorem loop_eq (s : σ) :
    (loop step measure lower s).val = match (step s).val with
      | .error e => .error e
      | .ok (.inr a) => .ok a
      | .ok (.inl s') => (loop step measure lower s').val := by
  rw [loop]
  split
  · rename_i h; rw [h]; rfl
  · rename_i h; rw [h]; rfl
  · rename_i h; rw [h]; exact val_after _ _

/-- The run rule: what holds at the start and is preserved by every step holds
at the last step. -/
theorem loop_induct (I : σ → Prop) (hstep : ∀ s s', I s → (step s).val = .ok (.inl s') → I s')
    {a : α} : ∀ s, I s → (loop step measure lower s).val = .ok a → ∃ s', I s' ∧ (step s').val = .ok (.inr a) := by
  intro s
  induction hn : measure s using Nat.strongRecOn generalizing s with
  | _ n ih =>
    subst hn
    intro hI h
    rw [loop_eq] at h
    cases hs : (step s).val with
    | error e => rw [hs] at h; cases h
    | ok r =>
      rw [hs] at h
      cases r with
      | inr b => cases h; exact ⟨s, hI, hs⟩
      | inl s' => exact ih _ (lower s s' hs) s' rfl (hstep s s' hI hs) h

/-- A loop stops with a fault of its step. -/
theorem loop_faults {P : ε → Prop} (hstep : ∀ s, (step s).Faults P) (s : σ) :
    (loop step measure lower s).Faults P := by
  induction hn : measure s using Nat.strongRecOn generalizing s with
  | _ n ih =>
    subst hn
    intro e h
    rw [loop_eq] at h
    cases hs : (step s).val with
    | error d =>
      rw [hs] at h
      cases h
      exact hstep s _ hs
    | ok r =>
      rw [hs] at h
      cases r with
      | inr b => cases h
      | inl s' => exact ih _ (lower s s' hs) s' rfl e h

/-- The states a run of the step comes to. -/
inductive Reaches (step : σ → Traced E ε (σ ⊕ α)) (s : σ) : σ → Prop
  | start : Reaches step s s
  | next {t u : σ} (h : Reaches step s t) (hu : (step t).val = .ok (.inl u)) : Reaches step s u

theorem Reaches.head {s t u : σ} (hs : (step s).val = .ok (.inl t)) (h : Reaches step t u) : Reaches step s u := by
  induction h with
  | start => exact .next .start hs
  | next _ hu ih => exact .next ih hu

/-- Where a step goes on, a run is at its start or goes on from the next state. -/
theorem reaches_next {s t u : σ} (hs : (step s).val = .ok (.inl t)) : Reaches step s u ↔ u = s ∨ Reaches step t u := by
  constructor
  · intro h
    induction h with
    | start => exact Or.inl rfl
    | next _ hu ih =>
      rcases ih with rfl | ih
      · rw [hs] at hu
        cases hu
        exact Or.inr .start
      · exact Or.inr (.next ih hu)
  · rintro (rfl | h)
    · exact .start
    · exact h.head hs

/-- Where it does not, the run ends. -/
theorem reaches_last {s u : σ} (hs : ∀ t, (step s).val ≠ .ok (.inl t)) : Reaches step s u ↔ u = s := by
  refine ⟨fun h => ?_, fun h => h ▸ .start⟩
  induction h with
  | start => rfl
  | next _ hu ih => exact absurd hu (ih ▸ hs _)

/-- What holds at the start and is preserved by every step holds at every state
of a run. -/
theorem Reaches.induct {I : σ → Prop} {s t : σ} (hI : I s) (hstep : ∀ s s', I s → (step s).val = .ok (.inl s') → I s')
    (h : Reaches step s t) : I t := by
  induction h with
  | start => exact hI
  | next _ hu ih => exact hstep _ _ ih hu

/-- A loop stops with the fault of the step at a state it comes to. -/
theorem loop_error_iff (s : σ) (e : ε) : (loop step measure lower s).val = .error e ↔
    ∃ t, Reaches step s t ∧ (step t).val = .error e := by
  constructor
  · induction hn : measure s using Nat.strongRecOn generalizing s with
    | _ n ih =>
      subst hn
      intro h
      rw [loop_eq] at h
      cases hs : (step s).val with
      | error d =>
        rw [hs] at h
        cases h
        exact ⟨s, .start, hs⟩
      | ok r =>
        rw [hs] at h
        cases r with
        | inr b => cases h
        | inl s' =>
          obtain ⟨t, ht, he⟩ := ih _ (lower s s' hs) s' rfl h
          exact ⟨t, ht.head hs, he⟩
  · rintro ⟨t, ht, he⟩
    have hback : (loop step measure lower t).val = .error e → (loop step measure lower s).val = .error e := by
      clear he
      induction ht with
      | start => exact id
      | next _ hu ih =>
        intro h
        exact ih (by rw [loop_eq, hu]; exact h)
    exact hback (by rw [loop_eq, he])

/-- Loops whose steps have the same results at every state of a run have the same
result. -/
theorem loop_congr {step' : σ → Traced E ε (σ ⊕ α)} {measure' : σ → Nat}
    {lower' : ∀ s s', (step' s).val = .ok (.inl s') → measure' s' < measure' s} (I : σ → Prop)
    (hsame : ∀ s, I s → (step' s).val = (step s).val) (hstep : ∀ s s', I s → (step s).val = .ok (.inl s') → I s')
    (s : σ) (hI : I s) : (loop step' measure' lower' s).val = (loop step measure lower s).val := by
  induction hn : measure s using Nat.strongRecOn generalizing s with
  | _ n ih =>
    subst hn
    rw [loop_eq, loop_eq, hsame s hI]
    cases hs : (step s).val with
    | error e => rfl
    | ok r =>
      cases r with
      | inr a => rfl
      | inl s' => exact ih _ (lower s s' hs) s' (hstep s s' hI hs) rfl

/-- No run of the step goes on for ever. -/
theorem no_endless_run (measure : σ → Nat)
    (lower : ∀ s s', (step s).val = .ok (.inl s') → measure s' < measure s) (f : Nat → σ) :
      ¬∀ n, (step (f n)).val = .ok (.inl (f (n + 1))) := by
  intro h
  have hm : ∀ n, measure (f n) + n ≤ measure (f 0) := by
    intro n
    induction n with
    | zero => exact Nat.le_refl _
    | succ n ih =>
      have := lower _ _ (h n)
      omega
  have := hm (measure (f 0) + 1)
  omega

end

end Traced

end DTFramework.Lib
