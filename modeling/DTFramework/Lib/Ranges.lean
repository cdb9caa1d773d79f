import Mathlib.Algebra.Order.Ring.Int
import Mathlib.Algebra.Order.Ring.Nat
import Mathlib.Order.Lattice

/-!
# What a memory holds

A memory is a function of addresses. `At m p l` says that the values of a list
stand in it from an address on; a store puts a list there and nothing elsewhere.

Results:

* `store_at`, `store_out`, `At.store`: what a store writes, and what it leaves;
* `At.move`, `At.agree`: the same list at two places.
-/
namespace DTFramework.Lib

section
variable {α : Type} {m m' : Nat → α} {p q : Nat} {l l' : List α}

/-- The values of a list stand from `p` on. -/
def At (m : Nat → α) : Nat → List α → Prop
  | _, [] => True
  | p, x :: l => m p = x ∧ At m (p + 1) l

@[simp] theorem at_nil : At m p [] ↔ True := Iff.rfl

@[simp] theorem at_cons {x : α} : At m p (x :: l) ↔ m p = x ∧ At m (p + 1) l := Iff.rfl

theorem at_append : At m p (l ++ l') ↔ At m p l ∧ At m (p + l.length) l' := by
  induction l generalizing p with
  | nil => simp
  | cons x l ih =>
    rw [List.cons_append, at_cons, at_cons, ih, List.length_cons, and_assoc, Nat.add_assoc, Nat.add_comm 1]

theorem At.cast (h : At m p l) (hp : p = q) : At m q l := hp ▸ h

/-- A list that stands at `p` stands at `q` of a memory with the same values there. -/
theorem At.move (h : At m p l) (hm : ∀ i < l.length, m' (q + i) = m (p + i)) : At m' q l := by
  induction l generalizing p q with
  | nil => trivial
  | cons x l ih =>
    refine ⟨(hm 0 (Nat.succ_pos _)).trans h.1, ih h.2 fun i hi => ?_⟩
    have hnext := hm (i + 1) (Nat.succ_lt_succ hi)
    rwa [show q + 1 + i = q + (i + 1) by omega, show p + 1 + i = p + (i + 1) by omega]

theorem At.congr (h : At m p l) (hm : ∀ a, p ≤ a → a < p + l.length → m' a = m a) : At m' p l :=
  h.move fun i hi => hm (p + i) (Nat.le_add_right p i) (Nat.add_lt_add_left hi p)

/-- Two places where the same list is agree. -/
theorem At.agree (h : At m p l) (h' : At m' q l) : ∀ i < l.length, m (p + i) = m' (q + i) := by
  induction l generalizing p q with
  | nil => exact fun i hi => absurd hi (Nat.not_lt_zero i)
  | cons x l ih =>
    intro i hi
    cases i with
    | zero => exact h.1.trans h'.1.symm
    | succ i =>
      have hrest := ih h.2 h'.2 i (Nat.lt_of_succ_lt_succ hi)
      rwa [Nat.add_right_comm p, Nat.add_right_comm q] at hrest

/-- Some list of each length stands everywhere. -/
theorem exists_at (m : Nat → α) (p n : Nat) : ∃ l, l.length = n ∧ At m p l := by
  induction n generalizing p with
  | zero => exact ⟨[], rfl, trivial⟩
  | succ n ih =>
    obtain ⟨l, hlen, hl⟩ := ih (p + 1)
    exact ⟨m p :: l, congrArg Nat.succ hlen, rfl, hl⟩

/-- The values of a list are written from `p` on. -/
def store (m : Nat → α) (p : Nat) (l : List α) : Nat → α := fun a => if p ≤ a then (l[a - p]?).getD (m a) else m a

theorem store_out {a : Nat} (h : a < p ∨ p + l.length ≤ a) : store m p l a = m a := by
  unfold store
  split
  · rw [List.getElem?_eq_none (by omega), Option.getD_none]
  · rfl

theorem store_cons {x : α} : store m p (x :: l) = store (store m p [x]) (p + 1) l := by
  funext a
  by_cases hp : a = p
  · subst hp
    rw [store_out (p := a + 1) (Or.inl (Nat.lt_succ_self a))]
    simp [store]
  · unfold store
    by_cases hlt : p ≤ a
    · rw [if_pos hlt, if_pos (show p + 1 ≤ a by omega), if_pos hlt, show a - p = a - (p + 1) + 1 by omega]
      simp
    · rw [if_neg hlt, if_neg (show ¬p + 1 ≤ a by omega), if_neg hlt]

theorem store_nil (m : Nat → α) (p : Nat) : store m p [] = m := by
  funext a
  exact store_out (Nat.lt_or_ge a p)

theorem store_append (m : Nat → α) (p : Nat) (l l' : List α) :
    store m p (l ++ l') = store (store m p l) (p + l.length) l' := by
  induction l generalizing m p with
  | nil => rw [store_nil, List.nil_append, List.length_nil, Nat.add_zero]
  | cons x l ih =>
    rw [List.cons_append, store_cons, ih, store_cons (l := l), List.length_cons, Nat.add_assoc p, Nat.add_comm 1]

/-- What was stored stands there. -/
theorem store_at (m : Nat → α) (p : Nat) (l : List α) : At (store m p l) p l := by
  induction l generalizing m p with
  | nil => trivial
  | cons x l ih =>
    rw [store_cons]
    refine ⟨?_, ih _ _⟩
    rw [store_out (Or.inl (Nat.lt_succ_self p))]
    simp [store]

/-- A store leaves what stands outside it. -/
theorem At.store (h : At m p l) (hapart : p + l.length ≤ q ∨ q + l'.length ≤ p) : At (store m q l') p l :=
  h.congr fun _ _ _ => store_out (by omega)

end

end DTFramework.Lib
