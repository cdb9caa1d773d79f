import Mathlib.Algebra.Order.Ring.Int
import Mathlib.Algebra.Order.Ring.Nat
import Mathlib.Order.Basic
import Mathlib.Order.Lattice
import Mathlib.Tactic.Common

/-!
# The earliest maximum of a list

`better` is one turn of a search for a maximum: the new element replaces the
best one so far only when its key is strictly greater. `IsFirstMax` says what
the search is for: an element whose key is greater than those before it and at
least those after it. A constant key makes it the first element.

Results:

* `better_of_lt`, `better_of_not_lt`: what one turn keeps;
* `IsFirstMax.snoc`: `better` keeps up with a list that grows at its end.
-/
namespace DTFramework.Lib

variable {α κ : Type} [LinearOrder κ] (key : α → κ)

/-- The best element so far, after `x`. -/
def better (b : Option α) (x : α) : Option α :=
  match b with
  | none => some x
  | some y => if key y < key x then some x else some y

/-- `none` is the earliest maximum of the empty list only. -/
def IsFirstMax (l : List α) : Option α → Prop
  | none => l = []
  | some x => ∃ l₁ l₂, l = l₁ ++ x :: l₂ ∧ (∀ y ∈ l₁, key y < key x) ∧ ∀ y ∈ l₂, key y ≤ key x

variable {key} {l : List α} {b : Option α}

theorem better_of_lt {x : α} (h : ∀ y ∈ b, key y < key x) : better key b x = some x := by
  cases b with
  | none => rfl
  | some y => exact if_pos (h y rfl)

theorem better_of_not_lt {x : α} (h : ¬∀ y ∈ b, key y < key x) : better key b x = b := by
  cases b with
  | none => exact absurd (fun y hy => nomatch hy) h
  | some y => exact if_neg fun hlt => h fun z hz => by cases hz; exact hlt

theorem IsFirstMax.le {x : α} (h : IsFirstMax key l (some x)) : ∀ y ∈ l, key y ≤ key x := by
  obtain ⟨l₁, l₂, rfl, h1, h2⟩ := h
  intro y hy
  rcases List.mem_append.mp hy with hy | hy
  · exact le_of_lt (h1 y hy)
  · rcases List.mem_cons.mp hy with rfl | hy
    · exact le_refl _
    · exact h2 y hy

theorem IsFirstMax.mem {x : α} (h : IsFirstMax key l (some x)) : x ∈ l := by
  obtain ⟨l₁, l₂, rfl, -, -⟩ := h
  simp

theorem IsFirstMax.nil : IsFirstMax key ([] : List α) none := rfl

/-- One turn of the search. -/
theorem IsFirstMax.snoc (h : IsFirstMax key l b) (x : α) : IsFirstMax key (l ++ [x]) (better key b x) := by
  cases b with
  | none =>
    cases h
    exact ⟨[], [], rfl, by simp, by simp⟩
  | some y =>
    unfold better
    simp only
    split
    · rename_i hlt
      exact ⟨l, [], rfl, fun z hz => lt_of_le_of_lt (h.le z hz) hlt, by simp⟩
    · rename_i hlt
      obtain ⟨l₁, l₂, rfl, h1, h2⟩ := h
      refine ⟨l₁, l₂ ++ [x], by simp, h1, fun z hz => ?_⟩
      rcases List.mem_append.mp hz with hz | hz
      · exact h2 z hz
      · rw [List.mem_singleton.mp hz]
        exact not_lt.mp hlt

end DTFramework.Lib
