import Mathlib.Algebra.Order.Ring.Int
import Mathlib.Algebra.Order.Ring.Nat
import Mathlib.Order.Lattice
import Mathlib.Tactic.Common

/-!
# Segments that tile a range

A list of segments tiles the range from `a` to `b` when every segment starts
where the one before it ends, the first at `a` and the last ending at `b`. No
segment is empty, so the segments of a tiling are pairwise disjoint and every
point of the range is in one of them.

Results:

* `Tiles.snoc`: a tiling grows at its end;
* `Tiles.mem_bounds`, `Tiles.pairwise`: every segment is in the range, and ends
  before the later ones start.
-/
namespace DTFramework.Lib

structure Segment where
  addr : Nat
  size : Nat
deriving DecidableEq, Repr

inductive Tiles : Nat → List Segment → Nat → Prop
  | nil (a : Nat) : Tiles a [] a
  | cons {a n b : Nat} {l : List Segment} : 0 < n → Tiles (a + n) l b → Tiles a (⟨a, n⟩ :: l) b

namespace Tiles

variable {a b n : Nat} {l l' : List Segment}

theorem append {c : Nat} (h : Tiles a l b) (h' : Tiles b l' c) : Tiles a (l ++ l') c := by
  induction h with
  | nil a => exact h'
  | cons hn _ ih => exact cons hn (ih h')

/-- A tiling grows at its end. -/
theorem snoc (h : Tiles a l b) (hn : 0 < n) : Tiles a (l ++ [⟨b, n⟩]) (b + n) :=
  h.append (cons hn (nil _))

theorem le (h : Tiles a l b) : a ≤ b := by
  induction h with
  | nil a => exact Nat.le_refl a
  | cons hn _ ih => omega

/-- Every segment is in the range. -/
theorem mem_bounds (h : Tiles a l b) {s : Segment} (hs : s ∈ l) :
    a ≤ s.addr ∧ 0 < s.size ∧ s.addr + s.size ≤ b := by
  induction h with
  | nil a => cases hs
  | cons hn ht ih =>
    have := ht.le
    cases hs with
    | head => exact ⟨Nat.le_refl _, hn, this⟩
    | tail _ hs => have := ih hs; omega

/-- Every segment ends before the later ones start. -/
theorem pairwise (h : Tiles a l b) : l.Pairwise fun s t => s.addr + s.size ≤ t.addr := by
  induction h with
  | nil a => exact .nil
  | cons hn ht ih => exact .cons (fun t hmem => (ht.mem_bounds hmem).1) ih

end Tiles

end DTFramework.Lib
