import Mathlib.Algebra.Order.Ring.Int
import Mathlib.Algebra.Order.Ring.Nat
import Mathlib.Data.List.Infix
import Mathlib.Order.Lattice

/-!
# Patterns in a text

A pattern with one group, as a search: what its group holds where the pattern
first matches. `plus` and `lazyDot` try their alternatives in the order of a
backtracking matcher, so the first match is the one that counts.

The second part is about where a phrase can occur in a text that is made of
pieces: inside one of them, if the seam does not let it through.

Results:

* `search_isSome`: what matches in a part of a text matches in the text;
* `infix_seam`, `infix_split`: when a phrase is in one of two pieces.
-/
namespace DTFramework.Lib

section
variable {α : Type} [DecidableEq α]

/-- What the group of a pattern holds at the start of a text, if it matches there. -/
abbrev Pattern (α : Type) := List α → Option (List α)

/-- A literal, and then the rest. -/
def literal (l : List α) (k : Pattern α) : Pattern α := fun s => if l <+: s then k (s.drop l.length) else none

/-- `c+`, and then the rest. -/
def plus (c : α) (k : Pattern α) : Pattern α
  | [] => none
  | x :: s => if x = c then (plus c k s).or (k s) else none

/-- `.*?`, which does not match a line end, and then the rest. -/
def lazyDot (newline : α) (k : Pattern α) : Pattern α
  | [] => k []
  | x :: s => (k (x :: s)).or (if x = newline then none else lazyDot newline k s)

/-- The group: `([^c]+)c`. -/
def group (close : α) : Pattern α := fun s =>
  let g := s.takeWhile (· ≠ close)
  if g ≠ [] ∧ g.length < s.length then some g else none

theorem literal_append (l s : List α) (k : Pattern α) : literal l k (l ++ s) = k s := by
  unfold literal
  rw [if_pos (List.prefix_append l s), List.drop_left]

theorem plus_isSome {c : α} {k : Pattern α} {s : List α} (h : (k s).isSome) : (plus c k (c :: s)).isSome := by
  rw [plus, if_pos rfl, Option.isSome_or, h, Bool.or_true]

theorem lazyDot_isSome {newline : α} {k : Pattern α} {s : List α} (h : (k s).isSome) : ∀ x : List α, newline ∉ x →
    (lazyDot newline k (x ++ s)).isSome := by
  intro x
  induction x with
  | nil =>
    intro _
    cases s with
    | nil => exact h
    | cons y s => rw [List.nil_append, lazyDot, Option.isSome_or, h, Bool.true_or]
  | cons y x ih =>
    intro hx
    rw [List.mem_cons, not_or] at hx
    rw [List.cons_append, lazyDot, if_neg (Ne.symm hx.1), Option.isSome_or, ih hx.2, Bool.or_true]

theorem group_eq {close : α} {g : List α} (hg : close ∉ g) (hne : g ≠ []) (s : List α) :
    group close (g ++ close :: s) = some g := by
  have htake : (g ++ close :: s).takeWhile (fun x => decide (x ≠ close)) = g := by
    rw [List.takeWhile_append_of_pos]
    · simp
    · intro x hx
      exact decide_eq_true fun h => hg (h ▸ hx)
  unfold group
  dsimp only
  rw [htake, if_pos ⟨hne, by simp⟩]

end

section
variable {α : Type} {p : Pattern α}

/-- The first match in a text. -/
def search (p : Pattern α) : Pattern α
  | [] => p []
  | x :: s => (p (x :: s)).or (search p s)

theorem search_head {s g : List α} (h : p s = some g) : search p s = some g := by
  cases s with
  | nil => exact h
  | cons x s => rw [search, h, Option.some_or]

/-- What matches in a part of a text matches in the text. -/
theorem search_isSome {b : List α} (h : (p b).isSome) (a : List α) : (search p (a ++ b)).isSome := by
  induction a with
  | nil =>
    obtain ⟨g, hg⟩ := Option.isSome_iff_exists.mp h
    rw [List.nil_append, search_head hg]
    rfl
  | cons x a ih => rw [List.cons_append, search, Option.isSome_or, ih, Bool.or_true]

end

/-! ## Phrases -/

section
variable {α : Type} {p a b : List α}

/-- A phrase does not come about at a seam when no end of it begins the second
piece. -/
theorem infix_seam (ha : ¬p <:+: a) (hb : ¬p <:+: b) (hseam : ∀ p1 p2, p = p1 ++ p2 → p1 ≠ [] → p2 ≠ [] → ¬p2 <+: b) :
    ¬p <:+: a ++ b := by
  intro h
  rcases List.infix_append_iff_ne_nil.mp h with h | h | ⟨p1, p2, h1, h2, rfl, -, hp⟩
  · exact ha h
  · exact hb h
  · exact hseam p1 p2 rfl h1 h2 hp

/-- A phrase that lacks a character is on one side of it. -/
theorem infix_split {c : α} (hc : c ∉ p) (ha : ¬p <:+: a) (hb : ¬p <:+: b) : ¬p <:+: a ++ c :: b := by
  have hpre : ∀ p1 p2, p = p1 ++ p2 → p2 ≠ [] → ¬p2 <+: c :: b := by
    rintro p1 (_ | ⟨x, p2⟩) rfl hne hp
    · exact hne rfl
    · obtain ⟨rfl, -⟩ := List.cons_prefix_cons.mp hp
      exact hc (by simp)
  refine infix_seam ha ?_ fun p1 p2 h _ hne => hpre p1 p2 h hne
  intro h
  rcases List.infix_cons_iff.mp h with h | h
  · have hne : p ≠ [] := fun h => ha (h ▸ List.nil_infix)
    exact hpre [] p rfl hne h
  · exact hb h

end

end DTFramework.Lib
