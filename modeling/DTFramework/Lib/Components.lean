import Mathlib.Algebra.Order.Ring.Int
import Mathlib.Algebra.Order.Ring.Nat
import Mathlib.Data.List.Basic
import Mathlib.Data.List.TakeWhile
import Mathlib.Order.Lattice

/-!
# Components of a path

A path is a text with separators; its components are the pieces between them
that are not empty. A tree is any set of nodes in which a node has at most one
child of a name, and a path is resolved in it component by component.

Results:

* `components_render`, `components_nodePath`: the components of a path written from
  names are the names;
* `components_first`: a path is its first component and what follows it.
-/
namespace DTFramework.Lib

section
variable {α : Type} [DecidableEq α] {sep : α}

def components (sep : α) (path : List α) : List (List α) := (path.splitOn sep).filter (· ≠ [])

theorem components_append (path rest : List α) :
    components sep (path ++ sep :: rest) = components sep path ++ components sep rest := by
  unfold components
  rw [List.splitOn_append_cons_self, List.filter_append]

@[simp]
theorem components_nil : components sep [] = [] := by
  unfold components
  rw [List.splitOn_nil, List.filter_cons_of_neg (by simp), List.filter_nil]

theorem components_cons (rest : List α) : components sep (sep :: rest) = components sep rest := by
  have h : components sep ([] ++ sep :: rest) = components sep [] ++ components sep rest := components_append [] rest
  rwa [List.nil_append, components_nil, List.nil_append] at h

theorem components_trailing (path : List α) : components sep (path ++ [sep]) = components sep path := by
  rw [components_append, components_nil, List.append_nil]

theorem components_piece {c : List α} (hc : sep ∉ c) (hne : c ≠ []) : components sep c = [c] := by
  unfold components
  rw [List.splitOn_eq_singleton hc, List.filter_cons_of_pos (by simpa using hne), List.filter_nil]

theorem components_eq_nil {path : List α} : components sep path = [] ↔ ∀ c ∈ path, c = sep := by
  induction h : path.length using Nat.strongRecOn generalizing path with
  | ind n ih =>
    by_cases hmem : sep ∈ path
    · obtain ⟨a, b, rfl⟩ := List.append_of_mem hmem
      have ha : a.length < n := by
        rw [← h, List.length_append]
        exact Nat.lt_add_of_pos_right (Nat.succ_pos _)
      have hb : b.length < n := by
        rw [← h, List.length_append, List.length_cons]
        omega
      rw [components_append, List.append_eq_nil_iff, ih _ ha rfl, ih _ hb rfl]
      simp only [List.forall_mem_append, List.forall_mem_cons, true_and]
    · cases path with
      | nil => simp
      | cons c path =>
        rw [components_piece hmem (List.cons_ne_nil c path)]
        refine ⟨fun h => absurd h (List.cons_ne_nil _ _), fun h => ?_⟩
        exact absurd (List.mem_cons.mpr (Or.inl (h c List.mem_cons_self).symm)) hmem

/-! ## Component by component -/

theorem components_dropWhile (path : List α) : components sep (path.dropWhile (· == sep)) = components sep path := by
  induction path with
  | nil => rfl
  | cons c path ih =>
    rw [List.dropWhile_cons]
    split
    · rename_i hc
      rw [ih, eq_of_beq hc, components_cons]
    · rfl

/-- The first component, and what follows it. -/
theorem components_first {c : α} (hc : c ≠ sep) (p : List α) :
    components sep (c :: p) = (c :: p.takeWhile (· != sep)) :: components sep (p.dropWhile (· != sep)) := by
  have hpiece : sep ∉ c :: p.takeWhile (· != sep) := by
    rw [List.mem_cons, not_or]
    exact ⟨Ne.symm hc, fun h => by simpa using List.mem_takeWhile_imp h⟩
  have hsplit : c :: p = (c :: p.takeWhile (· != sep)) ++ p.dropWhile (· != sep) := by
    rw [List.cons_append, List.takeWhile_append_dropWhile]
  have hone := components_piece hpiece (List.cons_ne_nil _ _)
  cases hrest : p.dropWhile (· != sep) with
  | nil =>
    rw [hrest, List.append_nil] at hsplit
    rw [hsplit, hone]
    rfl
  | cons d rest =>
    have hd : d = sep := by
      have h := List.head?_dropWhile_not (· != sep) p
      rw [hrest] at h
      simpa using h
    rw [hrest, hd] at hsplit
    rw [hsplit, components_append, hone, hd, components_cons]
    rfl

/-! ## Rendering -/

/-- Names that stand as components. -/
def Proper (sep : α) (names : List (List α)) : Prop := ∀ c ∈ names, c ≠ [] ∧ sep ∉ c

/-- The absolute path of some names. -/
def render (sep : α) (names : List (List α)) : List α := names.flatMap (sep :: ·)

theorem components_piece_render {c : List α} (hc : sep ∉ c) (hne : c ≠ []) (names : List (List α)) :
    components sep (c ++ render sep names) = c :: components sep (render sep names) := by
  cases names with
  | nil => rw [render, List.flatMap_nil, List.append_nil, components_piece hc hne, components_nil]
  | cons d names =>
    have hcons : render sep (d :: names) = sep :: (d ++ render sep names) := rfl
    rw [hcons, components_append, components_piece hc hne, components_cons]
    rfl

theorem components_render {names : List (List α)} (h : Proper sep names) :
    components sep (render sep names) = names := by
  induction names with
  | nil => exact components_nil
  | cons c names ih =>
    obtain ⟨hc, hnames⟩ := List.forall_mem_cons.mp h
    have hcons : render sep (c :: names) = sep :: (c ++ render sep names) := rfl
    rw [hcons, components_cons, components_piece_render hc.2 hc.1, ih hnames]

/-- The path of a node of a tree: its names rendered, or the separator alone for
the root. -/
def nodePath (sep : α) (names : List (List α)) : List α := if names = [] then [sep] else render sep names

theorem components_nodePath {names : List (List α)} (h : Proper sep names) :
    components sep (nodePath sep names) = names := by
  unfold nodePath
  split
  · rename_i hnil
    rw [hnil, components_cons, components_nil]
  · exact components_render h

/-! ## Descendants -/

/-- A path followed by the separator and at least one more component; the root is
the empty path here. -/
def Below (sep : α) (path below : List α) : Prop :=
  ∃ rest, components sep rest ≠ [] ∧ below = (if path = [sep] then [] else path) ++ sep :: rest

theorem Below.isPrefix {path below : List α} (h : Below sep path below) : path <+: below ∧ path ≠ below := by
  obtain ⟨rest, hne, rfl⟩ := h
  split
  · rename_i hroot
    subst hroot
    refine ⟨⟨rest, rfl⟩, ?_⟩
    rintro ⟨⟩
    exact hne components_nil
  · refine ⟨List.prefix_append _ _, fun h => ?_⟩
    exact absurd (List.self_eq_append_right.mp h) (List.cons_ne_nil _ _)

/-- A path that starts with another one without being below it. -/
def Beside (sep : α) (path other : List α) : Prop := path <+: other ∧ path ≠ other ∧ ¬Below sep path other

/-! ## Resolving a path -/

section
variable {N : Type} (child : N → List α → Option N)

/-- The node of a path in a tree, component by component. -/
def resolve (sep : α) (root : N) (path : List α) : Option N := (components sep path).foldlM child root

end
end

end DTFramework.Lib
