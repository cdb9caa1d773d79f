import DTFramework.Extn.Bounds
import DTFramework.Lib.Components

/-!
# Directory and name of a path

`fdt_get_node_handle` looks a node up in its parent, whose path and the node's
name `dirname` makes of the path. `dirname_resolves` is that this denotes the same
node, whatever slashes the path has, and `splitName_exact` says it of the
offsets that libfdt finds in a blob.

Results:

* `dirname_components`: the directory is the path without its last component;
* `dirname_resolves`: looking the rest up in it is looking the path up, in any tree;
* `pathWalk_resolve`, `splitName_exact`: the same of libfdt's offsets, and of the
  buffers.
-/
namespace DTFramework.Extn

open DTFramework.Fdt DTFramework.Lib

/-! ## The last slash -/

/-- The loop of `strr_chr`, with `end` that many bytes behind the start.
mirrors libs/DTBExtnLib/DTBExtnLib_node.c:394-416 -/
def strrChr (str : Str) (c : UInt8) : Nat → Option Nat
  | 0 => none
  | n + 1 => if str[n]? = some c then some n else strrChr str c n

theorem strrChr_none {str : Str} {c : UInt8} (h : c ∉ str) (n : Nat) : strrChr str c n = none := by
  induction n with
  | zero => rfl
  | succ n ih =>
    rw [strrChr, if_neg, ih]
    exact fun hn => h (List.mem_of_getElem? hn)

theorem strrChr_last (dir : Str) {base : Str} {c : UInt8} (h : c ∉ base) :
    strrChr (dir ++ c :: base) c (dir ++ c :: base).length = some dir.length := by
  have hall (n : Nat) : n ≤ base.length → strrChr (dir ++ c :: base) c (dir.length + 1 + n) = some dir.length := by
    induction n with
    | zero =>
      intro _
      rw [Nat.add_zero, strrChr, if_pos]
      rw [List.getElem?_append_right (Nat.le_refl _), Nat.sub_self]
      rfl
    | succ n ih =>
      intro hn
      have hbyte : (dir ++ c :: base)[dir.length + 1 + n]? = base[n]? := by
        rw [List.getElem?_append_right (by omega), show dir.length + 1 + n - dir.length = n + 1 by omega]
        rfl
      rw [← Nat.add_assoc, strrChr, hbyte, if_neg, ih (Nat.le_of_succ_le hn)]
      exact fun hc => h (List.mem_of_getElem? hc)
  have hlen : (dir ++ c :: base).length = dir.length + 1 + base.length := by
    rw [List.length_append, List.length_cons]
    omega
  rw [hlen]
  exact hall base.length (Nat.le_refl _)

theorem splitLast_none {path : Str} (h : splitLast path = none) : SLASH ∉ path := by
  induction path with
  | nil => exact List.not_mem_nil
  | cons c s ih =>
    unfold splitLast at h
    split at h
    · cases h
    · rename_i hs
      split at h
      · cases h
      · rename_i hc
        rw [List.mem_cons, not_or]
        exact ⟨fun hslash => hc hslash.symm, ih hs⟩

theorem drop_last (dir base : Str) : (dir ++ SLASH :: base).drop (dir.length + 1) = base := by
  rw [← List.drop_drop, List.drop_left]
  rfl

/-- The two parts of a path, from the pointer that `strr_chr` returns. -/
theorem splitLast_strrChr (path : Str) : splitLast path =
    (strrChr path SLASH path.length).map fun last_slash => (path.take last_slash, path.drop (last_slash + 1)) := by
  cases h : splitLast path with
  | none => rw [strrChr_none (splitLast_none h), Option.map_none]
  | some parts =>
    obtain ⟨dir, base⟩ := parts
    obtain ⟨rfl, hbase⟩ := splitLast_eq h
    rw [strrChr_last dir hbase, Option.map_some, List.take_left, drop_last]

/-- `dirname` by the place of the last slash, case by case. -/
theorem dirname_strrChr (path : Str) : dirname path =
    match strrChr path SLASH path.length with
    | none => ([46], none)
    | some last_slash =>
      if last_slash = 0 then ([SLASH], if path.length = 1 then none else some (path.drop 1))
      else if last_slash = 1 ∧ path.head? = some SLASH then ([SLASH], some (path.drop 2))
      else if last_slash = path.length - 1 then dirname (path.take last_slash)
      else (path.take last_slash, some (path.drop (last_slash + 1))) := by
  cases h : splitLast path with
  | none =>
    rw [strrChr_none (splitLast_none h), dirname]
    split
    · rfl
    · rename_i hs
      rw [h] at hs
      cases hs
  | some parts =>
    obtain ⟨dir, base⟩ := parts
    obtain ⟨hpath, hbase⟩ := splitLast_eq h
    have hlast : strrChr path SLASH path.length = some dir.length := by
      rw [hpath]
      exact strrChr_last dir hbase
    have hdir : path.take dir.length = dir := by rw [hpath, List.take_left]
    have hrest : path.drop (dir.length + 1) = base := by rw [hpath, drop_last]
    have hlen : path.length = dir.length + 1 + base.length := by
      rw [hpath, List.length_append, List.length_cons]
      omega
    rw [hlast, dirname]
    split
    · rename_i hs
      rw [h] at hs
      cases hs
    rename_i dir' base' hs
    rw [h] at hs
    cases hs
    dsimp only
    rw [hdir, hrest]
    have hone : dir = [SLASH] ↔ dir.length = 1 ∧ path.head? = some SLASH := by
      rw [hpath]
      cases dir with
      | nil => simp
      | cons c dir =>
        cases dir with
        | nil => simp
        | cons d dir => simp
    by_cases h0 : dir = []
    · have hdrop : path.drop 1 = base := by rw [← hrest, h0, List.length_nil]
      have hnil : base = [] ↔ path.length = 1 := by
        rw [hlen, h0, List.length_nil, ← List.length_eq_zero_iff]
        omega
      rw [if_pos h0, if_pos (List.length_eq_zero_iff.mpr h0), hdrop]
      simp only [hnil]
    · rw [if_neg h0, if_neg (mt List.length_eq_zero_iff.mp h0)]
      by_cases h1 : dir = [SLASH]
      · have hdrop : path.drop 2 = base := by rw [← hrest, h1, List.length_singleton]
        rw [if_pos h1, if_pos (hone.mp h1), hdrop]
      · have hnil : base = [] ↔ dir.length = path.length - 1 := by
          rw [hlen, ← List.length_eq_zero_iff]
          omega
        rw [if_neg h1, if_neg (mt hone.mpr h1)]
        simp only [hnil]

/-! ## What is looked up -/

theorem components_ne_nil {path : Str} (hname : ∃ c ∈ path, c ≠ SLASH) : components SLASH path ≠ [] := by
  intro h
  obtain ⟨c, hc, hne⟩ := hname
  exact hne (components_eq_nil.mp h c hc)

/-- The directory is the path without its last component, if the path is absolute
and has one. -/
theorem dirname_components (path : Str) : path.head? = some SLASH → components SLASH path ≠ [] →
    ∃ dir base, dirname path = (dir, some base) ∧ dir.head? = some SLASH ∧ base ≠ [] ∧ SLASH ∉ base ∧
      components SLASH path = components SLASH dir ++ [base] := by
  fun_induction dirname path with
  | case1 path h =>
    intro hslash
    exact absurd (List.mem_of_mem_head? hslash) (splitLast_none h)
  | case2 path base h =>
    intro _ hcomp
    obtain ⟨rfl, hbase⟩ := splitLast_eq h
    rw [List.nil_append, components_cons] at hcomp ⊢
    have hne : base ≠ [] := fun hnil => hcomp (by rw [hnil, components_nil])
    refine ⟨[SLASH], base, by rw [if_neg hne], rfl, hne, hbase, ?_⟩
    rw [components_piece hbase hne]
    rfl
  | case3 path base h hne =>
    intro _ hcomp
    obtain ⟨rfl, hbase⟩ := splitLast_eq h
    have hroot : components SLASH [SLASH] = [] := rfl
    rw [components_append, hroot, List.nil_append] at hcomp
    have hne : base ≠ [] := fun hnil => hcomp (by rw [hnil, components_nil])
    refine ⟨[SLASH], base, rfl, rfl, hne, hbase, ?_⟩
    rw [components_append, components_piece hbase hne]
  | case4 path dir h0 h1 h ih =>
    intro hslash hcomp
    obtain ⟨rfl, -⟩ := splitLast_eq h
    rw [List.head?_append_of_ne_nil _ h0] at hslash
    rw [components_trailing] at hcomp ⊢
    exact ih hslash hcomp
  | case5 path dir base h h0 h1 h2 =>
    intro hslash _
    obtain ⟨rfl, hbase⟩ := splitLast_eq h
    rw [List.head?_append_of_ne_nil _ h0] at hslash
    refine ⟨dir, base, rfl, hslash, h2, hbase, ?_⟩
    rw [components_append, components_piece hbase h2]

section
variable {path : Str} {N : Type} (child : N → Str → Option N)

theorem resolve_of_components {dir base : Str} (h : components SLASH path = components SLASH dir ++ [base])
    (root : N) :
    resolve child SLASH root path = (resolve child SLASH root dir).bind fun n => child n base := by
  unfold resolve
  rw [h, List.foldlM_append]
  refine bind_congr fun n => ?_
  exact bind_pure (child n base)

/-- The last component goes to `basename`, and looking it up in the directory is
looking the path up, in any tree. -/
theorem dirname_resolves (hslash : path.head? = some SLASH) (hname : ∃ c ∈ path, c ≠ SLASH) :
    ∃ dir base, dirname path = (dir, some base) ∧ (components SLASH path).getLast? = some base ∧ dir ≠ [] ∧
      ∀ (N : Type) (child : N → Str → Option N) (root : N),
        resolve child SLASH root path = (resolve child SLASH root dir).bind fun n => child n base := by
  obtain ⟨dir, base, hdir, habs, -, -, hcomp⟩ := dirname_components path hslash (components_ne_nil hname)
  refine ⟨dir, base, hdir, ?_, ?_, fun N child root => resolve_of_components child hcomp root⟩
  · rw [hcomp, List.getLast?_append]
    rfl
  · rintro rfl
    cases habs

/-- "//soc///uart//": the directory keeps its slashes. -/
theorem dirname_soc_uart : ∃ dir base, dirname [47, 47, 115, 111, 99, 47, 47, 47, 117, 97, 114, 116, 47, 47] =
    (dir, some base) ∧
    (components SLASH [47, 47, 115, 111, 99, 47, 47, 47, 117, 97, 114, 116, 47, 47]).getLast? = some base ∧ dir ≠ [] ∧
      ∀ (N : Type) (child : N → Str → Option N) (root : N),
        resolve child SLASH root [47, 47, 115, 111, 99, 47, 47, 47, 117, 97, 114, 116, 47, 47] =
          (resolve child SLASH root dir).bind fun n => child n base :=
  dirname_resolves rfl ⟨115, by decide, by decide⟩

end

/-! ## In a blob -/

/-- The subnode of a name, if libfdt finds one. -/
def childOf (f : Blob) (node : Int) (name : Str) : Option Int :=
  if subnodeOffset f node name < 0 then none else some (subnodeOffset f node name)

theorem resolve_first {N : Type} (child : N → Str → Option N) {path p : Str} {c : UInt8}
    (h : path.dropWhile (· == SLASH) = c :: p)
    (root : N) : resolve child SLASH root path =
      (child root (c :: p.takeWhile (· != SLASH))).bind fun n => resolve child SLASH n (p.dropWhile (· != SLASH)) := by
  have hc : c ≠ SLASH := by
    have hhead := List.head?_dropWhile_not (· == SLASH) path
    rw [h] at hhead
    simpa using hhead
  unfold resolve
  rw [← components_dropWhile, h, components_first hc]
  rfl

/-- libfdt resolves a path component by component. -/
theorem pathWalk_resolve (f : Blob) (offset : Int) (path : Str) : 0 ≤ offset →
    resolve (childOf f) SLASH offset path = if pathWalk f offset path < 0 then none
        else some (pathWalk f offset path) := by
  fun_induction pathWalk f offset path with
  | case1 offset path h =>
    intro h0
    have hnone : components SLASH path = [] := by rw [← components_dropWhile, h, components_nil]
    rw [if_neg (Int.not_lt.mpr h0), resolve, hnone]
    rfl
  | case2 offset path c p h next hneg =>
    intro _
    have hchild : childOf f offset (c :: p.takeWhile (· != SLASH)) = none := if_pos hneg
    rw [if_pos hneg, resolve_first _ h, hchild]
    rfl
  | case3 offset path c p h next hnext ih =>
    intro _
    have hchild : childOf f offset (c :: p.takeWhile (· != SLASH)) = some next := if_neg hnext
    rw [resolve_first _ h, hchild]
    exact ih (Int.not_lt.mp hnext)

theorem pathOffset_resolve {f : Blob} {path : Str} (hprobe : 0 ≤ roProbe f) (hslash : path.head? = some SLASH) :
    resolve (childOf f) SLASH 0 path = if pathOffset f path < 0 then none else some (pathOffset f path) := by
  have hne : path ≠ [] := by
    rintro rfl
    cases hslash
  have hwalk : pathOffset f path = pathWalk f 0 path := by
    unfold pathOffset
    rw [if_neg (Int.not_lt.mpr hprobe), if_neg hne, if_pos hslash]
  rw [hwalk]
  exact pathWalk_resolve f 0 path (Int.le_refl 0)

theorem pathOffset_probe {f : Blob} (h : roProbe f < 0) (path : Str) : pathOffset f path < 0 := by
  unfold pathOffset
  rwa [if_pos h]

/-- The last component is a subnode of the directory, by the offsets of a blob. -/
theorem pathOffset_of_components {f : Blob} {path dir base : Str} {offset : Int} (hslash : path.head? = some SLASH)
    (habs : dir.head? = some SLASH) (hcomp : components SLASH path = components SLASH dir ++ [base])
    (h0 : 0 ≤ offset) :
    pathOffset f path = offset ↔ 0 ≤ pathOffset f dir ∧ subnodeOffset f (pathOffset f dir) base = offset := by
  by_cases hprobe : roProbe f < 0
  · have hpath := pathOffset_probe hprobe path
    have hdir := pathOffset_probe hprobe dir
    constructor <;> intro h <;> omega
  · have hwhole := pathOffset_resolve (Int.not_lt.mp hprobe) hslash
    rw [resolve_of_components (childOf f) hcomp, pathOffset_resolve (Int.not_lt.mp hprobe) habs] at hwhole
    by_cases hdir : pathOffset f dir < 0
    · rw [if_pos hdir] at hwhole
      have hpath : pathOffset f path < 0 := by
        by_contra hpath
        rw [if_neg hpath] at hwhole
        cases hwhole
      constructor <;> intro h <;> omega
    · rw [if_neg hdir, Option.bind_some, childOf] at hwhole
      -- the two lookups fail together, or find the same offset
      split at hwhole
      · rename_i hpath
        split at hwhole
        · constructor <;> intro h <;> omega
        · cases hwhole
      · rename_i hpath
        split at hwhole
        · cases hwhole
        · have hsame := Option.some_inj.mp hwhole
          rw [hsame]
          exact ⟨fun h => ⟨Int.not_lt.mp hdir, h⟩, And.right⟩

/-- Of an absolute path with a name, the buffers hold a directory and a name that
lead to the node of the path. -/
theorem splitName_exact {name : Str} (s : LibState) (hslash : name.head? = some SLASH) (hname : ∃ c ∈ name, c ≠ SLASH)
    (hlen : name.length < PATH_SIZE) :
    ∃ dir s', splitName name s = .ok (dir, s') ∧ ∀ (f : Blob) (offset : Int), 0 ≤ offset →
      (pathOffset f name = offset ↔ 0 ≤ pathOffset f dir ∧
        subnodeOffset f (pathOffset f dir) s'.basename = offset) := by
  obtain ⟨dir, base, hdir, habs, -, -, hcomp⟩ := dirname_components name hslash (components_ne_nil hname)
  have hbase : ¬PATH_SIZE ≤ base.length := by
    have hle := (dirname_bounds name).2 base
    rw [hdir] at hle
    exact Nat.not_le.mpr ((hle rfl).trans_lt hlen)
  refine ⟨dir, { s with basename := base }, ?_, fun f offset h0 => pathOffset_of_components hslash habs hcomp h0⟩
  unfold splitName
  rw [if_neg (Nat.not_le.mpr hlen), hdir]
  exact if_neg hbase

end DTFramework.Extn
