import DTFramework.Lib.Components
import DTFramework.Tools.LogRead

/-!
# The report of unused nodes

`get_unuse_node` keeps the nodes of a blob that were not looked up, and nothing
below them; `get_unuse_leaf_node` keeps those of them with no node below. Both
decide what is below a node by the start of its path.

`report_exact` says when that is right, for all paths; a sibling whose name
merely goes on is taken for a node below, which `soc_not_reported` shows.

Results:

* `report_ok`: what the two loops leave in their lists;
* `report_exact`: the paths for which both reports are right; `soc_not_reported` shows
  others.
-/
namespace DTFramework.Tools

open DTFramework.Fdt DTFramework.Extn DTFramework.Lib

/-- The globals with the two reports. mirrors tools/parse_dtb_log_script.py:8-17 -/
structure Report extends Globals where
  g_unused_node_name : List Dict
  g_unuse_leaf_node_name : List Dict

/-- The reports are empty until they are made. -/
def Report.init (g : Globals) : Report :=
  { g with g_unused_node_name := List.replicate 5 [], g_unuse_leaf_node_name := List.replicate 5 [] }

/-- `any_name.startswith(k) and len(any_name) > len(k)` of any name. -/
def anyLonger (k : Text) (names : List Text) : Bool :=
  names.any fun any_name => k.isPrefixOf any_name && decide (k.length < any_name.length)

/-- The comprehension over the nodes of a blob. -/
def unusedOf (dtb used : Dict) : Dict := dtb.filter fun x => !used.keys.contains x.1 && !anyLonger x.1 used.keys

/-- The comprehension over the unused nodes of a blob. -/
def leavesOf (dtb unused : Dict) : Dict := unused.filter fun x => !anyLonger x.1 dtb.keys

/-- What `get_unuse_node` sets for a blob, if it does.
mirrors tools/parse_dtb_log_script.py:113-114 -/
def unuseNode (g : Report) (i : Nat) : Except PyError (Option Dict) :=
  if g.g_dtb_name ≠ [] then do
    let dtb ← item g.g_dtb_name i
    if dtb ≠ [] then do
      let used ← item g.g_used_node_name i
      return some (unusedOf dtb used)
    else return none
  else return none

/-- What `get_unuse_leaf_node` sets for a blob, if it does.
mirrors tools/parse_dtb_log_script.py:118-119 -/
def unuseLeafNode (g : Report) (i : Nat) : Except PyError (Option Dict) := do
  let dtb ← item g.g_dtb_name i
  if dtb ≠ [] then do
    let unused ← item g.g_unused_node_name i
    if unused ≠ [] then return some (leavesOf dtb unused)
    else return none
  else return none

/-- One turn of either loop: it reads nothing of the list that it sets. -/
def fill (value : Nat → Except PyError (Option Dict)) (l : List Dict) (i : Nat) : Except PyError (List Dict) := do
  match ← value i with
  | some d => setItem l i d
  | none => pure l

/-- mirrors tools/parse_dtb_log_script.py:111-114 -/
def getUnuseNode (g : Report) : Except PyError Report := do
  let names ← (List.range 5).foldlM (fill (unuseNode g)) g.g_unused_node_name
  return { g with g_unused_node_name := names }

/-- mirrors tools/parse_dtb_log_script.py:116-119 -/
def getUnuseLeafNode (g : Report) : Except PyError Report := do
  let names ← (List.range 5).foldlM (fill (unuseLeafNode g)) g.g_unuse_leaf_node_name
  return { g with g_unuse_leaf_node_name := names }

/-- The reports on what was read of a log.
mirrors tools/parse_dtb_log_script.py:226-227 -/
def report (g : Globals) : Except PyError Report := do
  let g ← getUnuseNode (.init g)
  getUnuseLeafNode g

/-- The lists of nodes have a place for each of five blobs. -/
def Five (g : Globals) : Prop := g.g_dtb_name.length = 5 ∧ g.g_used_node_name.length = 5

/-! ## The loops -/

/-- Each turn sets the place of its own blob. -/
theorem fill_range {value : Nat → Except PyError (Option Dict)} {v : Nat → Option Dict} {l : List Dict} (n : Nat)
    (hv : ∀ i < n, value i = .ok (v i)) (hl : n ≤ l.length) :
    ∃ l', (List.range n).foldlM (fill value) l = .ok l' ∧ l'.length = l.length ∧
      ∀ j, l'.getD j [] = if j < n then (v j).getD (l.getD j []) else l.getD j [] := by
  induction n with
  | zero => exact ⟨l, rfl, rfl, fun j => (if_neg (Nat.not_lt_zero j)).symm⟩
  | succ n ih =>
    obtain ⟨l1, hrun, hlen, hget⟩ := ih (fun i hi => hv i (Nat.lt_succ_of_lt hi)) (Nat.le_of_succ_le hl)
    have hstep : (List.range (n + 1)).foldlM (fill value) l = fill value l1 n := by
      rw [List.range_succ, List.foldlM_append, hrun]
      exact bind_pure (fill value l1 n)
    have hval := hv n (Nat.lt_succ_self n)
    rw [hstep]
    unfold fill
    rw [hval]
    cases hvn : v n with
    | none =>
      refine ⟨l1, rfl, hlen, fun j => ?_⟩
      rw [hget j]
      by_cases hj : j = n
      · rw [hj, if_neg (Nat.lt_irrefl n), if_pos (Nat.lt_succ_self n), hvn, Option.getD_none]
      · rw [if_congr (by omega : j < n ↔ j < n + 1) rfl rfl]
    | some d =>
      have hset : setItem l1 (n : Int) d = .ok (l1.set n d) := setItem_ok (by omega) d
      refine ⟨l1.set n d, hset, by rw [List.length_set, hlen], fun j => ?_⟩
      by_cases hj : j = n
      · rw [hj, if_pos (Nat.lt_succ_self n), hvn, Option.getD_some, List.getD_eq_getElem?_getD,
          List.getElem?_set_self (by omega), Option.getD_some]
      · have hother : (l1.set n d).getD j [] = l1.getD j [] := by
          rw [List.getD_eq_getElem?_getD, List.getElem?_set_ne (Ne.symm hj), ← List.getD_eq_getElem?_getD]
        rw [hother, hget j, if_congr (by omega : j < n ↔ j < n + 1) rfl rfl]

section
variable {names used : List Text} {k : Text}

theorem anyLonger_iff : anyLonger k names = true ↔ ∃ n ∈ names, k <+: n ∧ k ≠ n := by
  unfold anyLonger
  rw [List.any_eq_true]
  refine exists_congr fun n => and_congr_right fun _ => ?_
  rw [Bool.and_eq_true, List.isPrefixOf_iff_prefix, decide_eq_true_iff]
  refine and_congr_right fun hpre => ⟨fun hlt heq => ?_, fun hne => ?_⟩
  · rw [heq] at hlt
    exact Nat.lt_irrefl _ hlt
  · exact Nat.lt_of_le_of_ne hpre.length_le fun heq => hne (hpre.eq_of_length heq)

theorem keys_filter (d : Dict) (p : Text → Bool) : Dict.keys (d.filter fun x => p x.1) = d.keys.filter p := by
  unfold Dict.keys
  rw [List.filter_map]
  rfl

theorem item_getD {l : List Dict} {i : Nat} (h : i < l.length) : item l (i : Int) = .ok (l.getD i []) := by
  rw [item_ok h, List.getD_eq_getElem?_getD, List.getElem?_eq_getElem h, Option.getD_some]

theorem unuseNode_ok {g : Report} (hdtb : g.g_dtb_name.length = 5) (hused : g.g_used_node_name.length = 5) {i : Nat}
    (hi : i < 5) :
    unuseNode g i = .ok (if g.g_dtb_name.getD i [] = [] then none
      else some (unusedOf (g.g_dtb_name.getD i []) (g.g_used_node_name.getD i []))) := by
  have hne : g.g_dtb_name ≠ [] := List.ne_nil_of_length_pos (hdtb ▸ Nat.zero_lt_succ 4)
  unfold unuseNode
  rw [if_pos hne, item_getD (hdtb ▸ hi), item_getD (hused ▸ hi)]
  by_cases hnil : g.g_dtb_name.getD i [] = []
  · rw [if_pos hnil, hnil]
    rfl
  · rw [if_neg hnil]
    exact if_pos hnil

theorem unuseLeafNode_ok {g : Report} (hdtb : g.g_dtb_name.length = 5) (hunused : g.g_unused_node_name.length = 5)
    {i : Nat}
    (hi : i < 5) :
    unuseLeafNode g i = .ok (if g.g_dtb_name.getD i [] = [] ∨ g.g_unused_node_name.getD i [] = [] then none
      else some (leavesOf (g.g_dtb_name.getD i []) (g.g_unused_node_name.getD i []))) := by
  unfold unuseLeafNode
  rw [item_getD (hdtb ▸ hi), item_getD (hunused ▸ hi)]
  by_cases hnil : g.g_dtb_name.getD i [] = []
  · rw [if_pos (Or.inl hnil), hnil]
    rfl
  · by_cases hempty : g.g_unused_node_name.getD i [] = []
    · rw [if_pos (Or.inr hempty), hempty]
      exact if_pos hnil
    · rw [if_neg (not_or.mpr ⟨hnil, hempty⟩)]
      exact (if_pos hnil).trans (if_pos hempty)

/-- What the two loops set, the lists of five being there. -/
theorem report_ok {g : Globals} (hg : Five g) :
    ∃ r, report g = .ok r ∧ ∀ i < 5,
      r.g_unused_node_name.getD i [] = unusedOf (g.g_dtb_name.getD i []) (g.g_used_node_name.getD i []) ∧
      r.g_unuse_leaf_node_name.getD i [] = leavesOf (g.g_dtb_name.getD i []) (r.g_unused_node_name.getD i []) := by
  obtain ⟨unused, hrun1, hlen1, hget1⟩ := fill_range (l := List.replicate 5 []) 5
    (fun i hi => unuseNode_ok (g := .init g) hg.1 hg.2 hi) (Nat.le_refl 5)
  obtain ⟨leaves, hrun2, hlen2, hget2⟩ := fill_range (l := List.replicate 5 []) 5
    (fun i hi => unuseLeafNode_ok (g := { Report.init g with g_unused_node_name := unused }) hg.1 hlen1 hi)
    (Nat.le_refl 5)
  have hempty (i : Nat) : (List.replicate 5 ([] : Dict)).getD i [] = [] := by
    rw [List.getD_eq_getElem?_getD, List.getElem?_replicate]
    split <;> rfl
  have hunused (i : Nat) (hi : i < 5) : unused.getD i [] = unusedOf (g.g_dtb_name.getD i [])
      (g.g_used_node_name.getD i []) := by
    rw [hget1 i, if_pos hi, hempty]
    change (if g.g_dtb_name.getD i [] = [] then none else _).getD [] = _
    split
    · rename_i hnil
      rw [hnil]
      rfl
    · rfl
  have hleaves (i : Nat) (hi : i < 5) : leaves.getD i [] = leavesOf (g.g_dtb_name.getD i []) (unused.getD i []) := by
    rw [hget2 i, if_pos hi, hempty]
    change (if g.g_dtb_name.getD i [] = [] ∨ unused.getD i [] = [] then none else _).getD [] = leavesOf _
      (unused.getD i [])
    split
    · rename_i hnil
      have hnone : unused.getD i [] = [] := hnil.elim (fun h => by rw [hunused i hi, h]; rfl) id
      rw [hnone]
      rfl
    · rfl
  have hnode : getUnuseNode (.init g) = .ok { Report.init g with g_unused_node_name := unused } := by
    unfold getUnuseNode
    rw [show (Report.init g).g_unused_node_name = List.replicate 5 [] from rfl, hrun1]
    rfl
  have hleaf : getUnuseLeafNode { Report.init g with g_unused_node_name := unused } =
      .ok { Report.init g with g_unused_node_name := unused, g_unuse_leaf_node_name := leaves } := by
    unfold getUnuseLeafNode
    rw [show (Report.init g).g_unuse_leaf_node_name = List.replicate 5 [] from rfl, hrun2]
    rfl
  refine ⟨{ Report.init g with g_unused_node_name := unused, g_unuse_leaf_node_name := leaves }, ?_,
    fun i hi => ⟨hunused i hi, hleaves i hi⟩⟩
  unfold report
  rw [hnode]
  exact hleaf

/-! ## What the reports say -/

/-- A node that was not looked up, nor any below it. -/
def Unused (names used : List Text) (k : Text) : Prop := k ∈ names ∧ k ∉ used ∧ ∀ u ∈ used, ¬Below '/' k u

/-- Both reports are right: the unused nodes, and those of them that have no node below. -/
def Exact (names used unused leaves : List Text) : Prop :=
  (∀ k, k ∈ unused ↔ Unused names used k) ∧ ∀ k, k ∈ leaves ↔ Unused names used k ∧ ∀ n ∈ names, ¬Below '/' k n

/-- No path merely goes on where an unused node's ends: no used path for any, and no
node's path for one that has no node below. -/
def Clear (names used : List Text) : Prop :=
  ∀ k, Unused names used k → (∀ u ∈ used, ¬Beside '/' k u) ∧
  ((∀ n ∈ names, ¬Below '/' k n) → ∀ n ∈ names, ¬Beside '/' k n)

theorem anyLonger_eq : anyLonger k names = true ↔ ∃ n ∈ names, Below '/' k n ∨ Beside '/' k n := by
  rw [anyLonger_iff]
  refine exists_congr fun n => and_congr_right fun _ => ⟨fun h => ?_, fun h => ?_⟩
  · by_cases hbelow : Below '/' k n
    · exact Or.inl hbelow
    · exact Or.inr ⟨h.1, h.2, hbelow⟩
  · exact h.elim Below.isPrefix fun h => ⟨h.1, h.2.1⟩

theorem anyLonger_false : anyLonger k names = false ↔ (∀ n ∈ names, ¬Below '/' k n) ∧ ∀ n ∈ names,
    ¬Beside '/' k n := by
  rw [← Bool.not_eq_true, anyLonger_eq]
  simp only [not_exists, not_and, not_or, ← forall_and]

theorem mem_unusedOf (dtb used : Dict) : k ∈ Dict.keys (unusedOf dtb used) ↔
    Unused dtb.keys used.keys k ∧ ∀ u ∈ used.keys, ¬Beside '/' k u := by
  unfold unusedOf Unused
  rw [keys_filter dtb fun k => !used.keys.contains k && !anyLonger k used.keys, List.mem_filter]
  simp only [Bool.and_eq_true, Bool.not_eq_true', List.contains_eq_mem, decide_eq_false_iff_not, anyLonger_false,
    and_assoc]

theorem mem_leavesOf (dtb unused : Dict) : k ∈ Dict.keys (leavesOf dtb unused) ↔
    k ∈ unused.keys ∧ (∀ n ∈ dtb.keys, ¬Below '/' k n) ∧ ∀ n ∈ dtb.keys, ¬Beside '/' k n := by
  unfold leavesOf
  rw [keys_filter unused fun k => !anyLonger k dtb.keys, List.mem_filter]
  simp only [Bool.not_eq_true', anyLonger_false]

theorem exact_iff (dtb used : Dict) :
    Exact dtb.keys used.keys (Dict.keys (unusedOf dtb used)) (Dict.keys (leavesOf dtb (unusedOf dtb used))) ↔
      Clear dtb.keys used.keys := by
  unfold Exact Clear
  simp only [mem_leavesOf, mem_unusedOf]
  constructor
  · rintro ⟨hunused, hleaves⟩ k hk
    refine ⟨((hunused k).mpr hk).2, fun hbelow => ?_⟩
    exact ((hleaves k).mpr ⟨hk, hbelow⟩).2.2
  · intro h
    refine ⟨fun k => ⟨And.left, fun hk => ⟨hk, (h k hk).1⟩⟩, fun k => ⟨fun hk => ⟨hk.1.1, hk.2.1⟩, fun hk => ?_⟩⟩
    exact ⟨⟨hk.1, (h k hk.1).1⟩, hk.2, (h k hk.1).2 hk.2⟩

/-- The reports of each blob, whatever nodes it has and whatever was looked up. -/
theorem report_exact {g : Globals} (hg : Five g) :
    ∃ r, report g = .ok r ∧ ∀ i < 5,
      (Exact (Dict.keys (g.g_dtb_name.getD i [])) (Dict.keys (g.g_used_node_name.getD i []))
          (Dict.keys (r.g_unused_node_name.getD i [])) (Dict.keys (r.g_unuse_leaf_node_name.getD i [])) ↔
        Clear (Dict.keys (g.g_dtb_name.getD i [])) (Dict.keys (g.g_used_node_name.getD i []))) := by
  obtain ⟨r, hr, hall⟩ := report_ok hg
  refine ⟨r, hr, fun i hi => ?_⟩
  rw [(hall i hi).2, (hall i hi).1]
  exact exact_iff _ _

/-- The globals when one blob was read, with its nodes and those looked up. -/
def oneBlob (names used : List Text) : Globals :=
  { Globals.init with
    g_dtb_name := (names.map fun k => (k, hashDjb2 k)) :: List.replicate 4 []
    g_used_node_name := (used.map fun k => (k, hashDjb2 k)) :: List.replicate 4 [] }

/-- No path of the blob goes on where `/soc` ends. -/
theorem report_of_siblings : ∃ r, report (oneBlob ["/soc".toList, "/uart".toList] ["/uart".toList]) = .ok r ∧
    Clear ["/soc".toList, "/uart".toList] ["/uart".toList] ∧
      Exact ["/soc".toList, "/uart".toList] ["/uart".toList] (Dict.keys (r.g_unused_node_name.getD 0 []))
        (Dict.keys (r.g_unuse_leaf_node_name.getD 0 [])) := by
  obtain ⟨r, hr, hall⟩ := report_exact (g := oneBlob ["/soc".toList, "/uart".toList] ["/uart".toList]) ⟨rfl, rfl⟩
  have hclear : Clear ["/soc".toList, "/uart".toList] ["/uart".toList] := by
    rintro k ⟨hk, hused, -⟩
    obtain rfl | rfl : k = "/soc".toList ∨ k = "/uart".toList := by simpa using hk
    · have hbeside : ∀ n ∈ ["/soc".toList, "/uart".toList], ¬Beside '/' "/soc".toList n := by
        rintro n hn ⟨hpre, hne, -⟩
        obtain rfl | rfl : n = "/soc".toList ∨ n = "/uart".toList := by simpa using hn
        · exact hne rfl
        · exact absurd hpre (by decide)
      exact ⟨fun u hu => hbeside u (List.mem_cons_of_mem _ hu), fun _ => hbeside⟩
    · exact absurd List.mem_cons_self hused
  exact ⟨r, hr, hclear, (hall 0 (by decide)).mpr hclear⟩

/-- `/soc2` was looked up and `/soc` was not, which no report says. -/
theorem soc_not_reported : ∃ r, report (oneBlob ["/soc".toList, "/soc2".toList] ["/soc2".toList]) = .ok r ∧
    ¬Exact ["/soc".toList, "/soc2".toList] ["/soc2".toList] (Dict.keys (r.g_unused_node_name.getD 0 []))
      (Dict.keys (r.g_unuse_leaf_node_name.getD 0 [])) := by
  obtain ⟨r, hr, hall⟩ := report_ok (g := oneBlob ["/soc".toList, "/soc2".toList] ["/soc2".toList]) ⟨rfl, rfl⟩
  refine ⟨r, hr, fun h => ?_⟩
  have hsoc : "/soc".toList ∈ Dict.keys (r.g_unused_node_name.getD 0 []) := by
    refine (h.1 _).mpr ⟨by decide, by decide, ?_⟩
    rintro u hu ⟨rest, -, hrest⟩
    rw [List.mem_singleton] at hu
    have hslash : "/soc/".toList <+: "/soc2".toList := ⟨rest, by rw [← hu, hrest]; rfl⟩
    exact absurd hslash (by decide)
  rw [(hall 0 (by decide)).1] at hsoc
  revert hsoc
  decide

end

/-! ## After a log was read -/

section
variable {g g' : Globals}

theorem setItem_length {α : Type} {l l' : List α} {i : Int} {x : α} (h : setItem l i x = .ok l') :
    l'.length = l.length := by
  unfold setItem at h
  split at h
  · cases h
    exact List.length_set
  · cases h

theorem usedLine_five {line : Text} (h : usedLine g line = .ok g') (hg : Five g) : Five g' := by
  unfold usedLine at h
  split at h
  · split at h
    · obtain ⟨address, -, h⟩ := except_bind_ok h
      split at h
      · obtain ⟨used, -, h⟩ := except_bind_ok h
        obtain ⟨used', hused, h⟩ := except_bind_ok h
        have hlen : Five { g with g_used_node_name := used' } := ⟨hg.1, (setItem_length hused).trans hg.2⟩
        dsimp only at h
        split at h
        · obtain ⟨cost, -, h⟩ := except_bind_ok h
          obtain ⟨nodes, -, h⟩ := except_bind_ok h
          obtain ⟨times, -, h⟩ := except_bind_ok h
          obtain ⟨dtb, -, h⟩ := except_bind_ok h
          obtain ⟨others, -, h⟩ := except_bind_ok h
          obtain ⟨others', -, h⟩ := except_bind_ok h
          cases h
          exact hlen
        · obtain ⟨times, -, h⟩ := except_bind_ok h
          obtain ⟨dtb, -, h⟩ := except_bind_ok h
          obtain ⟨others, -, h⟩ := except_bind_ok h
          obtain ⟨others', -, h⟩ := except_bind_ok h
          cases h
          exact hlen
      · cases h
        exact hg
    · cases h
      exact hg
  · cases h
    exact hg

theorem usedLines_five (lines : List Text) (h : lines.foldlM usedLine g = .ok g') (hg : Five g) : Five g' := by
  induction lines generalizing g with
  | nil =>
    cases h
    exact hg
  | cons line lines ih =>
    obtain ⟨g1, h1, h⟩ := except_bind_ok h
    exact ih h (usedLine_five h1 hg)

theorem endBlob_five {lines : List Text} {line : Text} (h : endBlob lines line g = .ok g') (hg : Five g) :
    Five g' := by
  unfold endBlob at h
  dsimp only at h
  split at h
  · obtain ⟨times, -, h⟩ := except_bind_ok h
    exact usedLines_five lines h hg
  · exact usedLines_five lines h hg

theorem nodeLine_five {line : Text} (h : nodeLine line g = .ok g') (hg : Five g) : Five g' := by
  unfold nodeLine at h
  split at h
  · obtain ⟨dtb, -, h⟩ := except_bind_ok h
    obtain ⟨names, hnames, h⟩ := except_bind_ok h
    cases h
    exact ⟨(setItem_length hnames).trans hg.1, hg.2⟩
  · cases h
    exact hg

theorem parseLines_five {lines rest : List Text} {flag : Bool} {status : Int}
    (h : parseLines lines rest flag g = .ok (status, g'))
    (hg : Five g) : Five g' := by
  induction rest generalizing flag g with
  | nil =>
    cases h
    exact hg
  | cons line rest ih =>
    rw [parseLines] at h
    split at h
    · split at h
      · exact ih h hg
      · cases h
        exact hg
    · split at h
      · split at h
        · obtain ⟨g1, hend, h⟩ := except_bind_ok h
          exact ih h (endBlob_five hend hg)
        · cases h
          exact hg
      · split at h
        · obtain ⟨g1, hnode, h⟩ := except_bind_ok h
          exact ih h (nodeLine_five hnode hg)
        · exact ih h hg

theorem read_five {r : Reader} {log : Str} {status : Int} (h : getAllAndUsedDtbNodes r log .init = .ok (status, g)) :
    Five g := by
  unfold getAllAndUsedDtbNodes at h
  split at h
  · exact parseLines_five h ⟨rfl, rfl⟩
  · cases h

end

end DTFramework.Tools
