import DTFramework.Extn.Driver
import DTFramework.Tree.Traverse

/-!
# Searching by `compatible`

`fdt_get_next_node_handle_for_compatible` moves a handle to the next node that
has a string in its `compatible` list. A driver calls it again and again, and so
comes to all such nodes after its first handle, in the order of the tree
(`compatible_enumerates`). The list search looks at the byte after the list as if
it were one of the list's (`stringlistContains_iff`), which is no difference when
the list is terminated.

Results:

* `stringlistContains_iff`: the list is searched with the byte after it;
* `nodeOffsetByCompatible_flat`: one search;
* `compatible_enumerates`: the calls of a driver.
-/
namespace DTFramework.Fdt

open DTFramework.Lib DTFramework.Extn

/-- "compatible" -/
abbrev COMPATIBLE : Str := [99, 111, 109, 112, 97, 116, 105, 98, 108, 101]

/-- mirrors libs/libfdt/fdt_ro.c:735-750. The length of `str` is an `int`. -/
def stringlistContains (f : Blob) (strlist : Nat) (listlen : Int) (str : Str) : Bool :=
  if (str.length : Int) ≤ listlen then
    if memcmp f strlist (str ++ [0]) then true
    else
      -- what `memchr` finds
      let p := (cstr f.rd strlist listlen.toNat).length
      if _h : p < listlen.toNat then stringlistContains f (strlist + (p + 1)) (listlen - (p + 1)) str else false
  else false
termination_by listlen.toNat

/-- mirrors libs/libfdt/fdt_ro.c:852-863 -/
def nodeCheckCompatible (f : Blob) (nodeoffset : Int) (compatible : Str) : Int :=
  match getprop f nodeoffset COMPATIBLE with
  | .error len => len
  | .ok (prop, len) => if stringlistContains f prop len compatible then 0 else 1

/-- The loop of `fdt_node_offset_by_compatible` after the node at `offset`. -/
def compatibleScan (f : Blob) (compatible : Str) (offset : Int) : Int :=
  let next := (nextNode f offset none).1
  if _h : next < 0 then next
  else
    let err := nodeCheckCompatible f next compatible
    if err < 0 ∧ err ≠ -FDT_ERR_NOTFOUND then err
    else if err = 0 then next
    else compatibleScan f compatible next
termination_by nodeRoom offset
decreasing_by exact nextNode_room (Int.not_lt.mp _h)

/-- mirrors libs/libfdt/fdt_ro.c:865-888 -/
def nodeOffsetByCompatible (f : Blob) (startoffset : Int) (compatible : Str) : Int :=
  if roProbe f < 0 then roProbe f else compatibleScan f compatible startoffset

/-- mirrors libs/DTBExtnLib/DTBExtnLib_driver.c:43-71: the status and the handle. -/
def getNextNodeHandleForCompatible (m : Mem) (node : NodeHandle) (compatible : Str) : Int × NodeHandle :=
  let offset := nodeOffsetByCompatible (blobAt m node.blob) node.offset compatible
  if offset < 0 then (offset, node) else (FDT_ERR_QC_NOERROR, { node with offset })

/-- A node with a string in its `compatible` list. -/
def NodeData.compatibleWith (a : NodeData) (compatible : Str) : Bool :=
  (a.value COMPATIBLE).elim false fun v => decide (compatible ∈ strings v)

/-- The nodes after a node that are compatible, in the order of the tree. -/
def compatibleAfter (n : Place NodeData) (compatible : Str) : List (Place NodeData) :=
  n.later.filter fun n' => n'.label.compatibleWith compatible

/-- The strings of the `compatible` list are terminated. -/
def NodeData.Listed (a : NodeData) : Prop := ∀ v, a.value COMPATIBLE = some v → Terminated v

/-! ## The list -/

section
variable {f : Blob} {q n : Nat} {str : Str}

theorem string_same {s : Str} (h : str ++ [0] <+: s ++ [0]) (hs : 0 ∉ s) : str = s := by
  rcases List.prefix_concat_iff.mp h with heq | hpre
  · exact List.append_cancel_right heq
  · exact absurd (hpre.subset (List.mem_append_right str (List.mem_singleton_self 0))) hs

theorem zero_mem_bytesAt {m : Nat} (h : (cstr f.rd q n).length < n) (hm : n ≤ m) : 0 ∈ bytesAt f q m := by
  have hstop := cstr_stop h
  exact List.mem_map.mpr ⟨_, List.mem_range.mpr (Nat.lt_of_lt_of_le h hm), hstop⟩

theorem stringlistContains_eq (f : Blob) (q n : Nat) (str : Str) : stringlistContains f q n str =
    if str.length ≤ n then
      if memcmp f q (str ++ [0]) then true
      else if (cstr f.rd q n).length < n then
        stringlistContains f (q + ((cstr f.rd q n).length + 1)) ((n - ((cstr f.rd q n).length + 1) : Nat) : Int) str
      else false
    else false := by
  rw [stringlistContains, Int.toNat_natCast]
  simp only [Int.ofNat_le]
  by_cases hp : (cstr f.rd q n).length < n
  · have hleft : (n : Int) - (((cstr f.rd q n).length : Int) + 1) =
        ((n - ((cstr f.rd q n).length + 1) : Nat) : Int) := by
      omega
    rw [dif_pos hp, if_pos hp, hleft]
  · rw [dif_neg hp, if_neg hp]

/-- The list is searched with the byte after it. -/
theorem stringlistContains_iff (hstr : 0 ∉ str) (w : List UInt8) : ∀ q n : Nat, bytesAt f q (n + 1) = w →
    (stringlistContains f q n str = true ↔ str ∈ strings w) := by
  have hclean : 0 ∉ (str ++ [0]).dropLast := by rwa [List.dropLast_concat]
  induction w using strings_induct with
  | unterminated w hw =>
    intro q n hat
    have hp : ¬(cstr f.rd q n).length < n := fun hp => hw (hat ▸ zero_mem_bytesAt hp (Nat.le_succ n))
    have hmiss (hlen : str.length ≤ n) : ¬memcmp f q (str ++ [0]) = true := fun hsame => by
      have hbytes := memcmp_true hsame
      have hzero : (0 : UInt8) ∈ bytesAt f q (str ++ [0]).length := by
        rw [hbytes]
        exact List.mem_append_right str (List.mem_singleton_self 0)
      obtain ⟨i, hi, hrd⟩ := List.mem_map.mp hzero
      rw [List.mem_range, List.length_append, List.length_singleton] at hi
      refine hw ?_
      rw [← hat]
      exact List.mem_map.mpr ⟨i, List.mem_range.mpr (by omega), hrd⟩
    rw [strings_unterminated hw, stringlistContains_eq]
    refine ⟨fun h => ?_, fun h => absurd h List.not_mem_nil⟩
    by_cases hlen : str.length ≤ n
    · rw [if_pos hlen, if_neg (hmiss hlen), if_neg hp] at h
      cases h
    · rw [if_neg hlen] at h
      cases h
  | string s v hs ih =>
    intro q n hat
    obtain ⟨hlen, hrest⟩ := bytesAt_string hat
    have hcmp := memcmp_string hat hclean
    rw [strings_append hs, List.mem_cons, stringlistContains_eq]
    by_cases hle : str.length ≤ n
    · rw [if_pos hle]
      by_cases heq : str = s
      · rw [if_pos (hcmp.mpr (heq ▸ List.prefix_refl _))]
        exact ⟨fun _ => Or.inl heq, fun _ => rfl⟩
      · have hcstr (hshort : s.length < n) : cstr f.rd q n = s := cstr_string hat hs hshort
        rw [if_neg fun hsame => heq (string_same (hcmp.mp hsame) hs), or_iff_right heq]
        cases v with
        | nil =>
          -- the string ends behind the list
          rw [bytesAt_succ] at hat
          have hlist : bytesAt f q n = s := (List.append_inj' hat rfl).1
          rw [if_neg fun hp => hs (hlist ▸ zero_mem_bytesAt hp (Nat.le_refl n))]
          exact ⟨fun h => absurd h Bool.false_ne_true, fun h => absurd h List.not_mem_nil⟩
        | cons b v =>
          rw [List.length_cons] at hlen hrest
          have hleft : n - (s.length + 1) = v.length := by omega
          rw [hcstr (by omega), if_pos (by omega), hleft]
          exact ih (q + (s.length + 1)) v.length hrest
    · rw [if_neg hle]
      refine ⟨fun h => absurd h Bool.false_ne_true, fun h => absurd ?_ hle⟩
      have hlt := strings_length (s ++ 0 :: v) str (by rw [strings_append hs]; exact List.mem_cons.mpr h)
      rw [List.length_append, List.length_cons] at hlt
      omega

theorem strings_after {v : List UInt8} (hv : Terminated v) (hstr : str ≠ []) (b : UInt8) :
    str ∈ strings (v ++ [b]) ↔ str ∈ strings v := by
  induction v using strings_induct with
  | unterminated u hu =>
    cases hv.resolve_right fun h => hu (List.mem_of_getLast? h)
    by_cases hb : b = 0
    · rw [hb]
      exact ⟨fun h => absurd (List.mem_singleton.mp h) hstr, fun h => absurd h List.not_mem_nil⟩
    · have hne : 0 ∉ [b] := fun h => hb (List.mem_singleton.mp h).symm
      rw [List.nil_append, strings_unterminated hne]
      rfl
  | string s v hs ih =>
    have hterm : Terminated v := by
      by_cases hnil : v = []
      · exact Or.inl hnil
      · rcases hv with hc | hc
        · simp at hc
        · exact Or.inr (getLast_string s hnil ▸ hc)
    rw [List.append_assoc, List.cons_append, strings_append hs, strings_append hs, List.mem_cons, List.mem_cons,
      ih hterm]

end

/-! ## The search -/

section
variable {f : Blob} {strs : Str} {compatible : Str}

theorem nodeCheckCompatible_flat {l : Place FlatNode} (h : Lies f strs l.forest) (hlist : (l.label.data strs).Listed)
    (hclean : 0 ∉ compatible) (hne : compatible ≠ []) : nodeCheckCompatible f (placeOffset l) compatible =
      if (l.label.data strs).compatibleWith compatible then 0
      else if ((l.label.data strs).value COMPATIBLE).isSome then 1 else -FDT_ERR_NOTFOUND := by
  unfold nodeCheckCompatible NodeData.compatibleWith
  rcases getprop_flat h COMPATIBLE with ⟨hnone, hget⟩ | ⟨v, p, hv, hget, hat, -⟩
  · rw [hnone, hget]
    rfl
  · rw [hv, hget]
    have hbytes : bytesAt f p v.length = v := range_at hat
    have hcontains := stringlistContains_iff (f := f) hclean _ p v.length rfl
    rw [bytesAt_succ, hbytes, strings_after (hlist v hv) hne] at hcontains
    dsimp only [Option.elim_some, Option.isSome_some]
    simp only [hcontains, decide_eq_true_eq, if_true]

theorem nodeOffsetByCompatible_flat {l : Place FlatNode} (h : Lies f strs l.forest)
    (hlist : ∀ l' ∈ l.later, (l'.label.data strs).Listed) (hclean : 0 ∉ compatible) (hne : compatible ≠ []) :
    nodeOffsetByCompatible f (placeOffset l) compatible =
      (l.later.find? fun l' => (l'.label.data strs).compatibleWith compatible).elim (-FDT_ERR_NOTFOUND)
        fun l' => (placeOffset l' : Int) := by
  unfold nodeOffsetByCompatible
  rw [if_neg (Int.not_lt.mpr h.strings.probe)]
  refine h.stepsAfter.search h (fun l' => Place.later_forest) (fun o hend => ?_) (fun o l' hl hnext => ?_)
    (nextNode_flat h.fits h.here none)
  · rw [compatibleScan, hend]
    rfl
  · have hlies : Lies f strs l'.forest := Place.later_forest hl ▸ h
    rw [compatibleScan, hnext, dif_neg (Int.not_lt.mpr (Int.natCast_nonneg _)),
      nodeCheckCompatible_flat hlies (hlist l' hl) hclean hne]
    by_cases hhit : (l'.label.data strs).compatibleWith compatible = true
    · simp only [if_pos hhit]
      rfl
    · simp only [if_neg hhit]
      split <;> rfl

end

/-! ## The calls of a driver -/

section
variable {m : Mem} {p : Nat} {o : Int} {n : Place NodeData} {compatible : Str}

theorem ReadAt.byCompatible {f : Blob} (h : ReadAt f o n) (hlist : ∀ n' ∈ n.later, n'.label.Listed)
    (hclean : 0 ∉ compatible)
    (hne : compatible ≠ []) :
    match n.later.find? fun n' => n'.label.compatibleWith compatible with
    | none => nodeOffsetByCompatible f o compatible = -FDT_ERR_NOTFOUND
    | some n' => ReadAt f (nodeOffsetByCompatible f o compatible) n' := by
  obtain ⟨strs, l, hlies, rfl, rfl⟩ := h
  rw [Place.later_map] at hlist ⊢
  have hflat := nodeOffsetByCompatible_flat hlies (fun l' hl' => hlist _ (List.mem_map_of_mem hl')) hclean hne
  rw [List.find?_map, hflat]
  cases hfind : l.later.find? fun l' => (l'.label.data strs).compatibleWith compatible with
  | none =>
    have hnone : l.later.find? ((fun n' : Place NodeData => n'.label.compatibleWith compatible) ∘
      Place.map (FlatNode.data strs)) = none := hfind
    rw [hnone]
    rfl
  | some l' =>
    have hsome : l.later.find? ((fun n' : Place NodeData => n'.label.compatibleWith compatible) ∘
      Place.map (FlatNode.data strs)) = some l' := hfind
    have hforest : l'.forest = l.forest := Place.later_forest (List.mem_of_find?_eq_some hfind)
    rw [hsome]
    exact ⟨strs, l', hforest ▸ hlies, rfl, rfl⟩

theorem getNextNodeHandleForCompatible_eq (m : Mem) (node : NodeHandle) (compatible : Str) :
    getNextNodeHandleForCompatible m node compatible =
      if nodeOffsetByCompatible (blobAt m node.blob) node.offset compatible < 0 then
        (nodeOffsetByCompatible (blobAt m node.blob) node.offset compatible, node)
      else (FDT_ERR_QC_NOERROR, ⟨node.blob, nodeOffsetByCompatible (blobAt m node.blob) node.offset compatible⟩) := rfl

/-- A driver that calls again and again comes to all later nodes that are
compatible, in their order, and to no others; its calls end with
`FDT_ERR_NOTFOUND` after the last one. -/
theorem compatible_enumerates (h : ReadAt (blobAt m p) o n) (hlist : ∀ n' ∈ n.later, n'.label.Listed)
    (hclean : 0 ∉ compatible)
    (hne : compatible ≠ []) (k : Nat) :
    List.Forall₂ (fun (node : NodeHandle) n' => node.blob = p ∧ ReadAt (blobAt m p) node.offset n')
      (calls (getNextNodeHandleForCompatible m · compatible) k ⟨p, o⟩).1 ((compatibleAfter n compatible).take k) ∧
    (calls (getNextNodeHandleForCompatible m · compatible) k ⟨p, o⟩).2 =
      if k ≤ (compatibleAfter n compatible).length then FDT_ERR_QC_NOERROR else -FDT_ERR_NOTFOUND := by
  have hrun := calls_enumerate (getNextNodeHandleForCompatible m · compatible) (compatibleAfter · compatible)
    (R := fun node n' => (node.blob = p ∧ ReadAt (blobAt m p) node.offset n') ∧ ∀ n'' ∈ n'.later, n''.label.Listed)
    (e := -FDT_ERR_NOTFOUND) ?_ ?_ (by decide) (a := ⟨p, o⟩) ⟨⟨rfl, h⟩, hlist⟩ k
  · exact ⟨hrun.1.imp fun _ _ hr => hr.1, hrun.2⟩
  · rintro ⟨_, o⟩ n ⟨⟨rfl, hnode⟩, hlist⟩ hnil
    have hfind : (n.later.find? fun n' => n'.label.compatibleWith compatible) = none :=
      List.find?_eq_none.mpr (List.filter_eq_nil_iff.mp hnil)
    have hcall := hnode.byCompatible hlist hclean hne
    rw [hfind] at hcall
    rw [getNextNodeHandleForCompatible_eq, hcall]
    rfl
  · rintro ⟨_, o⟩ n n' ns ⟨⟨rfl, hnode⟩, hlist⟩ hcons
    have hcall := hnode.byCompatible hlist hclean hne
    cases hfind : n.later.find? fun n' => n'.label.compatibleWith compatible with
    | none =>
      have hnil : compatibleAfter n compatible = [] := List.filter_eq_nil_iff.mpr (List.find?_eq_none.mp hfind)
      cases hnil.symm.trans hcons
    | some n1 =>
      rw [hfind] at hcall
      have hfound : compatibleAfter n compatible = n1 :: compatibleAfter n1 compatible := n.later_follows.filter hfind
      obtain ⟨rfl, rfl⟩ := List.cons.inj (hfound.symm.trans hcons)
      rw [getNextNodeHandleForCompatible_eq, if_neg (Int.not_lt.mpr hcall.nonneg)]
      exact ⟨rfl, ⟨⟨rfl, hcall⟩, fun n'' hn'' =>
        hlist n'' (n.later_follows.mem (List.mem_of_find?_eq_some hfind) hn'')⟩, rfl⟩

/-- A root and two nodes that are compatible with `x`. -/
def compatibleTree : Forest FlatNode :=
  .node ⟨[], [0, 0, 0], [], 0⟩ (.node ⟨[97], [0, 0], [.prop 0 [120, 0] [0, 0]], 0⟩ .nil
    (.node ⟨[98], [0, 0], [.prop 0 [121, 0, 120, 0] []], 0⟩ .nil .nil)) .nil

def compatibleImage : Image := layout compatibleTree (COMPATIBLE ++ [0]) 400

theorem compatibleTree_ok : compatibleTree.All (FlatNode.Ok (COMPATIBLE ++ [0])) := by
  refine ⟨⟨by decide, by decide, fun i hi => absurd hi List.not_mem_nil⟩,
    ⟨⟨by decide, by decide, fun i hi => ?_⟩, trivial, ⟨by decide, by decide, fun i hi => ?_⟩, trivial, trivial⟩,
    trivial⟩
  · rw [List.mem_singleton.mp hi]
    exact ⟨by decide, by decide⟩
  · rw [List.mem_singleton.mp hi]
    exact ⟨by decide, by decide⟩

/-- The root, at offset 0. -/
def compatibleRoot : Place NodeData :=
  ⟨.top, ⟨[], []⟩, .node ⟨[97], [(COMPATIBLE, [120, 0])]⟩ .nil
    (.node ⟨[98], [(COMPATIBLE, [121, 0, 120, 0])]⟩ .nil .nil), .nil⟩

theorem compatibleRoot_listed : ∀ n' ∈ compatibleRoot.later, n'.label.Listed := by
  intro n' hn' v hv
  have hvalues : n'.label.value COMPATIBLE = some [120, 0] ∨ n'.label.value COMPATIBLE = some [121, 0, 120, 0] := by
    rcases List.mem_pair.mp hn' with rfl | rfl
    · exact Or.inl rfl
    · exact Or.inr rfl
  rw [hv] at hvalues
  rcases hvalues with h | h <;> cases h
  · exact Or.inr rfl
  · exact Or.inr rfl

theorem compatible_small : (calls (getNextNodeHandleForCompatible (memOf 0 compatibleImage.bytes) · [120]) 3
    ⟨0, 0⟩).1.length = 2 ∧
    (calls (getNextNodeHandleForCompatible (memOf 0 compatibleImage.bytes) · [120]) 3 ⟨0, 0⟩).2 =
      -FDT_ERR_NOTFOUND := by
  have hlaid : Laid (memOf 0 compatibleImage.bytes) 0 compatibleImage compatibleTree :=
    layout_laid (at_memOf 0 compatibleImage.bytes) rfl compatibleTree_ok (by decide) (by decide)
  have hroot : NodeAt (memOf 0 compatibleImage.bytes) 0 0 compatibleRoot :=
    ⟨compatibleImage, ⟨.top, ⟨[], [0, 0, 0], [], 0⟩, _, .nil⟩, hlaid, rfl, rfl⟩
  obtain ⟨hnodes, hlast⟩ := compatible_enumerates hroot.readAt compatibleRoot_listed (show 0 ∉ [120] by decide)
    (show [120] ≠ [] by decide) 3
  have hlength : (compatibleAfter compatibleRoot [120]).length = 2 := by decide
  refine ⟨hnodes.length_eq.trans ?_, hlast.trans ?_⟩
  · rw [List.length_take, hlength]
    rfl
  · rw [hlength]
    rfl

end

end DTFramework.Fdt
