import DTFramework.Extn.Hash

/-!
# The recursion over a tree as a loop

`Recursive_find_subnode` does to the nodes of a tree what a loop over them in
preorder does (`visitSubnodes_eq`): they are listed with their depths and full
paths (`pathVisits`).

Results:

* `visitSubnodes_eq`: the recursion is a loop over a list;
* `pathVisits_root`: the list is that of the walk over all nodes;
* `enterAll_keeps`: what each turn preserves, the loop preserves.
-/
namespace DTFramework.Extn

open DTFramework.Fdt

structure Visit where
  offset : Int
  depth : Nat
  fullname : Str
deriving DecidableEq, Repr

/-- The nodes from a subnode of the node `name` on. -/
def pathVisits (f : Blob) (name : Str) (depth : Nat) (sub_node_offset : Int) : List Visit :=
  if _h : sub_node_offset < 0 then []
  else
    let fullname := fullName name (subName f sub_node_offset)
    ⟨sub_node_offset, depth + 1, fullname⟩ ::
      (pathVisits f fullname (depth + 1) (firstSubnode f sub_node_offset) ++
        pathVisits f name depth (nextSubnode f sub_node_offset))
termination_by subRoom sub_node_offset
decreasing_by
  · exact firstSubnode_room (Int.not_lt.mp _h)
  · exact nextSubnode_room (Int.not_lt.mp _h)

theorem pathVisits_visits (f : Blob) (name : Str) (depth : Nat) (sub_node_offset : Int) :
    (pathVisits f name depth sub_node_offset).map (fun v => (v.offset, v.depth)) = visits f depth sub_node_offset := by
  fun_induction pathVisits f name depth sub_node_offset with
  | case1 name depth sub h =>
    rw [visits, dif_pos h]
    rfl
  | case2 name depth sub h fullname ih1 ih2 =>
    rw [visits, dif_neg h, List.map_cons, List.map_append, ih1, ih2]

/-- The nodes below the root are those of the walk over all nodes. -/
theorem pathVisits_root (f : Blob) (name : Str) :
    (pathVisits f name 0 (firstSubnode f 0)).map (fun v => (v.offset, v.depth)) = scan f 0 0 :=
  (pathVisits_visits f name 0 _).trans (visits_root f)

theorem pathVisits_scan {f : Blob} {name : Str} {v : Visit} (hv : v ∈ pathVisits f name 0 (firstSubnode f 0)) :
    (v.offset, v.depth) ∈ scan f 0 0 := by
  rw [← pathVisits_root f name]
  exact List.mem_map_of_mem hv

section
variable {σ ε : Type} {enter : Int → Nat → Str → σ → Except ε (Bool × σ)} {code : Int}

/-- Nodes entered one after another, to the first that is not made. -/
def enterAll (enter : Int → Nat → Str → σ → Except ε (Bool × σ)) (code : Int) : List Visit → σ → Except ε (Int × σ)
  | [], s => .ok (FDT_ERR_QC_NOERROR, s)
  | v :: l, s => do
    let (made, s) ← enter v.offset v.depth v.fullname s
    if made then enterAll enter code l s else .ok (code, s)

theorem enterAll_cons (v : Visit) (l : List Visit) (s : σ) : enterAll enter code (v :: l) s = (do
    let (made, s) ← enter v.offset v.depth v.fullname s
    if made then enterAll enter code l s else .ok (code, s)) := rfl

theorem enterAll_append (hcode : code ≠ FDT_ERR_QC_NOERROR) (l l' : List Visit) (s : σ) :
    enterAll enter code (l ++ l') s = (do
      let (ret_value, s) ← enterAll enter code l s
      if ret_value ≠ FDT_ERR_QC_NOERROR then .ok (ret_value, s) else enterAll enter code l' s) := by
  induction l generalizing s with
  | nil => rfl
  | cons v l ih =>
    rw [List.cons_append, enterAll_cons, enterAll_cons, bind_assoc]
    refine bind_congr fun ⟨made, s⟩ => ?_
    cases made with
    | false => exact (if_pos hcode).symm
    | true => exact ih s

theorem visitSubnodes_step {f : Blob} {sub_node_offset : Int} (h : ¬sub_node_offset < 0) (name : Str) (depth : Nat)
    (s : σ) :
    visitSubnodes f enter code name depth sub_node_offset s = (do
      let fullname := fullName name (subName f sub_node_offset)
      let (made, s) ← enter sub_node_offset (depth + 1) fullname s
      if made then do
        let (ret_value, s) ← visitSubnodes f enter code fullname (depth + 1) (firstSubnode f sub_node_offset) s
        if ret_value ≠ FDT_ERR_QC_NOERROR then .ok (ret_value, s)
        else visitSubnodes f enter code name depth (nextSubnode f sub_node_offset) s
      else .ok (code, s)) := by
  rw [visitSubnodes, dif_neg h]
  simp only
  rcases enter sub_node_offset (depth + 1) (fullName name (subName f sub_node_offset)) s with fault | ⟨made, s1⟩
  · rfl
  · cases made with
    | false => rfl
    | true =>
      simp only
      change _ = (visitSubnodes f enter code (fullName name (subName f sub_node_offset)) (depth + 1)
          (firstSubnode f sub_node_offset) s1 >>= _)
      cases visitSubnodes f enter code (fullName name (subName f sub_node_offset)) (depth + 1)
          (firstSubnode f sub_node_offset) s1 with
      | error fault => rfl
      | ok r => rfl

theorem visitSubnodes_eq (hcode : code ≠ FDT_ERR_QC_NOERROR) (f : Blob) (name : Str) (depth : Nat)
    (sub_node_offset : Int) (s : σ) :
    visitSubnodes f enter code name depth sub_node_offset s = enterAll enter code
        (pathVisits f name depth sub_node_offset) s := by
  fun_induction pathVisits f name depth sub_node_offset generalizing s with
  | case1 name depth sub h =>
    rw [visitSubnodes, dif_pos h]
    rfl
  | case2 name depth sub h fullname ih1 ih2 =>
    rw [visitSubnodes_step h, enterAll_cons]
    refine bind_congr fun ⟨made, s⟩ => ?_
    cases made with
    | false => rfl
    | true =>
      simp only [if_true]
      rw [enterAll_append hcode, ← ih1]
      exact bind_congr fun ⟨ret_value, s⟩ => by rw [ih2]

/-- What entering the nodes preserves. -/
theorem enterAll_keeps {I : σ → Prop} (l : List Visit)
    (henter : ∀ v ∈ l, ∀ s b s', I s → enter v.offset v.depth v.fullname s = .ok (b, s') → I s')
    {s s' : σ} {ret : Int} (hs : I s) (h : enterAll enter code l s = .ok (ret, s')) :
    I s' ∧ (ret = FDT_ERR_QC_NOERROR ∨ ret = code) := by
  induction l generalizing s with
  | nil =>
    cases h
    exact ⟨hs, Or.inl rfl⟩
  | cons v l ih =>
    obtain ⟨⟨made, s1⟩, hentered, h⟩ := except_bind_ok h
    have hs := henter v List.mem_cons_self _ _ _ hs hentered
    cases made with
    | false =>
      cases h
      exact ⟨hs, Or.inr rfl⟩
    | true => exact ih (fun w hw => henter w (List.mem_cons_of_mem _ hw)) hs h

end

end DTFramework.Extn
