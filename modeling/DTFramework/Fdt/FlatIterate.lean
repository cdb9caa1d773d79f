import DTFramework.Fdt.FlatRead
import DTFramework.Fdt.Iterate

/-!
# Iterating over flattened trees

`fdt_for_each_subnode` and `fdt_for_each_property_offset` on a node that stands in
a blob: the iterations come to the subnodes and the properties in order, and end.

Results:

* `levelNext_level`, `levelNext_deep`: from a subnode to the next;
* `property_flat`: what the getters by offset answer at a property, and where the
  iteration goes.
-/
namespace DTFramework.Fdt

open DTFramework.Lib

section
variable {f : Blob} {strs : Str} {o : Nat} {a b : FlatNode} {subs t rest : Forest FlatNode}

/-- The nodes below a node stand at `o`, before its end. -/
structure LevelStands (f : Blob) (strs : Str) (o : Nat) (t : Forest FlatNode) (b : FlatNode) : Prop where
  nodes : Stands f o (flat t)
  closes : Stands f (o + (flat t).length) b.closes
  aligned : o % 4 = 0
  ok : t.All (FlatNode.Ok strs)

theorem NodeStands.level (h : NodeStands f strs o a subs) : LevelStands f strs (o + a.opens.length) subs a := by
  have hal := h.ok.opens_aligned
  have haligned := h.aligned
  exact ⟨h.below, h.closes, by omega, h.subsOk⟩

/-- The bytes of a node up to the next one. -/
def span (a : FlatNode) (subs : Forest FlatNode) : Nat := a.opens.length + (flat subs).length + a.closes.length

theorem LevelStands.node (h : LevelStands f strs o (.node a subs rest) b) :
    NodeStands f strs o a subs ∧ LevelStands f strs (o + span a subs) rest b := by
  have hflat : flat (.node a subs rest) = a.opens ++ flat subs ++ a.closes ++ flat rest := rfl
  obtain ⟨ha, hsubs, hrest⟩ := h.ok
  have hnodes := h.nodes
  have hcloses := h.closes
  have haligned := h.aligned
  have h1 := ha.opens_aligned
  have h2 := flat_aligned hsubs
  have h3 := closes_aligned a
  rw [hflat, Stands.append, Stands.append, Stands.append] at hnodes
  obtain ⟨⟨⟨hopens, hsub⟩, hclose⟩, hrests⟩ := hnodes
  rw [List.length_append, ← Nat.add_assoc] at hclose
  rw [hflat] at hcloses
  simp only [List.length_append] at hrests hcloses
  refine ⟨⟨hopens, hsub, hclose, haligned, ha, hsubs⟩, ⟨hrests, ?_, ?_, hrest⟩⟩
  · unfold span
    rwa [Nat.add_assoc]
  · unfold span
    omega

/-! ## Subnodes -/

/-- Where the iteration comes to next, with the nodes of `t` before it. -/
def firstOf (t : Forest FlatNode) (o : Nat) : Int :=
  match t with
  | .nil => -FDT_ERR_NOTFOUND
  | .node _ _ _ => o

/-- The turn of `fdt_next_subnode` that goes on from a token. -/
def levelNext (f : Blob) (o d : Int) : Int :=
  let r := nextNodeFrom f o (some d)
  if r.1 < 0 then -FDT_ERR_NOTFOUND
  else r.2.elim (-FDT_ERR_NOTFOUND) fun e =>
    if e < 1 then -FDT_ERR_NOTFOUND else if 1 < e then nextSubnodeFrom f r.1 e else r.1

theorem levelNext_congr {p q d e : Int} (h : nextNodeFrom f p (some d) = nextNodeFrom f q (some e)) :
    levelNext f p d = levelNext f q e := by
  unfold levelNext
  rw [h]

theorem nextNode_flat (hf : StructFits f) (h : NodeStands f strs o a subs) (d : Option Int) :
    nextNode f o d = nextNodeFrom f ((o + a.opens.length : Nat) : Int) d := by
  have hal := h.ok.header_aligned
  have haligned := h.aligned
  have hitems := nextNodeFrom_items hf d h.ok.items h.items (by omega)
  rw [Nat.add_assoc, ← opens_length] at hitems
  unfold nextNode
  rw [if_pos (Int.natCast_nonneg o), checkNodeOffset_flat hf h.ok h.header haligned, if_neg (by omega), hitems]

theorem nextSubnodeFrom_flat (hf : StructFits f) (h : NodeStands f strs o a subs) (d : Int) :
    nextSubnodeFrom f o d = levelNext f ((o + a.opens.length : Nat) : Int) d := by
  rw [nextSubnodeFrom, nextNode_flat hf h]
  unfold levelNext
  simp only [dite_eq_ite]
  cases (nextNodeFrom f ((o + a.opens.length : Nat) : Int) (some d)).2 <;> rfl

/-- At the first node of a level, or at the end of the level. -/
theorem levelNext_level (hf : StructFits f) (h : LevelStands f strs o t b) : levelNext f o 0 = firstOf t o := by
  cases t with
  | nil =>
    have hcloses : Stands f o b.closes := h.closes
    unfold levelNext
    rw [nextNodeFrom_closes hf hcloses h.aligned, if_pos (show (0 : Int) < 1 by decide)]
    simp only
    rw [if_neg (by omega)]
    rfl
  | node a subs rest =>
    have hnode := h.node.1
    unfold levelNext
    rw [nextNodeFrom_header hf hnode.ok hnode.header hnode.aligned]
    simp only [Option.elim_some]
    rw [if_neg (by omega), if_neg (by decide), if_neg (by decide)]
    rfl

/-- Deeper levels are gone over. -/
theorem levelNext_deep (hf : StructFits f) (h : LevelStands f strs o t b) {d : Int} (hd : 1 ≤ d) :
    levelNext f o d = levelNext f ((o + (flat t).length + b.closes.length : Nat) : Int) (d - 1) := by
  induction t generalizing o b d with
  | nil =>
    have hcloses : Stands f o b.closes := h.closes
    refine levelNext_congr ?_
    rw [nextNodeFrom_closes hf hcloses h.aligned, if_neg (by omega)]
    rfl
  | node a subs rest ihs ihr =>
    obtain ⟨hnode, hrest⟩ := h.node
    have hin : levelNext f o d = nextSubnodeFrom f o (d + 1) := by
      unfold levelNext
      rw [nextNodeFrom_header hf hnode.ok hnode.header hnode.aligned]
      simp only [Option.elim_some]
      rw [if_neg (by omega), if_neg (by omega), if_pos (by omega)]
    rw [hin, nextSubnodeFrom_flat hf hnode, ihs hnode.level (by omega), Int.add_sub_cancel]
    have hspan : o + a.opens.length + (flat subs).length + a.closes.length = o + span a subs := by
      unfold span
      omega
    have hflat : (flat (.node a subs rest)).length = span a subs + (flat rest).length := by
      have heq : flat (.node a subs rest) = a.opens ++ flat subs ++ a.closes ++ flat rest := rfl
      rw [heq]
      unfold span
      simp only [List.length_append]
    rw [hspan, ihr hrest hd, hflat, ← Nat.add_assoc o]

theorem firstSubnode_flat (hf : StructFits f) (h : NodeStands f strs o a subs) :
    firstSubnode f o = firstOf subs (o + a.opens.length) := by
  unfold firstSubnode
  rw [nextNode_flat hf h]
  have hlevel := h.level
  cases subs with
  | nil =>
    have hcloses : Stands f (o + a.opens.length) a.closes := hlevel.closes
    rw [nextNodeFrom_closes hf hcloses hlevel.aligned, if_pos (show (0 : Int) < 1 by decide)]
    exact if_pos (Or.inr (show some ((0 : Int) - 1) ≠ some 1 by decide))
  | node b below rest =>
    have hnode := hlevel.node.1
    rw [nextNodeFrom_header hf hnode.ok hnode.header hnode.aligned]
    simp only
    rw [if_neg (by rintro (h | h) <;> [omega; exact h rfl])]
    rfl

theorem nextSubnode_flat (hf : StructFits f) (h : LevelStands f strs o (.node a subs rest) b) :
    nextSubnode f o = firstOf rest (o + span a subs) := by
  obtain ⟨hnode, hrest⟩ := h.node
  unfold nextSubnode
  have hspan : o + a.opens.length + (flat subs).length + a.closes.length = o + span a subs := by
    unfold span
    omega
  rw [nextSubnodeFrom_flat hf hnode, levelNext_deep hf hnode.level (Int.le_refl 1), Int.sub_self, hspan,
    levelNext_level hf hrest]

/-! ## Properties -/

/-- What the getters by offset answer at a property, and where the iteration goes. -/
theorem property_flat (hf : StructFits f) (hs : Strings f strs) {nameoff : Nat} {value pad : Str}
    (hok : (Item.prop nameoff value pad).Ok strs) (h : Stands f o (Item.prop nameoff value pad).bytes)
    (ho : o % 4 = 0) :
    getpropByOffset f o = .ok (nameAt strs nameoff, (value.length : Int)) ∧
      ((List.range value.length).map fun i => f.rd (propValue f o + i)) = value ∧
      nextPropertyOffset f o = nextprop f ((o + (Item.prop nameoff value pad).bytes.length : Nat) : Int) := by
  have htag := nextTag_prop hf hok h.1 ho h.2
  have hcheck : checkPropOffset f o = ((o + (Item.prop nameoff value pad).bytes.length : Nat) : Int) := by
    rw [checkPropOffset_eq (by rw [htag]) (by omega), htag]
  obtain ⟨hlen, hoff, hdata⟩ := prop_fields hf hok hs h
  have hfits := h.2
  have hstruct := hf.struct_le
  have htotal := hf.total
  have hversion := hf.version
  rw [prop_length] at hfits
  simp only [INT_MAX] at htotal
  refine ⟨?_, ?_, ?_⟩
  · unfold getpropByOffset getPropertyByOffset
    rw [hcheck, if_neg (by omega)]
    simp only
    rw [hoff, getString_flat hs hf hok.2, hlen, int32_nat (by omega)]
  · unfold propValue
    rw [if_neg (by omega)]
    exact range_at hdata
  · unfold nextPropertyOffset
    rw [hcheck, if_neg (by omega)]

end

end DTFramework.Fdt
