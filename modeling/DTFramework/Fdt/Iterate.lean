import DTFramework.Fdt.PropArea

/-!
# Iterations over properties

`fdt_for_each_property_offset` runs over the offsets of the properties of a node
(`propertyOffsets`) and ends at the first negative one (`propertyEnd`), whatever
the reason. The reason is `-FDT_ERR_NOTFOUND` just when there is a node with a
well-formed property area (`iteration_ended`).

Results:

* `endFrom_iff`, `iteration_ended`: the iteration comes to the end of the list just when
  the property area is well formed;
* `prop_extent`, `propertyOffsets_extent`: the values lie in the block, one after the
  other.
-/
namespace DTFramework.Fdt

/-- The offsets `fdt_for_each_property_offset` comes to, from `offset` on.
mirrors libs/libfdt/libfdt.h, `fdt_for_each_property_offset` -/
def offsetsFrom (f : Blob) (offset : Int) : List Int :=
  if offset < 0 then []
  else if _h : nextPropertyOffset f offset < 0 then [offset]
  else offset :: offsetsFrom f (nextPropertyOffset f offset)
termination_by room offset
decreasing_by exact nextProperty_room (Int.not_lt.mp _h)

/-- The negative value at which the iteration ends. -/
def endFrom (f : Blob) (offset : Int) : Int :=
  if offset < 0 then offset
  else if _h : nextPropertyOffset f offset < 0 then nextPropertyOffset f offset
  else endFrom f (nextPropertyOffset f offset)
termination_by room offset
decreasing_by exact nextProperty_room (Int.not_lt.mp _h)

/-- The properties of the node at `o`, and what ends the iteration over them. -/
def propertyOffsets (f : Blob) (o : Int) : List Int := offsetsFrom f (firstPropertyOffset f o)
def propertyEnd (f : Blob) (o : Int) : Int := endFrom f (firstPropertyOffset f o)

theorem endFrom_neg {f : Blob} {o : Int} (h : o < 0) : endFrom f o = o := by
  rw [endFrom, if_pos h]

theorem endFrom_next {f : Blob} {o : Int} (h : 0 ≤ o) : endFrom f o = endFrom f (nextPropertyOffset f o) := by
  rw [endFrom, if_neg (Int.not_lt.mpr h)]
  split
  · exact (endFrom_neg ‹_›).symm
  · rfl

theorem offsetsFrom_neg {f : Blob} {o : Int} (h : o < 0) : offsetsFrom f o = [] := by
  rw [offsetsFrom, if_pos h]

/-! ## What ends an iteration -/

/-- A token that does not end well is an error of the block. -/
theorem nextTag_end (f : Blob) (o : Int) : (nextTag f o).2 ≠ -FDT_ERR_NOTFOUND := by
  have horEnd {α : Type} (x : Option α) (err : Int) (k : α → Nat × Int) (herr : err ≠ FDT_ERR_NOTFOUND)
      (hk : ∀ a, (k a).2 ≠ -FDT_ERR_NOTFOUND) : (orEnd x err k).2 ≠ -FDT_ERR_NOTFOUND := by
    cases x with
    | none => exact fun he => herr (Int.neg_inj.mp he)
    | some a => exact hk a
  unfold nextTag
  refine horEnd _ _ _ (by decide) fun p => horEnd _ _ _ (by decide) fun e => horEnd _ _ _ (by decide) fun q => ?_
  -- an aligned offset is no error code
  simp only [int32, tagAlign, FDT_ERR_NOTFOUND]
  omega

theorem checkNodeOffset_ne (f : Blob) (o : Int) : checkNodeOffset f o ≠ -FDT_ERR_NOTFOUND := by
  unfold checkNodeOffset
  split
  · decide
  · split
    · decide
    · exact nextTag_end f o

/-- A tag that is read is one of five. -/
theorem nextTag_known {f : Blob} {o : Int} (h : (nextTag f o).1 ≠ FDT_END) (hp : (nextTag f o).1 ≠ FDT_PROP)
    (hn : (nextTag f o).1 ≠ FDT_NOP) : (nextTag f o).1 = FDT_BEGIN_NODE ∨ (nextTag f o).1 = FDT_END_NODE := by
  obtain ⟨-, -, e, -, -, he, -, -⟩ := nextTag_eq (t := (nextTag f o).1) (n := (nextTag f o).2) rfl h
  unfold tagEnd at he
  split at he
  · exact Or.inl ‹_›
  · split at he
    · rename_i hk
      rcases hk with hk | hk | hk
      · exact absurd hk h
      · exact Or.inr hk
      · exact absurd hk hn
    · cases he

/-- From a token on, the iteration ends with `-FDT_ERR_NOTFOUND` just when the
area from there on is well formed. -/
theorem endFrom_iff (f : Blob) (o : Int) (ha : o % 4 = 0) :
    endFrom f (nextprop f o) = -FDT_ERR_NOTFOUND ↔ PropArea f o := by
  induction hr : room o using Nat.strongRecOn generalizing o with
  | ind r ih =>
    by_cases hend : (nextTag f o).1 = FDT_END
    · constructor
      · intro h
        rw [nextprop] at h
        rw [dif_pos hend] at h
        split at h
        · exact absurd h (by rw [endFrom_neg (by decide)]; decide)
        · rename_i hneg
          rw [endFrom_neg (Int.not_le.mp hneg)] at h
          exact absurd h (nextTag_end f o)
      · intro h
        cases h with
        | nop h | prop h => exact absurd (hend.symm.trans h) (by decide)
        | stop h => rcases h with h | h <;> exact absurd (hend.symm.trans h) (by decide)
    · have hroom := nextTag_room hend
      have halign := nextTag_aligned hend
      have hnext := ih _ (hr ▸ hroom) (nextTag f o).2 halign rfl
      by_cases hprop : (nextTag f o).1 = FDT_PROP
      · have h0 := (nextTag_bounds hend).1
        have hcheck := checkPropOffset_eq hprop ha
        rw [nextprop_prop hprop, endFrom_next h0]
        unfold nextPropertyOffset
        rw [hcheck]
        split
        · rename_i hneg
          rw [endFrom_neg hneg]
          refine iff_of_false (nextTag_end f o) fun h => ?_
          cases h with
          | nop h => exact absurd (hprop.symm.trans h) (by decide)
          | prop _ h => exact absurd h.nonneg (by omega)
          | stop h => rcases h with h | h <;> exact absurd (hprop.symm.trans h) (by decide)
        · rw [hnext]
          refine ⟨.prop hprop, fun h => ?_⟩
          cases h with
          | nop h => exact absurd (hprop.symm.trans h) (by decide)
          | prop _ h => exact h
          | stop h => rcases h with h | h <;> exact absurd (hprop.symm.trans h) (by decide)
      · by_cases hnop : (nextTag f o).1 = FDT_NOP
        · rw [nextprop_nop hnop, hnext]
          refine ⟨.nop hnop, fun h => ?_⟩
          cases h with
          | nop _ h => exact h
          | prop h => exact absurd h hprop
          | stop h => rcases h with h | h <;> exact absurd (hnop.symm.trans h) (by decide)
        · have hstop := nextTag_known hend hprop hnop
          rw [nextprop_stop hstop, endFrom_neg (by decide)]
          exact iff_of_true rfl (.stop hstop)

/-- The iteration over a node's properties comes to the end of the list just
when there is a node with a well-formed property area. -/
theorem iteration_ended (f : Blob) (o : Int) : propertyEnd f o = -FDT_ERR_NOTFOUND ↔ NodeOk f o := by
  unfold propertyEnd firstPropertyOffset
  split
  · rename_i hneg
    rw [endFrom_neg hneg]
    exact iff_of_false (checkNodeOffset_ne f o) fun h => absurd h.node (by omega)
  · rename_i hnode
    have hnode := Int.not_lt.mp hnode
    obtain ⟨-, -, ht, he⟩ := checkNodeOffset_nonneg hnode
    rw [endFrom_iff f _ (by rw [he]; exact nextTag_aligned (by rw [ht]; decide))]
    exact ⟨fun h => ⟨hnode, h⟩, NodeOk.props⟩

/-! ## Properties that are visited -/

/-- An offset of an iteration has a property. -/
theorem nextprop_tag {f : Blob} {o : Int} (ha : o % 4 = 0) (h : 0 ≤ nextprop f o) :
    (nextTag f (nextprop f o)).1 = FDT_PROP ∧ nextprop f o % 4 = 0 := by
  fun_induction nextprop f o with
  | case1 | case5 => exact absurd h (by decide)
  | case2 => omega
  | case3 o tag _ hp => exact ⟨hp, ha⟩
  | case4 o tag next ht _ _ ih => exact ih (nextTag_aligned ht) h

theorem firstPropertyOffset_tag {f : Blob} {o : Int} (h : 0 ≤ firstPropertyOffset f o) :
    (nextTag f (firstPropertyOffset f o)).1 = FDT_PROP ∧ firstPropertyOffset f o % 4 = 0 := by
  unfold firstPropertyOffset at h ⊢
  split at h
  · omega
  · rename_i hc
    rw [if_neg hc]
    obtain ⟨-, -, ht, he⟩ := checkNodeOffset_nonneg (Int.not_lt.mp hc)
    exact nextprop_tag (by rw [he]; exact nextTag_aligned (by rw [ht]; decide)) h

theorem nextPropertyOffset_tag {f : Blob} {o : Int} (h : 0 ≤ nextPropertyOffset f o) :
    (nextTag f (nextPropertyOffset f o)).1 = FDT_PROP ∧ nextPropertyOffset f o % 4 = 0 := by
  unfold nextPropertyOffset at h ⊢
  split at h
  · omega
  · rename_i hc
    rw [if_neg hc]
    obtain ⟨-, -, ht, he⟩ := checkPropOffset_nonneg (Int.not_lt.mp hc)
    exact nextprop_tag (by rw [he]; exact nextTag_aligned (by rw [ht]; decide)) h

theorem offsetsFrom_tag {f : Blob} {o : Int} (h : 0 ≤ o → (nextTag f o).1 = FDT_PROP ∧ o % 4 = 0) :
    ∀ p ∈ offsetsFrom f o, (nextTag f p).1 = FDT_PROP ∧ p % 4 = 0 := by
  fun_induction offsetsFrom f o with
  | case1 => simp
  | case2 o h0 =>
    intro p hp
    rw [List.mem_singleton.mp hp]
    exact h (Int.not_lt.mp h0)
  | case3 o h0 h1 ih =>
    intro p hp
    rcases List.mem_cons.mp hp with rfl | hp
    · exact h (Int.not_lt.mp h0)
    · exact ih (fun hn => nextPropertyOffset_tag hn) p hp

theorem propertyOffsets_tag {f : Blob} {o p : Int} (h : p ∈ propertyOffsets f o) :
    (nextTag f p).1 = FDT_PROP ∧ p % 4 = 0 :=
  offsetsFrom_tag (fun h => firstPropertyOffset_tag h) p h

/-- The token of a property holds its value. -/
theorem prop_extent {f : Blob} {o : Int} (h : (nextTag f o).1 = FDT_PROP) :
    o + 12 + propLen f o ≤ 0x80000010 ∧ (0 ≤ (nextTag f o).2 → o + 12 + propLen f o ≤ (nextTag f o).2) := by
  obtain ⟨p, q, e, hp, -, he, -, hn⟩ := nextTag_eq (t := FDT_PROP) (n := (nextTag f o).2) (by rw [← h]) (by decide)
  obtain ⟨h0, h1, -⟩ := offsetPtr_some hp
  rw [show ((FDT_TAGSIZE : Nat) : Int) = 4 from rfl] at he
  have hb := (tagEnd_bounds (by omega) (by omega) he).2
  have hle : o + 12 + propLen f o ≤ e := by
    unfold tagEnd at he
    rw [if_neg (by decide), if_pos rfl] at he
    split at he
    · cases he
    · rename_i lenp hl
      obtain ⟨-, -, rfl⟩ := offsetPtr_some hl
      rw [show offDtStruct f + (o + 4).toNat = offDtStruct f + o.toNat + 4 by omega] at he
      change (if _ then none else if _ then some (o + 4 + 8 + (propLen f o : Int) + 4)
        else some (o + 4 + 8 + (propLen f o : Int))) = some e at he
      generalize (propLen f o : Int) = len at he ⊢
      split at he
      · cases he
      · split at he <;> cases he <;> omega
  refine ⟨by omega, fun hpos => ?_⟩
  rw [← hn] at hpos ⊢
  have h4 : o + 12 ≤ e := by omega
  clear he hp hn h
  unfold int32 tagAlign at hpos ⊢
  omega

/-- The values of an iteration's properties lie in the block, one after the other. -/
theorem offsetsFrom_extent {f : Blob} {o : Int} (h : 0 ≤ o → (nextTag f o).1 = FDT_PROP ∧ o % 4 = 0) (h0 : 0 ≤ o) :
    o + ((offsetsFrom f o).map fun p => propLen f p).sum ≤ 0x80000010 := by
  fun_induction offsetsFrom f o with
  | case1 => omega
  | case2 o =>
    have := (prop_extent (h h0).1).1
    simp
    omega
  | case3 o _ h1 ih =>
    have hnext := ih (fun hn => nextPropertyOffset_tag hn) (Int.not_lt.mp h1)
    obtain ⟨hp, ha⟩ := h h0
    have hle : o + 12 + propLen f o ≤ nextPropertyOffset f o := by
      have h1 := Int.not_lt.mp h1
      unfold nextPropertyOffset at h1 ⊢
      rw [checkPropOffset_eq hp ha] at h1 ⊢
      split at h1
      · omega
      · rename_i hc
        rw [if_neg hc]
        have h2 := (prop_extent hp).2 (Int.not_lt.mp hc)
        have h3 := nextprop_ge f _ h1
        omega
    rw [List.map_cons, List.sum_cons]
    generalize ((offsetsFrom f (nextPropertyOffset f o)).map fun p => propLen f p).sum = s at hnext ⊢
    generalize propLen f o = len at hle ⊢
    omega

/-- Together the values of a node's properties are smaller than 4 GiB. -/
theorem propertyOffsets_extent (f : Blob) (o : Int) :
    ((propertyOffsets f o).map fun p => propLen f p).sum < 0x100000000 := by
  unfold propertyOffsets
  by_cases h : 0 ≤ firstPropertyOffset f o
  · have := offsetsFrom_extent (fun h => firstPropertyOffset_tag h) h
    omega
  · rw [offsetsFrom_neg (Int.not_le.mp h), List.map_nil]
    decide

end DTFramework.Fdt
