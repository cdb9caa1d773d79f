import DTFramework.Fdt.Read

/-!
# Property areas

The property area of a node is well formed (`PropArea`) when its tokens are
properties and NOPs up to the first subnode or the end of the node. There a
lookup by name finds the property or answers `-FDT_ERR_NOTFOUND`, and nothing
else (`propertyScan_area`). `propertyBytes` is the value a lookup finds.

Results:

* `propertyScan_area`: what a lookup by name answers in a well-formed area;
* `NodeOk.namelen`: the same for `fdt_get_property_namelen` at a node.
-/
namespace DTFramework.Fdt

/-- The tokens from `o` on are properties and NOPs up to the first subnode or
the end of the node. -/
inductive PropArea (f : Blob) : Int → Prop
  | nop {o : Int} : (nextTag f o).1 = FDT_NOP → PropArea f (nextTag f o).2 → PropArea f o
  | prop {o : Int} : (nextTag f o).1 = FDT_PROP → PropArea f (nextTag f o).2 → PropArea f o
  | stop {o : Int} : (nextTag f o).1 = FDT_BEGIN_NODE ∨ (nextTag f o).1 = FDT_END_NODE → PropArea f o

/-- There is a node at `o`, and its property area is well formed. -/
structure NodeOk (f : Blob) (o : Int) : Prop where
  node : 0 ≤ checkNodeOffset f o
  props : PropArea f (checkNodeOffset f o)

theorem PropArea.nonneg {f : Blob} {o : Int} (h : PropArea f o) : 0 ≤ o := by
  cases h with
  | nop h _ => exact (nextTag_bounds (by rw [h]; decide)).1
  | prop h _ => exact (nextTag_bounds (by rw [h]; decide)).1
  | stop h =>
    refine (nextTag_bounds (f := f) ?_).1
    rcases h with h | h <;> rw [h] <;> decide

/-- Tokens start at multiples of 4. -/
theorem nextTag_aligned {f : Blob} {o : Int} (h : (nextTag f o).1 ≠ FDT_END) : (nextTag f o).2 % 4 = 0 := by
  obtain ⟨-, -, e, -, -, -, -, hn⟩ := nextTag_eq (t := (nextTag f o).1) (n := (nextTag f o).2) rfl h
  rw [← hn]
  unfold int32 tagAlign
  omega

theorem nextprop_nop {f : Blob} {o : Int} (h : (nextTag f o).1 = FDT_NOP) :
    nextprop f o = nextprop f (nextTag f o).2 := by
  rw [nextprop]
  simp [h, FDT_NOP, FDT_END, FDT_PROP]

theorem nextprop_prop {f : Blob} {o : Int} (h : (nextTag f o).1 = FDT_PROP) : nextprop f o = o := by
  rw [nextprop]
  simp [h, FDT_END, FDT_PROP]

theorem nextprop_stop {f : Blob} {o : Int}
    (h : (nextTag f o).1 = FDT_BEGIN_NODE ∨ (nextTag f o).1 = FDT_END_NODE) : nextprop f o = -FDT_ERR_NOTFOUND := by
  rw [nextprop]
  rcases h with h | h <;> simp [h, FDT_BEGIN_NODE, FDT_END_NODE, FDT_NOP, FDT_END, FDT_PROP]

theorem checkPropOffset_eq {f : Blob} {o : Int} (h : (nextTag f o).1 = FDT_PROP) (ha : o % 4 = 0) :
    checkPropOffset f o = (nextTag f o).2 := by
  have h0 := (nextTag_bounds (f := f) (o := o) (by rw [h]; decide)).1
  unfold checkPropOffset
  simp only [FDT_TAGSIZE, Nat.cast_ofNat]
  rw [if_neg (by omega), if_neg (not_not.mpr h)]

/-- In a well-formed area the next property is there, or there is none. -/
theorem PropArea.nextprop_neg {f : Blob} {o : Int} (h : PropArea f o) (hn : nextprop f o < 0) :
    nextprop f o = -FDT_ERR_NOTFOUND := by
  induction h with
  | nop h _ ih =>
    rw [nextprop_nop h] at hn ⊢
    exact ih hn
  | prop h hp =>
    have := (PropArea.prop h hp).nonneg
    rw [nextprop_prop h] at hn
    omega
  | stop h => exact nextprop_stop h

/-- What a lookup by name answers in a well-formed area. -/
theorem propertyScan_area {f : Blob} (name : Str) {o : Int} (h : PropArea f o) (ha : o % 4 = 0) :
    propertyScan f name (nextprop f o) = .error (-FDT_ERR_NOTFOUND) ∨
      ∃ p, propertyScan f name (nextprop f o) = .ok p ∧ (nextTag f p).1 = FDT_PROP := by
  induction h with
  | nop h _ ih =>
    rw [nextprop_nop h]
    exact ih (nextTag_aligned (by rw [h]; decide))
  | @prop o h hp ih =>
    have h0 := (PropArea.prop h hp).nonneg
    have hcheck := checkPropOffset_eq h ha
    rw [nextprop_prop h, propertyScan, if_neg (Int.not_lt.mpr h0)]
    have hlen : getPropertyByOffset f o = .ok (int32 (propLen f o)) := by
      unfold getPropertyByOffset
      rw [hcheck, if_neg (Int.not_lt.mpr hp.nonneg)]
    rw [hlen]
    simp only
    split
    · exact Or.inr ⟨o, rfl, h⟩
    · have hnext : nextPropertyOffset f o = nextprop f (nextTag f o).2 := by
        unfold nextPropertyOffset
        rw [hcheck, if_neg (Int.not_lt.mpr hp.nonneg)]
      rw [hnext]
      split
      · rename_i hneg
        exact Or.inl (by rw [hp.nextprop_neg hneg])
      · exact ih (nextTag_aligned (by rw [h]; decide))
  | stop h =>
    rw [nextprop_stop h, propertyScan]
    exact Or.inl rfl

/-- The length of a property fits an `int`. -/
theorem propLen_lt {f : Blob} {o : Int} (h : (nextTag f o).1 = FDT_PROP) : propLen f o < INT_MAX := by
  obtain ⟨p, q, e, hp, -, he, -, -⟩ := nextTag_eq (t := FDT_PROP) (n := (nextTag f o).2)
    (by rw [← h]) (by decide)
  obtain ⟨h0, h1, -⟩ := offsetPtr_some hp
  have hne : ¬FDT_PROP = FDT_BEGIN_NODE := by decide
  unfold tagEnd at he
  rw [if_neg hne, if_pos rfl] at he
  split at he
  · cases he
  · rename_i lenp hl
    obtain ⟨-, -, rfl⟩ := offsetPtr_some hl
    have hpos : offDtStruct f + (o + FDT_TAGSIZE).toNat = offDtStruct f + o.toNat + 4 := by
      simp only [FDT_TAGSIZE, Nat.cast_ofNat]; omega
    rw [hpos] at he
    have hlt := be32_lt f (offDtStruct f + o.toNat + 4)
    unfold propLen
    simp only [INT_MAX] at he ⊢
    split at he
    · cases he
    · omega

/-! ## The value of a property -/

/-- The bytes of the property called `name`, if the node has it. -/
def propertyBytes (f : Blob) (o : Int) (name : Str) : Option (List UInt8) :=
  match getprop f o name with
  | .error _ => none
  | .ok (p, len) => some ((List.range len.toNat).map fun i => f.rd (p + i))

theorem NodeOk.aligned {f : Blob} {o : Int} (h : NodeOk f o) : checkNodeOffset f o % 4 = 0 := by
  obtain ⟨-, -, ht, he⟩ := checkNodeOffset_nonneg h.node
  rw [he]
  exact nextTag_aligned (by rw [ht]; decide)

/-- A lookup in a well-formed node. -/
theorem NodeOk.namelen {f : Blob} {o : Int} (h : NodeOk f o) (name : Str) :
    getPropertyNamelen f o name = .error (-FDT_ERR_NOTFOUND) ∨
      ∃ p, getPropertyNamelen f o name = .ok p ∧ propLen f p < INT_MAX := by
  unfold getPropertyNamelen firstPropertyOffset
  rw [if_neg (Int.not_lt.mpr h.node)]
  rcases propertyScan_area name h.props h.aligned with hs | ⟨p, hs, ht⟩
  · exact Or.inl hs
  · exact Or.inr ⟨p, hs, propLen_lt ht⟩

end DTFramework.Fdt
