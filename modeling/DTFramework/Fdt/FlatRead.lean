import DTFramework.Fdt.Flat
import DTFramework.Fdt.PropArea
import DTFramework.Lib.Components

/-!
# Reading flattened trees

The read-only functions of libfdt on a blob in which a tree lies. Each is a scan
of tokens; on a laid-out tree it is the search its name says.

Results:

* `propertyBytes_flat`: the value of the first property of that name;
* `subnodeOffset_flat`: the first subnode that answers to the name, or that there
  is none;
* `pathWalk_flat`: the node a path leads to.
-/
namespace DTFramework.Fdt

open DTFramework.Lib

/-! ## Tokens -/

/-- The structure block is inside the blob, and its size is in the header. -/
structure StructFits (f : Blob) : Prop where
  version : 17 ≤ version f
  struct_le : offDtStruct f + sizeDtStruct f ≤ totalsize f
  total : totalsize f < INT_MAX

section
variable {f : Blob} {o : Nat}

theorem offsetPtr_inside (hf : StructFits f) {len : Nat} (h : o + len ≤ sizeDtStruct f) :
    offsetPtr f o len = some (offDtStruct f + o) := by
  have hle := hf.struct_le
  have htotal := hf.total
  simp only [INT_MAX] at htotal
  unfold offsetPtr
  rw [if_neg (by omega)]
  simp only [Int.toNat_natCast]
  rw [if_neg (by omega), if_neg (by omega)]

theorem int32_nat {n : Nat} (h : n < 0x80000000) : int32 n = n := int32_of_lt (by omega) (by omega)

theorem tagAlign_padded {n k : Nat} (h : Padded n k) : tagAlign n = n + k := by
  obtain ⟨hmod, hlt⟩ := h
  unfold tagAlign
  omega

/-- A token that ends in the block is read. -/
theorem nextTag_inside (hf : StructFits f) {tag e k : Nat} (htag : At f.rd (offDtStruct f + o) (cell tag))
    (h32 : tag < 2 ^ 32)
    (hend : tagEnd f tag ((o + 4 : Nat) : Int) = some (e : Int)) (hoe : o + 4 ≤ e) (hk : Padded e k)
      (hle : e + k ≤ sizeDtStruct f) :
    nextTag f o = (tag, ((e + k : Nat) : Int)) := by
  have htotal := hf.total
  have hstruct := hf.struct_le
  simp only [INT_MAX] at htotal
  have hbe : be32 f (offDtStruct f + o) = tag := be32_cell htag h32
  unfold nextTag
  rw [offsetPtr_inside hf (show o + FDT_TAGSIZE ≤ sizeDtStruct f by simp only [FDT_TAGSIZE]; omega)]
  simp only [orEnd, hbe]
  rw [show ((o : Int) + (FDT_TAGSIZE : Nat)) = ((o + 4 : Nat) : Int) by simp, hend]
  simp only
  rw [show ((e : Int) - (o : Int)).toNat = e - o by omega, offsetPtr_inside hf (by omega)]
  simp only [Int.toNat_natCast]
  rw [tagAlign_padded hk, int32_nat (by omega)]

theorem skipName_inside (hf : StructFits f) {name : Str} (h : At f.rd (offDtStruct f + o) (name ++ [0]))
    (hz : 0 ∉ name)
    (hle : o + name.length + 1 ≤ sizeDtStruct f) : skipName f o = some ((o + name.length + 1 : Nat) : Int) := by
  induction name generalizing o with
  | nil =>
    rw [List.length_nil] at hle ⊢
    rw [skipName_eq, offsetPtr_inside hf (by omega)]
    simp only
    rw [if_pos h.1]
    rfl
  | cons c name ih =>
    rw [List.mem_cons, not_or] at hz
    rw [List.length_cons] at hle ⊢
    rw [skipName_eq, offsetPtr_inside hf (by omega)]
    simp only
    rw [List.cons_append, at_cons] at h
    rw [if_neg (by rw [h.1]; exact Ne.symm hz.1)]
    have hrest := ih (o := o + 1) (h.2.cast (Nat.add_assoc _ _ _)) hz.2 (by omega)
    rw [show ((o : Int) + 1) = ((o + 1 : Nat) : Int) by simp, hrest]
    congr 2
    omega

theorem nextTag_begin (hf : StructFits f) {a : FlatNode} {strs : Str} (ha : a.Ok strs)
    (h : At f.rd (offDtStruct f + o) a.header) (ho : o % 4 = 0) (hle : o + a.header.length ≤ sizeDtStruct f) :
    nextTag f o = (FDT_BEGIN_NODE, ((o + a.header.length : Nat) : Int)) := by
  have hpad := ha.pad
  unfold Padded at hpad
  rw [header_length] at hle
  unfold FlatNode.header at h
  rw [at_append, cell_length] at h
  have hname : At f.rd (offDtStruct f + (o + 4)) (a.name ++ [0]) := by
    have hall := h.2
    rw [show a.name ++ 0 :: a.pad = (a.name ++ [0]) ++ a.pad by simp, at_append] at hall
    exact hall.1.cast (Nat.add_assoc _ _ _)
  have hskip := skipName_inside hf hname ha.name (by omega)
  have hend : tagEnd f FDT_BEGIN_NODE ((o + 4 : Nat) : Int) = some ((o + 4 + a.name.length + 1 : Nat) : Int) := by
    unfold tagEnd
    rw [if_pos rfl, hskip]
  have htag := nextTag_inside hf h.1 (by decide) hend (by omega) (k := a.pad.length) ⟨by omega, hpad.2⟩ (by omega)
  rw [htag, header_length]
  congr 2
  omega

theorem tagEnd_plain {tag : Nat} (e : Int) (h : tag = FDT_END ∨ tag = FDT_END_NODE ∨ tag = FDT_NOP) :
    tagEnd f tag e = some e := by
  unfold tagEnd
  rw [if_neg (by rcases h with rfl | rfl | rfl <;> decide), if_neg (by rcases h with rfl | rfl | rfl <;> decide),
    if_pos h]

theorem nextTag_plain (hf : StructFits f) {tag : Nat} (ht : tag = FDT_END ∨ tag = FDT_END_NODE ∨ tag = FDT_NOP)
    (h : At f.rd (offDtStruct f + o) (cell tag)) (ho : o % 4 = 0) (hle : o + 4 ≤ sizeDtStruct f) :
    nextTag f o = (tag, ((o + 4 : Nat) : Int)) := by
  have h32 : tag < 2 ^ 32 := by rcases ht with rfl | rfl | rfl <;> decide
  exact nextTag_inside hf h h32 (tagEnd_plain _ ht) (Nat.le_refl _) (k := 0) ⟨by omega, by decide⟩ (by omega)

theorem nextTag_prop (hf : StructFits f) {nameoff : Nat} {value pad strs : Str}
    (hok : (Item.prop nameoff value pad).Ok strs)
    (h : At f.rd (offDtStruct f + o) (Item.prop nameoff value pad).bytes) (ho : o % 4 = 0)
    (hle : o + (Item.prop nameoff value pad).bytes.length ≤ sizeDtStruct f) :
    nextTag f o = (FDT_PROP, ((o + (Item.prop nameoff value pad).bytes.length : Nat) : Int)) := by
  have hpad := hok.1
  have htotal := hf.total
  have hstruct := hf.struct_le
  have hversion := hf.version
  unfold Padded at hpad
  simp only [INT_MAX] at htotal
  rw [prop_length] at hle ⊢
  unfold Item.bytes at h
  rw [at_append, cell_length, at_append, cell_length] at h
  have hlen : be32 f (offDtStruct f + (o + 4)) = value.length :=
    be32_cell (h.2.1.cast (Nat.add_assoc _ _ _)) (by omega)
  have hend : tagEnd f FDT_PROP ((o + 4 : Nat) : Int) = some ((o + 12 + value.length : Nat) : Int) := by
    unfold tagEnd
    rw [if_neg (by decide), if_pos rfl, offsetPtr_inside hf (by omega)]
    simp only [hlen, Int.toNat_natCast, INT_MAX]
    rw [if_neg (by omega), if_neg (by omega)]
    exact congrArg some (by omega)
  have htag := nextTag_inside hf h.1 (by decide) hend (by omega) (k := pad.length) ⟨by omega, hpad.2⟩ (by omega)
  rw [htag, Nat.add_assoc (o + 12), Nat.add_assoc o, Nat.add_assoc 12]

end

/-! ## Properties -/

/-- A list stands in the structure block from `o` on. -/
def Stands (f : Blob) (o : Nat) (bytes : Str) : Prop := At f.rd (offDtStruct f + o) bytes ∧
    o + bytes.length ≤ sizeDtStruct f

/-- The strings of property names stand in the strings block. -/
structure Strings (f : Blob) (strs : Str) : Prop where
  probe : 0 ≤ roProbe f
  magic : magic f = FDT_MAGIC
  size : sizeDtStrings f = strs.length
  inside : offDtStrings f + strs.length ≤ totalsize f
  stands : At f.rd (offDtStrings f) strs

section
variable {f : Blob} {strs : Str} {o : Nat}

theorem Stands.append {l l' : Str} : Stands f o (l ++ l') ↔ Stands f o l ∧ Stands f (o + l.length) l' := by
  unfold Stands
  rw [at_append, List.length_append, Nat.add_assoc]
  constructor
  · rintro ⟨⟨h, h'⟩, hle⟩
    exact ⟨⟨h, by omega⟩, h', by omega⟩
  · rintro ⟨⟨h, -⟩, h', hle⟩
    exact ⟨⟨h, h'⟩, by omega⟩

/-- A C string is what stands before the first NUL. -/
theorem cstr_takeWhile {rd : Nat → UInt8} {p : Nat} {l : Str} (h : At rd p l) :
    cstr rd p l.length = l.takeWhile (· != 0) := by
  induction l generalizing p with
  | nil => rfl
  | cons c l ih =>
    rw [List.length_cons, cstr, h.1, ih h.2, List.takeWhile_cons]
    by_cases hc : c = 0
    · rw [if_pos hc, if_neg (by simp [hc])]
    · rw [if_neg hc, if_pos (by simpa using hc)]

theorem getString_flat (hs : Strings f strs) (hf : StructFits f) {nameoff : Nat} (h : NameIn strs nameoff) :
    getString f nameoff = .ok (nameAt strs nameoff) := by
  have htotal := hf.total
  have hinside := hs.inside
  have hsize := hs.size
  simp only [INT_MAX] at htotal
  unfold NameIn at h
  have habs : (((nameoff : Int) + (offDtStrings f : Nat)) % 0x100000000).toNat = offDtStrings f + nameoff := by omega
  have hat : At f.rd (offDtStrings f + nameoff) (strs.drop nameoff) := by
    have hall := hs.stands
    rw [← List.take_append_drop nameoff strs, at_append, List.length_take, Nat.min_eq_left (by omega)] at hall
    exact hall.2
  have hcstr : cstr f.rd (offDtStrings f + nameoff) (strs.length - nameoff) = nameAt strs nameoff := by
    have hall := cstr_takeWhile hat
    rwa [List.length_drop] at hall
  unfold getString
  rw [if_neg (Int.not_lt.mpr hs.probe)]
  dsimp only
  rw [habs, if_neg (by omega), if_pos hs.magic, if_neg (by omega), if_pos hf.version, if_neg (by omega), hsize,
    Int.toNat_natCast, Nat.min_eq_right (by omega), cstrWithin, hcstr, if_pos (by omega)]

/-- The token after the properties is not one of them. -/
def StopsItems (f : Blob) (o : Nat) : Prop := (nextTag f o).1 = FDT_BEGIN_NODE ∨ (nextTag f o).1 = FDT_END_NODE

theorem nextprop_stops (h : StopsItems f o) : nextprop f o = -FDT_ERR_NOTFOUND := by
  have hne : (nextTag f o).1 ≠ FDT_END ∧ (nextTag f o).1 ≠ FDT_PROP ∧ (nextTag f o).1 ≠ FDT_NOP := by
    rcases h with h | h <;> rw [h] <;> decide
  rw [nextprop]
  rw [dif_neg hne.1, if_neg hne.2.1, if_neg hne.2.2]

/-- The name, length and value of a property that stands in the block. -/
theorem prop_fields (hf : StructFits f) {nameoff : Nat} {value pad : Str} (hok : (Item.prop nameoff value pad).Ok strs)
    (hs : Strings f strs) (h : Stands f o (Item.prop nameoff value pad).bytes) :
    propLen f o = value.length ∧ propNameoff f o = nameoff ∧ At f.rd (propData f o) value := by
  have htotal := hf.total
  have hstruct := hf.struct_le
  have hinside := hs.inside
  have hname := hok.2
  unfold NameIn at hname
  simp only [INT_MAX] at htotal
  obtain ⟨h, hle⟩ := h
  rw [prop_length] at hle
  unfold Item.bytes at h
  rw [at_append, cell_length, at_append, cell_length, at_append, cell_length, at_append] at h
  obtain ⟨-, hlen, hoff, hvalue, -⟩ := h
  rw [Nat.add_assoc _ 4 4] at hoff hvalue
  rw [Nat.add_assoc _ (4 + 4) 4] at hvalue
  refine ⟨?_, ?_, ?_⟩
  · unfold propLen
    rw [Int.toNat_natCast]
    exact be32_cell hlen (by omega)
  · unfold propNameoff
    rw [Int.toNat_natCast, be32_cell hoff (by omega), int32_nat (by omega)]
  · unfold propData
    rw [Int.toNat_natCast]
    exact hvalue

/-- The first property called `name`: where it lies after `o`, and the properties
before and after it. -/
def findItem (strs name : Str) : List Item → Option (List Item × Item × List Item)
  | [] => none
  | .nop :: items => (findItem strs name items).map fun r => (.nop :: r.1, r.2)
  | .prop nameoff value pad :: items =>
    if nameAt strs nameoff = name then some ([], .prop nameoff value pad, items)
    else (findItem strs name items).map fun r => (.prop nameoff value pad :: r.1, r.2)

theorem findItem_split {name : Str} {items pre post : List Item} {i : Item}
    (h : findItem strs name items = some (pre, i, post)) :
    items = pre ++ i :: post ∧ ∃ nameoff value pad, i = .prop nameoff value pad ∧ nameAt strs nameoff = name := by
  induction items generalizing pre with
  | nil => cases h
  | cons j items ih =>
    have hlater {q : List Item × Item × List Item} (hq : findItem strs name items = some q)
      (he : (j :: q.1, q.2) = (pre, i, post)) :
        j :: items = pre ++ i :: post ∧ ∃ nameoff value pad, i = .prop nameoff value pad ∧
            nameAt strs nameoff = name := by
      obtain ⟨q1, q2, q3⟩ := q
      cases he
      obtain ⟨hsplit, hi⟩ := ih hq
      exact ⟨by rw [hsplit]; rfl, hi⟩
    cases j with
    | nop =>
      obtain ⟨q, hq, he⟩ := Option.map_eq_some_iff.mp h
      exact hlater hq he
    | prop nameoff value pad =>
      rw [findItem] at h
      by_cases hname : nameAt strs nameoff = name
      · rw [if_pos hname] at h
        cases h
        exact ⟨rfl, nameoff, value, pad, rfl, hname⟩
      · rw [if_neg hname] at h
        obtain ⟨q, hq, he⟩ := Option.map_eq_some_iff.mp h
        exact hlater hq he

/-- The properties before the one that is found have other names. -/
theorem findItem_data {name : Str} (items : List Item) :
    (items.filterMap (Item.data strs)).find? (·.1 == name) =
      (findItem strs name items).bind fun r => Item.data strs r.2.1 := by
  induction items with
  | nil => rfl
  | cons j items ih =>
    cases j with
    | nop =>
      rw [findItem, Option.bind_map, List.filterMap_cons_none rfl, ih]
      rfl
    | prop nameoff value pad =>
      have hdata : Item.data strs (.prop nameoff value pad) = some (nameAt strs nameoff, value) := rfl
      rw [findItem, List.filterMap_cons_some hdata, List.find?_cons]
      by_cases hname : nameAt strs nameoff = name
      · rw [if_pos hname]
        simp [hname, Item.data]
      · rw [if_neg hname, Option.bind_map, ih]
        have hne : (nameAt strs nameoff == name) = false := by simpa using hname
        simp only [hne]
        rfl

theorem propertyScan_neg {name : Str} {e : Int} (h : e < 0) : propertyScan f name e = .error e := by
  rw [propertyScan, if_pos h]

/-- The scan over properties that stand in the block finds the first of the name. -/
theorem propertyScan_flat (hf : StructFits f) (hs : Strings f strs) (name : Str) {items : List Item}
    (hok : ∀ i ∈ items, i.Ok strs) (h : Stands f o (itemBytes items)) (ho : o % 4 = 0)
    (hstop : StopsItems f (o + (itemBytes items).length)) :
    propertyScan f name (nextprop f o) = match findItem strs name items with
      | none => .error (-FDT_ERR_NOTFOUND)
      | some r => .ok ((o + (itemBytes r.1).length : Nat) : Int) := by
  induction items generalizing o with
  | nil =>
    rw [nextprop_stops (o := o) hstop, propertyScan_neg (by decide)]
    rfl
  | cons i items ih =>
    obtain ⟨hi, hok⟩ := List.forall_mem_cons.mp hok
    rw [itemBytes_cons, Stands.append] at h
    rw [itemBytes_cons, List.length_append, ← Nat.add_assoc] at hstop
    have hal := hi.aligned
    have hrest := ih hok h.2 (by omega) hstop
    cases i with
    | nop =>
      have htag := nextTag_plain hf (Or.inr (Or.inr rfl)) h.1.1 ho h.1.2
      rw [nextprop_nop (by rw [htag]), htag]
      rw [nop_length] at hrest
      simp only
      rw [hrest, findItem]
      cases findItem strs name items with
      | none => rfl
      | some r =>
        simp only [Option.map_some, itemBytes_cons, List.length_append, nop_length]
        rw [Nat.add_assoc]
    | prop nameoff value pad =>
      have htag := nextTag_prop hf hi h.1.1 ho h.1.2
      have htagp : (nextTag f o).1 = FDT_PROP := by rw [htag]
      obtain ⟨-, hoff, -⟩ := prop_fields hf hi hs h.1
      have hcheck : checkPropOffset f o = ((o + (Item.prop nameoff value pad).bytes.length : Nat) : Int) := by
        rw [checkPropOffset_eq htagp (by omega), htag]
      have hnext : nextPropertyOffset f o = nextprop f
          ((o + (Item.prop nameoff value pad).bytes.length : Nat) : Int) := by
        unfold nextPropertyOffset
        rw [hcheck, if_neg (by omega)]
      have hstring : stringEq f (propNameoff f o) name = (nameAt strs nameoff == name) := by
        unfold stringEq
        rw [hoff, getString_flat hs hf hi.2]
      have hget : ∃ len, getPropertyByOffset f o = .ok len := by
        unfold getPropertyByOffset
        rw [hcheck, if_neg (by omega)]
        exact ⟨_, rfl⟩
      obtain ⟨len, hget⟩ := hget
      rw [nextprop_prop htagp, propertyScan, if_neg (by omega)]
      simp only [hget]
      rw [hstring, findItem]
      by_cases hname : nameAt strs nameoff = name
      · rw [if_pos (by simpa using hname), if_pos hname]
        simp [itemBytes]
      · rw [if_neg (by simpa using hname), if_neg hname, hnext]
        by_cases hneg : nextprop f ((o + (Item.prop nameoff value pad).bytes.length : Nat) : Int) < 0
        · rw [dif_pos hneg]
          rw [propertyScan_neg hneg] at hrest
          rw [hrest]
          cases findItem strs name items with
          | none => rfl
          | some r => simp only [Option.map_some, itemBytes_cons, List.length_append, Nat.add_assoc]
        · rw [dif_neg hneg, hrest]
          cases findItem strs name items with
          | none => rfl
          | some r => simp only [Option.map_some, itemBytes_cons, List.length_append, Nat.add_assoc]

end

/-! ## Nodes -/

/-- A forest lies in a blob: its bytes and `FDT_END` are the structure block. -/
structure Lies (f : Blob) (strs : Str) (t : Forest FlatNode) : Prop where
  fits : StructFits f
  strings : Strings f strs
  stands : Stands f 0 (flat t ++ cell FDT_END)
  ok : t.All (FlatNode.Ok strs)

/-- A node answers to a name that is its own, or its own without the unit address. -/
def answers (name : Str) (a : FlatNode) : Bool := nameMatches a.name name

/-- The offset of a place. -/
def placeOffset (l : Place FlatNode) : Nat := (l.ctx.before FlatNode.opens FlatNode.closes).length

section
variable {f : Blob} {strs : Str} {o : Nat}

theorem cstr_ends {rd : Nat → UInt8} {p n : Nat} {name : Str} (h : At rd p (name ++ [0])) (hz : 0 ∉ name)
    (hn : name.length < n) :
    cstr rd p n = name := by
  induction name generalizing p n with
  | nil =>
    cases n with
    | zero => exact absurd hn (Nat.not_lt_zero _)
    | succ n => rw [cstr, if_pos h.1]
  | cons c name ih =>
    rw [List.mem_cons, not_or] at hz
    rw [List.cons_append, at_cons] at h
    cases n with
    | zero => exact absurd hn (Nat.not_lt_zero _)
    | succ n => rw [cstr, if_neg (by rw [h.1]; exact Ne.symm hz.1), h.1, ih h.2 hz.2 (Nat.lt_of_succ_lt_succ hn)]

theorem checkNodeOffset_flat (hf : StructFits f) {a : FlatNode} (ha : a.Ok strs) (h : Stands f o a.header)
    (ho : o % 4 = 0) :
    checkNodeOffset f o = ((o + a.header.length : Nat) : Int) := by
  have htag := nextTag_begin hf ha h.1 ho h.2
  unfold checkNodeOffset
  rw [if_neg (by simp only [FDT_TAGSIZE]; omega), htag, if_neg (not_not.mpr rfl)]

theorem getName_flat (hf : StructFits f) (hs : Strings f strs) {a : FlatNode} (ha : a.Ok strs)
    (h : Stands f o a.header)
    (ho : o % 4 = 0) : getName f o = .ok a.name := by
  have hversion := hf.version
  have hstruct := hf.struct_le
  have hle := h.2
  rw [header_length] at hle
  have hname : At f.rd (offDtStruct f + o + FDT_TAGSIZE) (a.name ++ [0]) := by
    have hall := h.1
    unfold FlatNode.header at hall
    rw [at_append, cell_length, show a.name ++ 0 :: a.pad = (a.name ++ [0]) ++ a.pad by simp, at_append] at hall
    exact hall.2.1
  unfold getName
  rw [if_neg (Int.not_lt.mpr hs.probe), checkNodeOffset_flat hf ha h ho, if_neg (by omega)]
  simp only [Int.toNat_natCast]
  rw [if_neg (by omega), cstr_ends hname ha.name (by omega)]

/-- The search for the next node goes over properties. -/
theorem nextNodeFrom_items (hf : StructFits f) (d : Option Int) {items : List Item} (hok : ∀ i ∈ items, i.Ok strs)
    (h : Stands f o (itemBytes items)) (ho : o % 4 = 0) :
    nextNodeFrom f o d = nextNodeFrom f ((o + (itemBytes items).length : Nat) : Int) d := by
  induction items generalizing o with
  | nil => rfl
  | cons i items ih =>
    obtain ⟨hi, hok⟩ := List.forall_mem_cons.mp hok
    rw [itemBytes_cons, Stands.append] at h
    have hal := hi.aligned
    rw [itemBytes_cons, List.length_append, ← Nat.add_assoc, ← ih hok h.2 (by omega)]
    have htag : ((nextTag f o).1 = FDT_PROP ∨ (nextTag f o).1 = FDT_NOP) ∧ (nextTag f o).2 =
      ((o + i.bytes.length : Nat) : Int) := by
      cases i with
      | nop =>
        rw [nextTag_plain hf (Or.inr (Or.inr rfl)) h.1.1 ho h.1.2]
        exact ⟨Or.inr rfl, rfl⟩
      | prop nameoff value pad =>
        rw [nextTag_prop hf hi h.1.1 ho h.1.2]
        exact ⟨Or.inl rfl, rfl⟩
    rw [nextNodeFrom.eq_def]
    have hne : (nextTag f o).1 ≠ FDT_END ∧ (nextTag f o).1 ≠ FDT_BEGIN_NODE ∧ (nextTag f o).1 ≠ FDT_END_NODE := by
      rcases htag.1 with h | h <;> rw [h] <;> decide
    rw [dif_neg hne.1, if_neg hne.2.1, if_neg hne.2.2, htag.2]

theorem nextNodeFrom_nops (hf : StructFits f) (d : Option Int) {n : Nat} (h : Stands f o (nops n)) (ho : o % 4 = 0) :
    nextNodeFrom f o d = nextNodeFrom f ((o + 4 * n : Nat) : Int) d := by
  induction n generalizing o with
  | zero => rfl
  | succ n ih =>
    have hsucc : nops (n + 1) = cell FDT_NOP ++ nops n := rfl
    rw [hsucc, Stands.append, cell_length] at h
    have htag := nextTag_plain hf (Or.inr (Or.inr rfl)) h.1.1 ho h.1.2
    have hstep : nextNodeFrom f o d = nextNodeFrom f ((o + 4 : Nat) : Int) d := by
      rw [nextNodeFrom.eq_def, htag, dif_neg (show ¬FDT_NOP = FDT_END by decide), if_neg
        (show ¬FDT_NOP = FDT_BEGIN_NODE by decide),
        if_neg (show ¬FDT_NOP = FDT_END_NODE by decide)]
    rw [hstep, ih h.2 (by omega)]
    congr 2
    omega

/-- At a node's header the search ends. -/
theorem nextNodeFrom_header (hf : StructFits f) {a : FlatNode} (ha : a.Ok strs) (h : Stands f o a.header)
    (ho : o % 4 = 0) (d : Int) :
    nextNodeFrom f o (some d) = ((o : Int), some (d + 1)) := by
  have htag := nextTag_begin hf ha h.1 ho h.2
  rw [nextNodeFrom, htag, dif_neg (show ¬FDT_BEGIN_NODE = FDT_END by decide), if_pos rfl]
  rfl

/-- At a node's end it goes one level up, and stops below the first. -/
theorem nextNodeFrom_closes (hf : StructFits f) {a : FlatNode} (h : Stands f o a.closes) (ho : o % 4 = 0) (d : Int) :
    nextNodeFrom f o (some d) = if d < 1 then (((o + 4 : Nat) : Int), some (d - 1))
      else nextNodeFrom f ((o + a.closes.length : Nat) : Int) (some (d - 1)) := by
  unfold FlatNode.closes at h
  rw [Stands.append, cell_length] at h
  have htag := nextTag_plain hf (Or.inr (Or.inl rfl)) h.1.1 ho h.1.2
  rw [nextNodeFrom, htag, dif_neg (show ¬FDT_END_NODE = FDT_END by decide), if_neg
    (show ¬FDT_END_NODE = FDT_BEGIN_NODE by decide),
    if_pos rfl]
  by_cases hd : d < 1
  · rw [if_pos hd, if_pos (by omega)]
  · rw [if_neg hd, if_neg (by omega), nextNodeFrom_nops hf _ h.2 (by omega), closes_length]
    congr 2
    omega

/-- The scan of `fdt_subnode_offset_namelen` that goes on from a token. -/
def levelScan (f : Blob) (name : Str) (o d : Int) : Int :=
  let r := nextNodeFrom f o (some d)
  if r.2.getD 0 < 0 then -FDT_ERR_NOTFOUND
  else if r.1 < 0 then r.1
  else subnodeScan f name r.1 (r.2.getD 0)

theorem levelScan_congr {name : Str} {p q d e : Int} (h : nextNodeFrom f p (some d) = nextNodeFrom f q (some e)) :
    levelScan f name p d = levelScan f name q e := by
  unfold levelScan
  rw [h]

/-- A node that does not answer on the first level is gone over. -/
theorem subnodeScan_flat (hf : StructFits f) (hs : Strings f strs) {a : FlatNode} (ha : a.Ok strs) (name : Str)
    (h : Stands f o a.opens)
    (ho : o % 4 = 0) (d : Int) : subnodeScan f name o d =
      if d = 1 ∧ answers name a = true then (o : Int) else levelScan f name ((o + a.opens.length : Nat) : Int) d := by
  unfold FlatNode.opens at h
  rw [Stands.append] at h
  have hname : nodenameEq f o name = answers name a := by
    unfold nodenameEq
    rw [getName_flat hf hs ha h.1 ho]
    rfl
  have hcheck := checkNodeOffset_flat hf ha h.1 ho
  have hal := ha.header_aligned
  have hitems := nextNodeFrom_items hf (some d) ha.items h.2 (by omega)
  rw [Nat.add_assoc, ← opens_length] at hitems
  rw [subnodeScan, hname]
  by_cases hfound : d = 1 ∧ answers name a = true
  · rw [if_pos hfound, if_pos hfound]
  · rw [if_neg hfound, if_neg hfound]
    have hnext : nextNode f o (some d) = nextNodeFrom f ((o + a.opens.length : Nat) : Int) (some d) := by
      unfold nextNode
      rw [if_pos (Int.natCast_nonneg o), hcheck, if_neg (by omega), hitems]
    unfold nextNodeDepth levelScan
    simp only [hnext, dite_eq_ite]

/-- Below the first level a forest is gone over. -/
theorem levelScan_deep (hf : StructFits f) (hs : Strings f strs) (name : Str) {t : Forest FlatNode}
    (hok : t.All (FlatNode.Ok strs))
    (h : Stands f o (flat t)) (ho : o % 4 = 0) {d : Int} (hd : 1 ≤ d) :
    levelScan f name o d = levelScan f name ((o + (flat t).length : Nat) : Int) d := by
  induction t generalizing o d with
  | nil => rfl
  | node a subs rest ihs ihr =>
    obtain ⟨ha, hsubs, hrest⟩ := hok
    have hflat : flat (.node a subs rest) = a.opens ++ flat subs ++ a.closes ++ flat rest := rfl
    rw [hflat, Stands.append, Stands.append, Stands.append] at h
    obtain ⟨⟨⟨hopens, hsub⟩, hcloses⟩, hrests⟩ := h
    have h1 := ha.opens_aligned
    have h2 := flat_aligned hsubs
    have h3 := closes_aligned a
    rw [List.length_append, ← Nat.add_assoc] at hcloses
    rw [List.length_append, List.length_append, ← Nat.add_assoc, ← Nat.add_assoc] at hrests
    have hhead : Stands f o a.header := by
      unfold FlatNode.opens at hopens
      exact (Stands.append.mp hopens).1
    have hfirst : levelScan f name o d = subnodeScan f name o (d + 1) := by
      unfold levelScan
      rw [nextNodeFrom_header hf ha hhead ho]
      simp only [Option.getD_some]
      rw [if_neg (by omega), if_neg (by omega)]
    have hup := nextNodeFrom_closes hf hcloses (by omega) (d + 1)
    rw [if_neg (by omega), Int.add_sub_cancel] at hup
    rw [hfirst, subnodeScan_flat hf hs ha name hopens ho, if_neg (by omega), ihs hsubs hsub (by omega) (by omega),
      levelScan_congr hup, ihr hrest hrests (by omega) hd, hflat]
    simp only [List.length_append, Nat.add_assoc]

theorem before_next {a : FlatNode} {subs : Forest FlatNode} {c : Ctx FlatNode}
    (hc : (c.before FlatNode.opens FlatNode.closes).length = o) :
    ((Ctx.next a subs c).before FlatNode.opens FlatNode.closes).length =
      o + a.opens.length + (flat subs).length + a.closes.length := by
  rw [Ctx.before, List.length_append, List.length_append, List.length_append, hc, ← Nat.add_assoc, ← Nat.add_assoc]
  rfl

/-- On the first level the scan finds the first node that answers. -/
theorem levelScan_first (hf : StructFits f) (hs : Strings f strs) (name : Str) {t : Forest FlatNode} {c : Ctx FlatNode}
    (hok : t.All (FlatNode.Ok strs)) (h : Stands f o (flat t)) (ho : o % 4 = 0)
    (hc : (c.before FlatNode.opens FlatNode.closes).length = o) :
    levelScan f name o 0 = match Place.firstSuch (answers name) c t with
      | none => levelScan f name ((o + (flat t).length : Nat) : Int) 0
      | some l => (placeOffset l : Int) := by
  induction t generalizing o c with
  | nil => rfl
  | node a subs rest _ ihr =>
    obtain ⟨ha, hsubs, hrest⟩ := hok
    have hflat : flat (.node a subs rest) = a.opens ++ flat subs ++ a.closes ++ flat rest := rfl
    rw [hflat, Stands.append, Stands.append, Stands.append] at h
    obtain ⟨⟨⟨hopens, hsub⟩, hcloses⟩, hrests⟩ := h
    have h1 := ha.opens_aligned
    have h2 := flat_aligned hsubs
    have h3 := closes_aligned a
    rw [List.length_append, ← Nat.add_assoc] at hcloses
    rw [List.length_append, List.length_append, ← Nat.add_assoc, ← Nat.add_assoc] at hrests
    have hhead : Stands f o a.header := by
      unfold FlatNode.opens at hopens
      exact (Stands.append.mp hopens).1
    have hfirst : levelScan f name o 0 = subnodeScan f name o 1 := by
      unfold levelScan
      rw [nextNodeFrom_header hf ha hhead ho]
      simp only [Option.getD_some]
      rw [if_neg (by decide), if_neg (by omega)]
      rfl
    rw [hfirst, subnodeScan_flat hf hs ha name hopens ho, Place.firstSuch]
    by_cases hans : answers name a = true
    · rw [if_pos ⟨rfl, hans⟩, if_pos hans]
      simp only [placeOffset, hc]
    · have hup := nextNodeFrom_closes hf hcloses (by omega) 1
      rw [if_neg (by decide), Int.sub_self] at hup
      rw [if_neg (fun h => hans h.2), if_neg hans, levelScan_deep hf hs name hsubs hsub (by omega) (Int.le_refl 1),
        levelScan_congr hup, ihr (c := .next a subs c) hrest hrests (by omega) (before_next hc), hflat]
      simp only [List.length_append, Nat.add_assoc]

/-! ## Places -/

/-- A node stands at `o`, with what is below it. -/
structure NodeStands (f : Blob) (strs : Str) (o : Nat) (a : FlatNode) (subs : Forest FlatNode) : Prop where
  opens : Stands f o a.opens
  below : Stands f (o + a.opens.length) (flat subs)
  closes : Stands f (o + a.opens.length + (flat subs).length) a.closes
  aligned : o % 4 = 0
  ok : a.Ok strs
  subsOk : subs.All (FlatNode.Ok strs)

theorem Lies.here {l : Place FlatNode} (h : Lies f strs l.forest) :
    NodeStands f strs (placeOffset l) l.label l.subs := by
  obtain ⟨hctx, hlabel, hsubs, -⟩ := Ctx.all_plug.mp h.ok
  have hflat : flat l.forest = l.ctx.before FlatNode.opens FlatNode.closes ++
    (l.label.opens ++ flat l.subs ++ l.label.closes ++
      flat l.rest) ++ l.ctx.after FlatNode.opens FlatNode.closes := Ctx.linear_plug FlatNode.opens FlatNode.closes _ _
  have hall := h.stands
  rw [hflat] at hall
  simp only [Stands.append, Nat.zero_add] at hall
  obtain ⟨⟨⟨-, ⟨⟨hopens, hsub⟩, hcloses⟩, -⟩, -⟩, -⟩ := hall
  rw [List.length_append, ← Nat.add_assoc] at hcloses
  exact ⟨hopens, hsub, hcloses, before_aligned hctx, hlabel, hsubs⟩

section
variable {a : FlatNode} {subs : Forest FlatNode}

theorem NodeStands.header (h : NodeStands f strs o a subs) : Stands f o a.header := by
  have hopens := h.opens
  unfold FlatNode.opens at hopens
  exact (Stands.append.mp hopens).1

theorem NodeStands.items (h : NodeStands f strs o a subs) : Stands f (o + a.header.length) (itemBytes a.items) := by
  have hopens := h.opens
  unfold FlatNode.opens at hopens
  exact (Stands.append.mp hopens).2

/-- After the properties of a node come its subnodes or its end. -/
theorem NodeStands.stopsItems (hf : StructFits f) (h : NodeStands f strs o a subs) :
    StopsItems f (o + a.header.length + (itemBytes a.items).length) := by
  have hal := h.ok.opens_aligned
  have hplace := h.aligned
  rw [Nat.add_assoc, ← opens_length]
  cases subs with
  | nil =>
    have hcloses := h.closes
    unfold FlatNode.closes at hcloses
    have hend := (Stands.append.mp hcloses).1
    have htag := nextTag_plain hf (Or.inr (Or.inl rfl)) hend.1 (by change (_ + 0) % 4 = 0; omega) hend.2
    exact Or.inr (congrArg Prod.fst htag)
  | node b below rest =>
    have hsub := h.below
    have hflat : flat (.node b below rest) = b.header ++
        (itemBytes b.items ++ flat below ++ b.closes ++ flat rest) := by
      unfold flat FlatNode.opens
      rw [Forest.linear]
      simp only [List.append_assoc]
    rw [hflat, Stands.append] at hsub
    have htag := nextTag_begin hf h.subsOk.1 hsub.1.1 (by omega) hsub.1.2
    exact Or.inl (congrArg Prod.fst htag)

end

/-- A lookup by name finds the first property of the name. -/
theorem getPropertyNamelen_flat {l : Place FlatNode} (h : Lies f strs l.forest) (name : Str) :
    getPropertyNamelen f (placeOffset l) name = match findItem strs name l.label.items with
      | none => .error (-FDT_ERR_NOTFOUND)
      | some r => .ok ((placeOffset l + l.label.header.length + (itemBytes r.1).length : Nat) : Int) := by
  have hhere := h.here
  have hal := hhere.ok.header_aligned
  have hplace := hhere.aligned
  have hfirst : firstPropertyOffset f (placeOffset l) = nextprop f
    ((placeOffset l + l.label.header.length : Nat) : Int) := by
    unfold firstPropertyOffset
    rw [checkNodeOffset_flat h.fits hhere.ok hhere.header hplace, if_neg (by omega)]
  unfold getPropertyNamelen
  rw [hfirst]
  exact propertyScan_flat h.fits h.strings name hhere.ok.items hhere.items (by omega) (hhere.stopsItems h.fits)

/-- Where a subnode that answers to the name lies, if there is one. -/
theorem subnodeOffset_flat {l : Place FlatNode} (h : Lies f strs l.forest) (name : Str) :
    subnodeOffset f (placeOffset l) name = match l.child (answers name) with
      | none => -FDT_ERR_NOTFOUND
      | some l' => (placeOffset l' : Int) := by
  have hhere := h.here
  have hal := hhere.ok.opens_aligned
  have hplace := hhere.aligned
  have hsubsal := flat_aligned hhere.subsOk
  have hscan := subnodeScan_flat h.fits h.strings hhere.ok name hhere.opens hplace 0
  rw [if_neg (by simp)] at hscan
  have hfirst := levelScan_first h.fits h.strings name (c := .down l.label l.rest l.ctx) hhere.subsOk hhere.below
    (by omega) (by
    rw [Ctx.before, List.length_append]
    rfl)
  have hend : levelScan f name ((placeOffset l + l.label.opens.length + (flat l.subs).length : Nat) : Int) 0 =
    -FDT_ERR_NOTFOUND := by
    unfold levelScan
    rw [nextNodeFrom_closes h.fits hhere.closes (by omega), if_pos (show (0 : Int) < 1 by decide)]
    rfl
  unfold subnodeOffset
  rw [if_neg (Int.not_lt.mpr h.strings.probe), if_neg (by omega), hscan, hfirst, hend]
  rfl

theorem head_ne_slash {path p : Str} {c : UInt8} (h : path.dropWhile (· == SLASH) = c :: p) : c ≠ SLASH := by
  have hhead := List.head?_dropWhile_not (· == SLASH) path
  rw [h] at hhead
  simpa using hhead

/-- A path is walked down from a place. -/
theorem pathWalk_places (f : Blob) (o : Int) (path : Str) : ∀ l :
    Place FlatNode, Lies f strs l.forest → (placeOffset l : Int) = o →
    pathWalk f o path = match l.walk ((components SLASH path).map answers) with
      | none => -FDT_ERR_NOTFOUND
      | some l' => (placeOffset l' : Int) := by
  fun_induction pathWalk f o path with
  | case1 o path hdrop =>
    intro l h ho
    have hnone : components SLASH path = [] := by rw [← components_dropWhile, hdrop, components_nil]
    rw [hnone]
    exact ho.symm
  | case2 o path c p hdrop next hneg =>
    rintro l h rfl
    have hchild : next = _ := subnodeOffset_flat h (c :: p.takeWhile (· != SLASH))
    rw [← components_dropWhile, hdrop, components_first (head_ne_slash hdrop), List.map_cons, Place.walk]
    cases hfind : l.child (answers (c :: p.takeWhile (· != SLASH))) with
    | none =>
      rw [hfind] at hchild
      exact hchild
    | some l' =>
      rw [hfind] at hchild
      exact absurd hneg (by rw [hchild]; exact Int.not_lt.mpr (Int.natCast_nonneg _))
  | case3 o path c p hdrop next hnext ih =>
    rintro l h rfl
    have hchild : next = _ := subnodeOffset_flat h (c :: p.takeWhile (· != SLASH))
    rw [← components_dropWhile path, hdrop, components_first (head_ne_slash hdrop), List.map_cons, Place.walk]
    cases hfind : l.child (answers (c :: p.takeWhile (· != SLASH))) with
    | none =>
      rw [hfind] at hchild
      exact absurd (by rw [hchild]; decide) hnext
    | some l' =>
      rw [hfind] at hchild
      exact ih l' (by rw [Place.child_forest hfind]; exact h) hchild.symm

theorem pathWalk_flat {l : Place FlatNode} (h : Lies f strs l.forest) (path : Str) :
    pathWalk f (placeOffset l) path = match l.walk ((components SLASH path).map answers) with
      | none => -FDT_ERR_NOTFOUND
      | some l' => (placeOffset l' : Int) := pathWalk_places f _ path l h rfl

/-! ## What is read -/

/-- The value of a property of a node. -/
def NodeData.value (a : NodeData) (name : Str) : Option Str := (a.props.find? (·.1 == name)).map (·.2)

/-- The node a path leads to from `l`, where a component may leave out the unit
address of the node. -/
def lookup (l : Place NodeData) (path : Str) : Option (Place NodeData) :=
  l.walk ((components SLASH path).map fun name a => nameMatches a.name name)

theorem range_at {rd : Nat → UInt8} {p : Nat} {l : Str} (h : At rd p l) :
    ((List.range l.length).map fun i => rd (p + i)) = l := by
  induction l generalizing p with
  | nil => rfl
  | cons c l ih =>
    have hrest : ((List.range l.length).map fun i => rd (p + (i + 1))) = l := by
      have hl := ih h.2
      simpa only [Nat.add_assoc, Nat.add_comm 1] using hl
    rw [List.length_cons, List.range_succ_eq_map, List.map_cons, List.map_map]
    exact congrArg₂ _ h.1 hrest

/-- What `fdt_getprop` answers at a node. -/
theorem getprop_flat {l : Place FlatNode} (h : Lies f strs l.forest) (name : Str) :
    ((l.label.data strs).value name = none ∧ getprop f (placeOffset l) name = .error (-FDT_ERR_NOTFOUND)) ∨
      ∃ v p, (l.label.data strs).value name = some v ∧ getprop f (placeOffset l) name = .ok (p, (v.length : Int)) ∧
        At f.rd p v ∧ v.length < INT_MAX := by
  have hlen := getPropertyNamelen_flat h name
  have hhere := h.here
  unfold NodeData.value FlatNode.data
  rw [findItem_data]
  unfold getprop
  rw [hlen]
  cases hfind : findItem strs name l.label.items with
  | none => exact Or.inl ⟨rfl, rfl⟩
  | some r =>
    obtain ⟨pre, i, post⟩ := r
    obtain ⟨hsplit, nameoff, value, pad, rfl, -⟩ := findItem_split hfind
    have hitems := hhere.items
    rw [hsplit, itemBytes_append, itemBytes_cons, Stands.append, Stands.append] at hitems
    have hok := hhere.ok.items _ (hsplit ▸ List.mem_append_right pre List.mem_cons_self)
    obtain ⟨hplen, -, hdata⟩ := prop_fields h.fits hok h.strings hitems.2.1
    have hversion := h.fits.version
    have htotal := h.fits.total
    have hstruct := h.fits.struct_le
    have hfits := hitems.2.1.2
    rw [prop_length] at hfits
    simp only [INT_MAX] at htotal ⊢
    refine Or.inr ⟨value, _, rfl, ?_, hdata, by omega⟩
    simp only [propValue]
    rw [if_neg (by omega), hplen, int32_nat (by omega)]

theorem propertyBytes_flat {l : Place FlatNode} (h : Lies f strs l.forest) (name : Str) :
    propertyBytes f (placeOffset l) name = (l.label.data strs).value name := by
  unfold propertyBytes
  rcases getprop_flat h name with ⟨hvalue, hget⟩ | ⟨v, p, hvalue, hget, hat, -⟩
  · rw [hvalue, hget]
  · rw [hvalue, hget]
    exact congrArg some (range_at hat)

end

end DTFramework.Fdt
