import DTFramework.Fdt.Edit

/-!
# Editing trees

What `fdt_setprop` and `fdt_add_subnode` do to the tree that a blob carries
(`Laid`). A call that succeeds is the edit of the tree at the place of the node,
and the rest of the tree, its order and the memory around the blob stay; a call
that fails for want of room leaves the tree, the string it had added taken back.

Results:

* `setprop_laid`: the property has the value; a new property is the first of its node;
* `addSubnode_laid`: the new node is the first below its parent.
-/
namespace DTFramework.Fdt

open DTFramework.Lib

/-! ## Blobs that carry a tree -/

/-- The text of a blob carries a tree. -/
structure Laid (m : Mem) (p : Nat) (i : Image) (t : Forest FlatNode) : Prop where
  holds : Holds m p i
  struct : ∃ junk, i.struct = flat t ++ (cell FDT_END ++ junk)
  ok : t.All (FlatNode.Ok i.strs)

theorem Laid.lies {m : Mem} {p : Nat} {i : Image} {t : Forest FlatNode} (h : Laid m p i t) :
    Lies (blobAt m p) i.strs t := by
  obtain ⟨junk, hs⟩ := h.struct
  have hr := h.holds.reads
  have hat := (at_append.mp h.holds.struct).1
  rw [hs, ← List.append_assoc] at hat
  refine ⟨h.holds.structFits, h.holds.strings, ⟨(at_append.mp hat).1.cast (by rw [hr.offStruct, Nat.add_zero]), ?_⟩,
    h.ok⟩
  rw [hr.sizeStruct, hs, Nat.zero_add]
  simp only [List.length_append]
  omega

@[simp] theorem offStruct_struct (i : Image) (s : Str) : ({ i with struct := s } : Image).offStruct = i.offStruct :=
  rfl
@[simp] theorem offStruct_strs (i : Image) (s : Str) : ({ i with strs := s } : Image).offStruct = i.offStruct := rfl

/-- The text of a blob for a tree, without reservations. -/
def layout (t : Forest FlatNode) (strs : Str) (total : Nat) : Image where
  total := total
  offRsv := 40
  version := 17
  lastComp := 16
  boot := 0
  reserved := List.replicate 16 0
  struct := flat t ++ cell FDT_END
  gap := []
  strs := strs

/-- Laid out, any tree is carried. -/
theorem layout_laid {m : Mem} {t : Forest FlatNode} {strs : Str} {total p : Nat}
    (h : At m p (layout t strs total).bytes) (hp : p % 8 = 0)
    (hok : t.All (FlatNode.Ok strs)) (hsize : (layout t strs total).size ≤ total) (htotal : total < INT_MAX) :
    Laid m p (layout t strs total) t := by
  refine ⟨holds_of_at ⟨htotal, hsize, Nat.le_refl 17, (by decide : 17 < 2 ^ 32), (by decide : 16 ≤ 17), Nat.le_refl 40,
    Nat.le_refl 56⟩ hp h,
    ⟨[], ?_⟩, hok⟩
  rw [List.append_nil]
  rfl

/-- The structure block, split at a place. -/
def Place.text (l : Place FlatNode) (junk : Str) : Str :=
  l.ctx.before FlatNode.opens FlatNode.closes ++ (l.label.header ++ (itemBytes l.label.items ++ (flat l.subs ++
    (l.label.closes ++ (flat l.rest ++ (l.ctx.after FlatNode.opens FlatNode.closes ++ (cell FDT_END ++ junk)))))))

theorem flat_place (l : Place FlatNode) (junk : Str) : flat l.forest ++ (cell FDT_END ++ junk) =
    Place.text l junk := by
  have hflat : flat l.forest = l.ctx.before FlatNode.opens FlatNode.closes ++
    (l.label.opens ++ flat l.subs ++ l.label.closes ++
      flat l.rest) ++ l.ctx.after FlatNode.opens FlatNode.closes := Ctx.linear_plug FlatNode.opens FlatNode.closes _ _
  unfold Place.text
  rw [hflat, FlatNode.opens]
  simp only [List.append_assoc]

/-- A text grows by no more than `n` bytes in a blob of one size, its strings at
their end. -/
structure Grows (n : Nat) (i i' : Image) : Prop where
  total : i'.total = i.total
  size : i'.size ≤ i.size + n
  strs : ∃ x, i'.strs = i.strs ++ x

theorem Grows.refl (i : Image) : Grows 0 i i := ⟨rfl, Nat.le_refl _, [], (List.append_nil _).symm⟩

theorem Grows.trans {n n' : Nat} {i i' i'' : Image} (h : Grows n i i') (h' : Grows n' i' i'') :
    Grows (n + n') i i'' := by
  obtain ⟨x, hx⟩ := h.strs
  obtain ⟨y, hy⟩ := h'.strs
  have hsize := h.size
  have hsize' := h'.size
  exact ⟨h'.total.trans h.total, by omega, x ++ y, by rw [hy, hx, List.append_assoc]⟩

section
variable {strs strs' : Str}

theorem NameIn.grow {k : Nat} (h : NameIn strs k) (x : Str) :
    NameIn (strs ++ x) k ∧ nameAt (strs ++ x) k = nameAt strs k := by
  have hname : nameAt (strs ++ x) k = nameAt strs k := by
    unfold NameIn at h
    unfold nameAt at h ⊢
    rw [List.drop_append_of_le_length (by omega), List.takeWhile_append, if_neg (by rw [List.length_drop]; omega)]
  refine ⟨?_, hname⟩
  unfold NameIn at h ⊢
  rw [hname, List.length_append]
  omega

theorem Item.Ok.grow {i : Item} (h : i.Ok strs) (x : Str) : i.Ok (strs ++ x) ∧ i.data (strs ++ x) = i.data strs := by
  cases i with
  | nop => exact ⟨trivial, rfl⟩
  | prop nameoff value pad =>
    obtain ⟨hin, hname⟩ := NameIn.grow h.2 x
    exact ⟨⟨h.1, hin⟩, by rw [Item.data, hname, Item.data]⟩

theorem FlatNode.Ok.grow {a : FlatNode} (h : a.Ok strs) (x : Str) :
    a.Ok (strs ++ x) ∧ a.data (strs ++ x) = a.data strs := by
  refine ⟨⟨h.name, h.pad, fun i hi => ((h.items i hi).grow x).1⟩, ?_⟩
  have hitems : a.items.filterMap (Item.data (strs ++ x)) = a.items.filterMap (Item.data strs) :=
    List.filterMap_congr fun i hi => ((h.items i hi).grow x).2
  unfold FlatNode.data
  rw [hitems]

end

section
variable {m m' : Mem} {p n : Nat} {i i' : Image}

theorem Grows.map {t : Forest FlatNode} (h : Grows n i i') (hok : t.All (FlatNode.Ok i.strs)) :
    t.map (FlatNode.data i'.strs) = t.map (FlatNode.data i.strs) := by
  obtain ⟨x, hx⟩ := h.strs
  rw [hx]
  exact Forest.map_congr (hok.mono fun a ha => (ha.grow x).2)

end

/-! ## Setting a property -/

/-- The first property called `name` gets another value. -/
def replaceFirst (name value : Str) : List (Str × Str) → Option (List (Str × Str))
  | [] => none
  | (n, v) :: props => if n = name then some ((name, value) :: props)
    else (replaceFirst name value props).map ((n, v) :: ·)

/-- A property gets a value; a new one is the first. -/
def NodeData.setprop (a : NodeData) (name value : Str) : NodeData :=
  { a with props := (replaceFirst name value a.props).getD ((name, value) :: a.props) }

theorem replaceFirst_find (name value x : Str) (props : List (Str × Str)) :
    match replaceFirst name value props with
    | none => props.find? (·.1 == name) = none
    | some props' => props'.find? (·.1 == x) = if x = name then some (name, value) else props.find? (·.1 == x) := by
  induction props with
  | nil => rfl
  | cons q props ih =>
    obtain ⟨n, v⟩ := q
    unfold replaceFirst
    by_cases hn : n = name
    · subst hn
      rw [if_pos rfl]
      by_cases hx : x = n
      · simp [hx]
      · simp [hx, Ne.symm hx]
    · rw [if_neg hn]
      cases hrest : replaceFirst name value props with
      | none =>
        rw [hrest] at ih
        simpa [hn] using ih
      | some props' =>
        rw [hrest] at ih
        dsimp only at ih
        by_cases hx : n = x
        · subst hx
          simp [hn]
        · simp [hx, ih]

/-- The property has the value then, and the others have theirs. -/
theorem NodeData.value_setprop (a : NodeData) (name value x : Str) :
    (a.setprop name value).value x = if x = name then some value else a.value x := by
  have hfind := replaceFirst_find name value x a.props
  unfold NodeData.value NodeData.setprop
  cases hprops : replaceFirst name value a.props with
  | none =>
    by_cases hx : x = name
    · simp [hx]
    · simp [hx, Ne.symm hx]
  | some props' =>
    rw [hprops] at hfind
    dsimp only at hfind
    rw [Option.getD_some, hfind]
    split <;> rfl

theorem replaceFirst_items (strs name value : Str) (items : List Item) :
    replaceFirst name value (items.filterMap (Item.data strs)) = (findItem strs name items).map fun r =>
      r.1.filterMap (Item.data strs) ++ (name, value) :: r.2.2.filterMap (Item.data strs) := by
  induction items with
  | nil => rfl
  | cons j items ih =>
    cases j with
    | nop =>
      rw [findItem, Option.map_map, List.filterMap_cons_none rfl, ih]
      rfl
    | prop nameoff v pad =>
      have hdata : Item.data strs (.prop nameoff v pad) = some (nameAt strs nameoff, v) := rfl
      rw [findItem, List.filterMap_cons_some hdata, replaceFirst]
      by_cases hname : nameAt strs nameoff = name
      · rw [if_pos hname, if_pos hname, Option.map_some, List.filterMap_nil, List.nil_append]
      · rw [if_neg hname, if_neg hname, ih, Option.map_map, Option.map_map]
        rfl

section
variable {m m' : Mem} {p : Nat} {i : Image} {a c : Str}

/-- A property lies in the structure block between `a` and `c`, and its value is
still to be written. -/
def Slot (m : Mem) (p : Nat) (i : Image) (a : Str) (nameoff len : Nat) (c : Str) : Prop :=
  ∃ g, g.length = tagAlign len ∧ Holds m p { i with struct := a ++
    (cell FDT_PROP ++ (cell len ++ (cell nameoff ++ (g ++ c)))) }

theorem tagAlign_split {g : Str} {len : Nat} (h : g.length = tagAlign len) :
    ∃ v pad, g = v ++ pad ∧ v.length = len ∧ Padded len pad.length := by
  unfold tagAlign at h
  refine ⟨g.take len, g.drop len, (List.take_append_drop len g).symm, ?_, ?_⟩
  · rw [List.length_take]
    omega
  · unfold Padded
    rw [List.length_drop]
    omega

theorem Slot.fill {nameoff : Nat} {val : Str} (h : Slot m p i a nameoff val.length c) :
    ∃ pad, Padded val.length pad.length ∧ Kept p i.total m (store m (p + (i.offStruct + a.length + 12)) val) ∧
      Holds (store m (p + (i.offStruct + a.length + 12)) val) p
        { i with struct := a ++ ((Item.prop nameoff val pad).bytes ++ c) } := by
  obtain ⟨g, hg, hholds⟩ := h
  obtain ⟨v, pad, rfl, hv, hpad⟩ := tagAlign_split hg
  have hover := hholds.overwrite (a := a ++ (cell FDT_PROP ++ (cell val.length ++ cell nameoff))) (b := v)
    (c := pad ++ c) (d := val)
    (by simp only [List.append_assoc]) hv.symm
  have hlen : (a ++ (cell FDT_PROP ++ (cell val.length ++ cell nameoff))).length = a.length + 12 := by
    simp only [List.length_append, cell_length]
  rw [hlen, offStruct_struct, ← Nat.add_assoc i.offStruct] at hover
  refine ⟨pad, hpad, hover.2, ?_⟩
  unfold Item.bytes
  simpa only [List.append_assoc] using hover.1

/-- Where a property of a node is. -/
theorem getProperty_found {l : Place FlatNode} {name : Str} {nameoff : Nat} {old pad : Str} {pre post : List Item}
    (h : Laid m p i l.forest) (hfind : findItem i.strs name l.label.items = some (pre, .prop nameoff old pad, post)) :
    getProperty (blobAt m p) (placeOffset l) name =
      .ok (i.offStruct + (placeOffset l + l.label.header.length + (itemBytes pre).length) + 12,
          (old.length : Int)) := by
  have hlies := h.lies
  have hhere := hlies.here
  have hr := h.holds.reads
  obtain ⟨hle, hstr, hsz, htot⟩ := h.holds.sizes
  obtain ⟨hsplit, -⟩ := findItem_split hfind
  have hitems := hhere.items
  rw [hsplit, itemBytes_append, itemBytes_cons, Stands.append, Stands.append] at hitems
  have hok := hhere.ok.items _ (hsplit ▸ List.mem_append_right pre List.mem_cons_self)
  obtain ⟨hplen, -, -⟩ := prop_fields hlies.fits hok hlies.strings hitems.2.1
  have hfits := hitems.2.1.2
  rw [prop_length, hr.sizeStruct] at hfits
  have hversion := hlies.fits.version
  unfold getProperty
  rw [if_neg (by omega), getPropertyNamelen_flat hlies name, hfind]
  simp only
  rw [hplen, int32_nat (by omega), propData, hr.offStruct, Int.toNat_natCast]

/-- `fdt_resize_property_` of a property that is there. -/
theorem resizeProperty_found {l : Place FlatNode} {name junk : Str} {nameoff : Nat} {old pad : Str}
    {pre post : List Item}
    (h : Laid m p i l.forest) (hs : i.struct = Place.text l junk)
    (hfind : findItem i.strs name l.label.items = some (pre, .prop nameoff old pad, post)) {len : Nat}
      (hn : tagAlign len ≤ INT_MAX) :
    let a := l.ctx.before FlatNode.opens FlatNode.closes ++ (l.label.header ++ itemBytes pre)
    let c := itemBytes post ++ (flat l.subs ++ (l.label.closes ++ (flat l.rest ++
      (l.ctx.after FlatNode.opens FlatNode.closes ++ (cell FDT_END ++ junk)))))
    (i.size + tagAlign len ≤ i.total + tagAlign old.length → ∃ m', resizeProperty m p (placeOffset l) name len =
        (.ok (i.offStruct + a.length + 12), m') ∧ Slot m' p i a nameoff len c ∧ Kept p i.total m m') ∧
      (i.total + tagAlign old.length < i.size + tagAlign len →
        resizeProperty m p (placeOffset l) name len = (.error (-FDT_ERR_NOSPACE), m)) := by
  intro a c
  obtain ⟨hsplit, -⟩ := findItem_split hfind
  have hok := h.lies.here.ok.items _ (hsplit ▸ List.mem_append_right pre List.mem_cons_self)
  have hold : (old ++ pad).length = tagAlign old.length := by rw [List.length_append, tagAlign_padded hok.1]
  have halen : a.length = placeOffset l + l.label.header.length + (itemBytes pre).length := by
    simp only [a, List.length_append, placeOffset, Nat.add_assoc]
  have hget := getProperty_found h hfind
  rw [← halen] at hget
  have hstruct : i.struct = (a ++ (cell FDT_PROP ++ (cell old.length ++ cell nameoff))) ++ ((old ++ pad) ++ c) := by
    rw [hs]
    simp only [Place.text, a, c, hsplit, itemBytes_append, itemBytes_cons, Item.bytes, List.append_assoc]
  have hprelen : (a ++ (cell FDT_PROP ++ (cell old.length ++ cell nameoff))).length = a.length + 12 := by
    simp only [List.length_append, cell_length]
  constructor
  · intro hroom
    rw [← hold] at hroom
    obtain ⟨g, m1, hsplice, hg, hholds, hkept⟩ := h.holds.spliceStruct hstruct hn hroom
    rw [hprelen, ← Nat.add_assoc, hold] at hsplice
    have hover := hholds.overwrite (a := a ++ cell FDT_PROP) (b := cell old.length) (c := cell nameoff ++ (g ++ c))
      (d := cell len)
      (by simp only [List.append_assoc]) rfl
    rw [List.length_append, cell_length, offStruct_struct, ← Nat.add_assoc i.offStruct] at hover
    refine ⟨setCell m1 p (i.offStruct + a.length + 4) len, ?_, ⟨g, hg, ?_⟩, hkept.trans hover.2⟩
    · unfold resizeProperty
      rw [hget]
      simp only [Int.toNat_natCast]
      rw [hsplice, if_neg (not_not.mpr rfl)]
      rfl
    · have hholds2 := hover.1
      simp only [List.append_assoc] at hholds2
      exact hholds2
  · intro hfull
    rw [← hold] at hfull
    have hsplice := h.holds.spliceStruct_full hstruct hn hfull
    rw [hprelen, ← Nat.add_assoc, hold] at hsplice
    unfold resizeProperty
    rw [hget]
    simp only [Int.toNat_natCast]
    rw [hsplice, if_pos (show (-FDT_ERR_NOSPACE : Int) ≠ 0 by decide)]

theorem resizeProperty_none {l : Place FlatNode} {name : Str} (h : Laid m p i l.forest)
    (hfind : findItem i.strs name l.label.items = none) (len : Nat) :
    resizeProperty m p (placeOffset l) name len = (.error (-FDT_ERR_NOTFOUND), m) := by
  have hlies := h.lies
  have hversion := hlies.fits.version
  unfold resizeProperty getProperty
  rw [if_neg (by omega), getPropertyNamelen_flat hlies name, hfind]

/-- Room is made for a property, and its cells are written. -/
theorem spliceSlot (h : Holds m p i) (hs : i.struct = a ++ c) (nameoff : Nat) {len : Nat}
    (hn : 12 + tagAlign len ≤ INT_MAX)
    (hroom : i.size + (12 + tagAlign len) ≤ i.total) :
    ∃ m1, spliceStruct m p (i.offStruct + a.length) 0 (12 + tagAlign len) = (0, m1) ∧
      Slot (setCell (setCell (setCell m1 p (i.offStruct + a.length) FDT_PROP) p (i.offStruct + a.length + 8) nameoff) p
        (i.offStruct + a.length + 4) len) p i a nameoff len c ∧
      Kept p i.total m (setCell (setCell (setCell m1 p (i.offStruct + a.length) FDT_PROP) p
        (i.offStruct + a.length + 8) nameoff) p
        (i.offStruct + a.length + 4) len) := by
  obtain ⟨g, m1, hsplice, hg, hholds, hkept⟩ := h.spliceStruct (a := a) (b := []) (c := c) hs hn hroom
  obtain ⟨g1, g2, rfl, hg1⟩ : ∃ g1 g2, g = g1 ++ g2 ∧ g1.length = 4 :=
    ⟨g.take 4, g.drop 4, (List.take_append_drop 4 g).symm, by rw [List.length_take]; omega⟩
  obtain ⟨g3, g4, rfl, hg3⟩ : ∃ g3 g4, g2 = g3 ++ g4 ∧ g3.length = 4 :=
    ⟨g2.take 4, g2.drop 4, (List.take_append_drop 4 g2).symm, by
      rw [List.length_append] at hg
      rw [List.length_take]
      omega⟩
  obtain ⟨g5, g6, rfl, hg5⟩ : ∃ g5 g6, g4 = g5 ++ g6 ∧ g5.length = 4 :=
    ⟨g4.take 4, g4.drop 4, (List.take_append_drop 4 g4).symm, by
      simp only [List.length_append] at hg
      rw [List.length_take]
      omega⟩
  simp only [List.length_append] at hg
  have htag := hholds.overwrite (a := a) (b := g1) (c := g3 ++ (g5 ++ (g6 ++ c))) (d := cell FDT_PROP)
    (by simp only [List.append_assoc]) hg1.symm
  have hoff := htag.1.overwrite (a := a ++ (cell FDT_PROP ++ g3)) (b := g5) (c := g6 ++ c) (d := cell nameoff)
    (by simp only [List.append_assoc]) hg5.symm
  have hlen := hoff.1.overwrite (a := a ++ cell FDT_PROP) (b := g3) (c := cell nameoff ++ (g6 ++ c)) (d := cell len)
    (by simp only [List.append_assoc]) hg3.symm
  simp only [List.length_append, cell_length, hg3, offStruct_struct, ← Nat.add_assoc i.offStruct] at htag hoff hlen
  refine ⟨m1, hsplice, ⟨g6, by omega, ?_⟩, ((hkept.trans htag.2).trans hoff.2).trans hlen.2⟩
  have hholds2 := hlen.1
  simp only [List.append_assoc] at hholds2
  exact hholds2

/-- The text of a place as the node's header and what follows it. -/
theorem text_header (l : Place FlatNode) (junk : Str) :
    ∃ c, Place.text l junk = (l.ctx.before FlatNode.opens FlatNode.closes ++ l.label.header) ++
      (itemBytes l.label.items ++ c) ∧
      ∀ a : FlatNode, a.after = l.label.after → Place.text { l with label := a } junk =
        (l.ctx.before FlatNode.opens FlatNode.closes ++ a.header) ++ (itemBytes a.items ++ c) := by
  refine ⟨flat l.subs ++ (l.label.closes ++ (flat l.rest ++
    (l.ctx.after FlatNode.opens FlatNode.closes ++ (cell FDT_END ++ junk)))),
    ?_, fun a ha => ?_⟩
  · unfold Place.text
    simp only [List.append_assoc]
  · have hcloses : a.closes = l.label.closes := by
      unfold FlatNode.closes
      rw [ha]
    unfold Place.text
    simp only [hcloses, List.append_assoc]

/-- The bytes that a property may take: its cells and value, and its name in the
strings block. -/
def propNeed (name val : Str) : Nat := 12 + tagAlign val.length + (name.length + 1)

/-- `fdt_add_property_` puts the property first, its name in the strings block. -/
theorem addProperty_laid {l : Place FlatNode} {name : Str} {len : Nat} (h : Laid m p i l.forest)
    (hs : i.struct = a ++ c) (ha : a = l.ctx.before FlatNode.opens FlatNode.closes ++ l.label.header)
    (hz : 0 ∉ name) (hname : name.length < INT_MAX) (hn : 12 + tagAlign len ≤ INT_MAX) :
    (∃ m' strs' nameoff, addProperty m p (placeOffset l) name len = (.ok (i.offStruct + a.length + 12), m') ∧
        Slot m' p { i with strs := strs' } a nameoff len c ∧ NameIn strs' nameoff ∧ nameAt strs' nameoff = name ∧
        (∃ x, strs' = i.strs ++ x ∧ x.length ≤ name.length + 1) ∧ Kept p i.total m m') ∨
      (∃ m', addProperty m p (placeOffset l) name len = (.error (-FDT_ERR_NOSPACE), m') ∧ Holds m' p i ∧
        Kept p i.total m m' ∧
        i.total < i.size + (12 + tagAlign len + (name.length + 1))) := by
  have hlies := h.lies
  have hhere := hlies.here
  have hnode : checkNodeOffset (blobAt m p) (placeOffset l) = (a.length : Int) := by
    rw [checkNodeOffset_flat hlies.fits hhere.ok hhere.header hhere.aligned, ha, List.length_append]
    rfl
  rcases h.holds.findAddString hz hname with ⟨k, hadd, hin, hat⟩ | ⟨m1, hadd, hholds, hkept⟩ | ⟨hadd, hfull⟩
  · have hcode (r : Int × Mem) (hr : spliceStruct m p (i.offStruct + a.length) 0 (12 + tagAlign len) = r) :
        addProperty m p (placeOffset l) name len = if r.1 ≠ 0 then (.error r.1, r.2)
          else (.ok (i.offStruct + a.length + 12), setCell (setCell (setCell r.2 p (i.offStruct + a.length) FDT_PROP) p
            (i.offStruct + a.length + 8) k) p (i.offStruct + a.length + 4) len) := by
      unfold addProperty
      rw [hnode, if_neg (by omega), hadd]
      simp only [Int.toNat_natCast, h.holds.reads.offStruct, hr]
      rfl
    by_cases hroom : i.size + (12 + tagAlign len) ≤ i.total
    · obtain ⟨m1, hsplice, hslot, hkept⟩ := spliceSlot h.holds hs k hn hroom
      refine Or.inl ⟨_, i.strs, k, ?_, hslot, hin, hat, ⟨[], (List.append_nil _).symm, Nat.zero_le _⟩, hkept⟩
      rw [hcode _ hsplice, if_neg (not_not.mpr rfl)]
    · have hsplice := h.holds.spliceStruct_full (a := a) (b := []) (c := c) hs hn (by simpa using hroom)
      refine Or.inr ⟨m, ?_, h.holds, Kept.refl m, by omega⟩
      rw [hcode _ hsplice, if_pos (show (-FDT_ERR_NOSPACE : Int) ≠ 0 by decide)]
  · have hcode (r : Int × Mem) (hr : spliceStruct m1 p (i.offStruct + a.length) 0 (12 + tagAlign len) = r) :
        addProperty m p (placeOffset l) name len = if r.1 ≠ 0 then (.error r.1, delLastString r.2 p name)
          else (.ok (i.offStruct + a.length + 12), setCell (setCell (setCell r.2 p (i.offStruct + a.length) FDT_PROP) p
            (i.offStruct + a.length + 8) i.strs.length) p (i.offStruct + a.length + 4) len) := by
      unfold addProperty
      rw [hnode, if_neg (by omega), hadd]
      simp only [Int.toNat_natCast, hholds.reads.offStruct, offStruct_strs, hr]
      rfl
    have hsize : ({ i with strs := i.strs ++ (name ++ [0]) } : Image).size = i.size + (name.length + 1) := by
      unfold Image.size Image.offStrings Image.offStruct
      simp only [List.length_append, List.length_singleton]
      omega
    by_cases hroom : i.size + (name.length + 1) + (12 + tagAlign len) ≤ i.total
    · obtain ⟨m2, hsplice, hslot, hkept2⟩ := spliceSlot hholds hs i.strs.length hn (by rw [hsize]; exact hroom)
      have hnamein : NameIn (i.strs ++ (name ++ [0])) i.strs.length ∧ nameAt (i.strs ++ (name ++ [0])) i.strs.length =
        name := by
        have hstands := hholds.strings.stands
        exact nameIn_of_at hstands (at_append.mp hstands).2 hz
          (by simp only [List.length_append, List.length_singleton]; omega)
      refine Or.inl ⟨_, i.strs ++ (name ++ [0]), i.strs.length, ?_, hslot, hnamein.1, hnamein.2,
        ⟨_, rfl, by rw [List.length_append, List.length_singleton]⟩, hkept.trans hkept2⟩
      rw [offStruct_strs] at hsplice
      rw [hcode _ hsplice, if_neg (not_not.mpr rfl)]
      rfl
    · have hsplice := hholds.spliceStruct_full (a := a) (b := []) (c := c) hs hn (by rw [hsize]; simpa using hroom)
      obtain ⟨hback, hkept2⟩ := hholds.delLastString
      refine Or.inr ⟨_, ?_, hback, hkept.trans hkept2, by omega⟩
      rw [offStruct_strs] at hsplice
      rw [hcode _ hsplice, if_pos (show (-FDT_ERR_NOSPACE : Int) ≠ 0 by decide)]
  · refine Or.inr ⟨m, ?_, h.holds, Kept.refl m, by omega⟩
    unfold addProperty
    rw [hnode, if_neg (by omega), hadd]

/-- The label with a property set, as the data says it. -/
theorem setprop_data_found {strs name val old pad pad' : Str} {items pre post : List Item} {nameoff : Nat}
    (hfind : findItem strs name items = some (pre, .prop nameoff old pad, post)) (hname : nameAt strs nameoff = name)
      (a : FlatNode)
    (ha : a.items = items) :
    ({ a with items := pre ++ .prop nameoff val pad' :: post } : FlatNode).data strs =
    (a.data strs).setprop name val := by
  have hdata : Item.data strs (.prop nameoff val pad') = some (name, val) := by rw [← hname]; rfl
  unfold NodeData.setprop FlatNode.data
  simp only
  rw [ha, replaceFirst_items, hfind, List.filterMap_append, List.filterMap_cons_some hdata]
  rfl

theorem setprop_data_none {strs name val pad' : Str} {nameoff : Nat} (hname : nameAt strs nameoff = name)
    (a : FlatNode)
    (hfind : findItem strs name a.items = none) :
    ({ a with items := .prop nameoff val pad' :: a.items } : FlatNode).data strs = (a.data strs).setprop name val := by
  have hdata : Item.data strs (.prop nameoff val pad') = some (name, val) := by rw [← hname]; rfl
  unfold NodeData.setprop FlatNode.data
  simp only
  rw [replaceFirst_items, hfind, List.filterMap_cons_some hdata]
  rfl

/-- A place with another label still lies in the block, its strings grown. -/
theorem Laid.relabel {l : Place FlatNode} {label : FlatNode} {strs' : Str} (junk : Str) (h : Laid m p i l.forest)
    (hholds : Holds m' p { i with strs := strs', struct := Place.text { l with label := label } junk })
    (hstrs : ∃ x, strs' = i.strs ++ x) (hlabel : label.Ok strs') :
    Laid m' p { i with strs := strs', struct := Place.text { l with label := label } junk }
      (Place.forest { l with label := label }) := by
  obtain ⟨x, rfl⟩ := hstrs
  obtain ⟨hctx, -, hsubs, hrest⟩ := Ctx.all_plug.mp h.ok
  have hmono {t : Forest FlatNode} (ht : t.All (FlatNode.Ok i.strs)) : t.All (FlatNode.Ok (i.strs ++ x)) :=
    ht.mono fun a ha => (ha.grow x).1
  refine ⟨hholds, ⟨junk, (flat_place _ junk).symm⟩, Ctx.all_plug.mpr ⟨?_, hlabel, hmono hsubs, hmono hrest⟩⟩
  exact hctx.mono fun a ha => (ha.grow x).1

theorem Laid.probed {t : Forest FlatNode} (h : Laid m p i t) (hholds : Holds m' p i.probed) : Laid m' p i.probed t :=
  ⟨hholds, h.struct, h.ok⟩

/-- `fdt_setprop` sets the property in the tree, or there is no room for it. -/
theorem setprop_laid {l : Place FlatNode} (h : Laid m p i l.forest) (name val : Str) (hz : 0 ∉ name)
    (hname : name.length < INT_MAX) (hval : 12 + tagAlign val.length ≤ INT_MAX) :
    (∃ m' i' label, setprop m p (placeOffset l) name val = (0, m') ∧
      Laid m' p i' (Place.forest { l with label := label }) ∧
        label.data i'.strs = (l.label.data i.strs).setprop name val ∧ Grows (propNeed name val) i i' ∧
          Kept p i.total m m') ∨
      (∃ m', setprop m p (placeOffset l) name val = (-FDT_ERR_NOSPACE, m') ∧ Laid m' p i.probed l.forest ∧
        Kept p i.total m m' ∧
        i.total < i.size + propNeed name val) := by
  obtain ⟨m0, hprobe, hholds0, hkept0⟩ := h.holds.rwProbe
  have h0 := h.probed hholds0
  obtain ⟨junk, hjunk⟩ := h0.struct
  have hs : i.probed.struct = Place.text l junk := by rw [hjunk, flat_place]
  have hlabel := h0.lies.here.ok
  cases hfind : findItem i.probed.strs name l.label.items with
  | some r =>
    obtain ⟨pre, j, post⟩ := r
    obtain ⟨hsplit, nameoff, old, pad, rfl, hnameoff⟩ := findItem_split hfind
    obtain ⟨hroom, hfull⟩ := resizeProperty_found h0 hs hfind (Nat.le_trans (Nat.le_add_left _ 12) hval)
    by_cases hle : i.probed.size + tagAlign val.length ≤ i.probed.total + tagAlign old.length
    · obtain ⟨m1, hresize, hslot, hkept1⟩ := hroom hle
      obtain ⟨pad', hpad', hkept2, hholds2⟩ := hslot.fill
      have hitem := hlabel.items (.prop nameoff old pad) (hsplit ▸ List.mem_append_right pre List.mem_cons_self)
      have hok : ({ l.label with items := pre ++ .prop nameoff val pad' :: post } : FlatNode).Ok i.probed.strs := by
        refine ⟨hlabel.name, hlabel.pad, fun j hj => ?_⟩
        rcases List.mem_append.mp hj with hj | hj
        · exact hlabel.items j (hsplit ▸ List.mem_append_left _ hj)
        · rcases List.mem_cons.mp hj with rfl | hj
          · exact ⟨hpad', hitem.2⟩
          · exact hlabel.items j (hsplit ▸ List.mem_append_right _ (List.mem_cons_of_mem _ hj))
      refine Or.inl ⟨_, _, { l.label with items := pre ++ .prop nameoff val pad' :: post }, ?_,
        Laid.relabel junk h0 ?_ ⟨[], (List.append_nil _).symm⟩ hok, ?_, ⟨rfl, ?_, [], (List.append_nil _).symm⟩,
        (hkept0.trans hkept1).trans hkept2⟩
      · unfold setprop setpropPlaceholder
        rw [hprobe]
        simp only [ne_eq, not_true_eq_false, if_false, hresize]
      · have htext : Place.text { l with label := { l.label with items := pre ++ .prop nameoff val pad' :: post } }
          junk =
            l.ctx.before FlatNode.opens FlatNode.closes ++ (l.label.header ++ itemBytes pre) ++
              ((Item.prop nameoff val pad').bytes ++
              (itemBytes post ++ (flat l.subs ++ (l.label.closes ++ (flat l.rest ++
                (l.ctx.after FlatNode.opens FlatNode.closes ++ (cell FDT_END ++ junk))))))) := by
          unfold Place.text
          simp only [itemBytes_append, itemBytes_cons, List.append_assoc]
          rfl
        rw [htext]
        exact hholds2
      · exact setprop_data_found hfind hnameoff l.label rfl
      · have hold := tagAlign_padded hitem.1
        have hnew := tagAlign_padded hpad'
        have hprobed : i.probed.struct.length = i.struct.length := rfl
        rw [hs] at hprobed
        unfold Image.size Image.offStrings Image.offStruct propNeed
        unfold Place.text at hprobed ⊢
        rw [hsplit] at hprobed
        simp only [Image.probed, itemBytes_append, itemBytes_cons, List.length_append, prop_length, header_length,
          closes_length] at hprobed ⊢
        omega
    · refine Or.inr ⟨m0, ?_, h0, hkept0, ?_⟩
      · unfold setprop setpropPlaceholder
        rw [hprobe]
        simp only [ne_eq, not_true_eq_false, if_false, hfull (Nat.lt_of_not_le hle)]
        rw [if_neg (by decide)]
      · have hsize : i.probed.size = i.size ∧ i.probed.total = i.total := ⟨rfl, rfl⟩
        unfold propNeed
        omega
  | none =>
    have hresize := resizeProperty_none h0 hfind val.length
    obtain ⟨c, htext, hnew⟩ := text_header l junk
    rcases addProperty_laid h0 (hs.trans htext) rfl hz hname hval with
      ⟨m1, strs', nameoff, hadd, hslot, hin, hat, hgrow, hkept1⟩ | ⟨m1, hadd, hholds1, hkept1, hfull⟩
    · obtain ⟨pad', hpad', hkept2, hholds2⟩ := hslot.fill
      obtain ⟨x, hx, hxlen⟩ := hgrow
      have hold := hx ▸ (hlabel.grow x).1
      have hok : ({ l.label with items := .prop nameoff val pad' :: l.label.items } : FlatNode).Ok strs' := by
        refine ⟨hold.name, hold.pad, fun j hj => ?_⟩
        rcases List.mem_cons.mp hj with rfl | hj
        · exact ⟨hpad', hin⟩
        · exact hold.items j hj
      refine Or.inl ⟨_, _, { l.label with items := .prop nameoff val pad' :: l.label.items }, ?_,
        Laid.relabel junk h0 ?_ ⟨x, hx⟩ hok, ?_, ⟨rfl, ?_, x, hx⟩, (hkept0.trans hkept1).trans hkept2⟩
      · unfold setprop setpropPlaceholder
        rw [hprobe]
        simp only [ne_eq, not_true_eq_false, if_false, hresize, if_true, hadd]
        rfl
      · rw [hnew { l.label with items := .prop nameoff val pad' :: l.label.items } rfl, itemBytes_cons,
          List.append_assoc (Item.prop nameoff val pad').bytes]
        exact hholds2
      · have hdata : l.label.data strs' = l.label.data i.strs := hx ▸ (hlabel.grow x).2
        have hfind' : findItem strs' name l.label.items = none := by
          cases hf : findItem strs' name l.label.items with
          | none => rfl
          | some r =>
            exfalso
            have h1 := replaceFirst_items strs' name val l.label.items
            have h2 := replaceFirst_items i.probed.strs name val l.label.items
            have hprops : l.label.items.filterMap (Item.data strs') = l.label.items.filterMap (Item.data i.strs) :=
              congrArg NodeData.props hdata
            rw [hf, hprops] at h1
            rw [hfind] at h2
            exact Option.some_ne_none _ (h1.symm.trans h2)
        rw [← hdata]
        exact setprop_data_none hat l.label hfind'
      · have hnew := tagAlign_padded hpad'
        have hprobed : i.probed.struct.length = i.struct.length := rfl
        have hstrs : i.probed.strs.length = i.strs.length := rfl
        rw [hs] at hprobed
        unfold Image.size Image.offStrings Image.offStruct propNeed
        unfold Place.text at hprobed ⊢
        simp only [Image.probed, hx, itemBytes_cons, List.length_append, prop_length, header_length,
          closes_length] at hprobed hstrs ⊢
        omega
    · refine Or.inr ⟨m1, ?_, h0.probed hholds1, hkept0.trans hkept1, ?_⟩
      · unfold setprop setpropPlaceholder
        rw [hprobe]
        simp only [ne_eq, not_true_eq_false, if_false, hresize, if_true, hadd]
      · unfold propNeed
        exact hfull

end

/-! ## Adding a node -/

section
variable {m m' : Mem} {p : Nat} {i : Image} {a c : Str}

theorem propsEnd_flat {f : Blob} {strs : Str} (hf : StructFits f) {items : List Item} {o : Nat}
    (hok : ∀ i ∈ items, i.Ok strs)
    (h : Stands f o (itemBytes items)) (ho : o % 4 = 0) (hstop : StopsItems f (o + (itemBytes items).length)) :
    propsEnd f o = ((o + (itemBytes items).length : Nat) : Int) := by
  induction items generalizing o with
  | nil =>
    have hne : ¬((nextTag f o).1 = FDT_PROP ∨ (nextTag f o).1 = FDT_NOP) := by
      have hend : (nextTag f o).1 = FDT_BEGIN_NODE ∨ (nextTag f o).1 = FDT_END_NODE := hstop
      rcases hend with h | h <;> rw [h] <;> decide
    rw [propsEnd, dif_neg hne]
    rfl
  | cons i items ih =>
    obtain ⟨hi, hok⟩ := List.forall_mem_cons.mp hok
    rw [itemBytes_cons, Stands.append] at h
    rw [itemBytes_cons, List.length_append, ← Nat.add_assoc] at hstop ⊢
    have hal := hi.aligned
    have htag : ((nextTag f o).1 = FDT_PROP ∨ (nextTag f o).1 = FDT_NOP) ∧ (nextTag f o).2 =
      ((o + i.bytes.length : Nat) : Int) := by
      cases i with
      | nop =>
        rw [nextTag_plain hf (Or.inr (Or.inr rfl)) h.1.1 ho h.1.2]
        exact ⟨Or.inr rfl, rfl⟩
      | prop nameoff value pad =>
        rw [nextTag_prop hf hi h.1.1 ho h.1.2]
        exact ⟨Or.inl rfl, rfl⟩
    rw [propsEnd, dif_pos htag.1, htag.2]
    exact ih hok h.2 (by omega) hstop

/-- A node of that name with nothing in it. -/
def emptyNode (name : Str) : FlatNode := ⟨name, List.replicate (tagAlign (name.length + 1) - (name.length + 1)) 0, [],
    0⟩

theorem emptyNode_ok {name : Str} (hz : 0 ∉ name) (strs : Str) : (emptyNode name).Ok strs := by
  refine ⟨hz, ?_, fun _ hi => absurd hi List.not_mem_nil⟩
  unfold emptyNode Padded tagAlign
  simp only [List.length_replicate]
  omega

theorem le_tagAlign (n : Nat) : n ≤ tagAlign n := by
  unfold tagAlign
  omega

/-- The cells and the name of a new node are written. -/
theorem spliceNode (h : Holds m p i) (hs : i.struct = a ++ c) (name : Str)
    (hn : 4 + tagAlign (name.length + 1) + 4 ≤ INT_MAX)
    (hroom : i.size + (4 + tagAlign (name.length + 1) + 4) ≤ i.total) :
    ∃ m1, spliceStruct m p (i.offStruct + a.length) 0 (4 + tagAlign (name.length + 1) + 4) = (0, m1) ∧
      ∀ m2, m2 = setCell (store (store (setCell m1 p (i.offStruct + a.length) FDT_BEGIN_NODE)
        (p + (i.offStruct + a.length + 4))
        (List.replicate (tagAlign (name.length + 1)) 0)) (p + (i.offStruct + a.length + 4)) name) p
        (i.offStruct + a.length + (4 + tagAlign (name.length + 1))) FDT_END_NODE →
      Holds m2 p { i with struct := a ++ ((emptyNode name).header ++ ((emptyNode name).closes ++ c)) } ∧
        Kept p i.total m m2 := by
  have hle := le_tagAlign (name.length + 1)
  generalize hns : tagAlign (name.length + 1) = ns at hn hroom hle
  obtain ⟨g, m1, hsplice, hg, hholds, hkept⟩ := h.spliceStruct (a := a) (b := []) (c := c) hs hn hroom
  obtain ⟨g1, g2, rfl, hg1⟩ : ∃ g1 g2, g = g1 ++ g2 ∧ g1.length = 4 :=
    ⟨g.take 4, g.drop 4, (List.take_append_drop 4 g).symm, by rw [List.length_take]; omega⟩
  rw [List.length_append] at hg
  obtain ⟨g3, g4, rfl, hg3⟩ : ∃ g3 g4, g2 = g3 ++ g4 ∧ g3.length = ns :=
    ⟨g2.take ns, g2.drop ns, (List.take_append_drop ns g2).symm, by rw [List.length_take]; omega⟩
  rw [List.length_append] at hg
  refine ⟨m1, hsplice, fun m2 hm2 => ?_⟩
  have htag := hholds.overwrite (a := a) (b := g1) (c := g3 ++ (g4 ++ c)) (d := cell FDT_BEGIN_NODE)
    (by simp only [List.append_assoc]) hg1.symm
  have hzero := htag.1.overwrite (a := a ++ cell FDT_BEGIN_NODE) (b := g3) (c := g4 ++ c) (d := List.replicate ns 0)
    (by simp only [List.append_assoc]) (by rw [List.length_replicate, hg3])
  have hsplit : List.replicate ns (0 : UInt8) = List.replicate name.length 0 ++ 0 :: List.replicate
    (ns - (name.length + 1)) 0 := by
    rw [← List.replicate_succ, List.replicate_append_replicate]
    congr 1
    omega
  have hname := hzero.1.overwrite (a := a ++ cell FDT_BEGIN_NODE) (b := List.replicate name.length 0)
    (c := 0 :: List.replicate (ns - (name.length + 1)) 0 ++ (g4 ++ c)) (d := name)
    (by rw [hsplit]; simp only [List.append_assoc]) List.length_replicate.symm
  have hend := hname.1.overwrite (a := a ++ (cell FDT_BEGIN_NODE ++
    (name ++ 0 :: List.replicate (ns - (name.length + 1)) 0)))
    (b := g4) (c := c) (d := cell FDT_END_NODE) (by simp only [List.append_assoc, List.cons_append])
      (by rw [cell_length]; omega)
  have hheader : (emptyNode name).header = cell FDT_BEGIN_NODE ++
    (name ++ 0 :: List.replicate (ns - (name.length + 1)) 0) := by
    unfold FlatNode.header emptyNode
    rw [hns]
  have hcloses : (emptyNode name).closes = cell FDT_END_NODE := List.append_nil _
  have hlen : (a ++ (cell FDT_BEGIN_NODE ++ (name ++ 0 :: List.replicate (ns - (name.length + 1)) 0))).length =
    a.length + (4 + ns) := by
    simp only [List.length_append, List.length_cons, List.length_replicate, cell_length]
    omega
  rw [hlen] at hend
  simp only [List.length_append, cell_length, offStruct_struct, ← Nat.add_assoc i.offStruct] at htag hzero hname hend
  subst hm2
  rw [hheader, hcloses]
  refine ⟨?_, (((hkept.trans htag.2).trans hzero.2).trans hname.2).trans hend.2⟩
  have hholds2 := hend.1
  simp only [List.append_assoc, List.cons_append] at hholds2 ⊢
  exact hholds2

/-- A node with nothing in it, the first below a place. -/
def newChild {α : Type} (l : Place α) (a : α) : Place α := ⟨.down l.label l.rest l.ctx, a, .nil, l.subs⟩

theorem newChild_offset (l : Place FlatNode) (a : FlatNode) :
    placeOffset (newChild l a) = placeOffset l + l.label.opens.length :=
  List.length_append

/-- The bytes of a new node. -/
def nodeNeed (name : Str) : Nat := 4 + tagAlign (name.length + 1) + 4

/-- `fdt_add_subnode` puts an empty node first below the place, unless a node there
answers to the name or there is no room. -/
theorem addSubnode_laid {l : Place FlatNode} {name : Str} (h : Laid m p i l.forest) (hz : 0 ∉ name)
    (hn : nodeNeed name ≤ INT_MAX) :
    match l.child (answers name) with
    | some _ => ∃ m', addSubnode m p (placeOffset l) name = (-FDT_ERR_EXISTS, m') ∧ Laid m' p i.probed l.forest ∧
      Kept p i.total m m'
    | none =>
      (∃ m' i', addSubnode m p (placeOffset l) name = ((placeOffset (newChild l (emptyNode name)) : Int), m') ∧
          Laid m' p i' (newChild l (emptyNode name)).forest ∧ i'.strs = i.strs ∧ Grows (nodeNeed name) i i' ∧
            Kept p i.total m m') ∨
        (∃ m', addSubnode m p (placeOffset l) name = (-FDT_ERR_NOSPACE, m') ∧ Laid m' p i.probed l.forest ∧
          Kept p i.total m m' ∧
          i.total < i.size + nodeNeed name) := by
  obtain ⟨m0, hprobe, hholds0, hkept0⟩ := h.holds.rwProbe
  have h0 := h.probed hholds0
  have hlies := h0.lies
  have hhere := hlies.here
  have hfound := subnodeOffset_flat hlies name
  cases hchild : l.child (answers name) with
  | some l' =>
    rw [hchild] at hfound
    refine ⟨m0, ?_, h0, hkept0⟩
    unfold addSubnode
    simp only [hprobe, ne_eq, not_true_eq_false, if_false, hfound]
    rw [if_pos (Int.natCast_nonneg _)]
  | none =>
    rw [hchild] at hfound
    obtain ⟨junk, hjunk⟩ := h0.struct
    have hs : i.probed.struct = (l.ctx.before FlatNode.opens FlatNode.closes ++ l.label.opens) ++
      (flat l.subs ++ (l.label.closes ++
        (flat l.rest ++ (l.ctx.after FlatNode.opens FlatNode.closes ++ (cell FDT_END ++ junk))))) := by
      rw [hjunk, flat_place, Place.text, FlatNode.opens]
      simp only [List.append_assoc]
    have hal := hhere.aligned
    have hhal := hhere.ok.header_aligned
    have hhead := nextTag_begin hlies.fits hhere.ok hhere.header.1 hal hhere.header.2
    have hpropsEnd := propsEnd_flat hlies.fits hhere.ok.items hhere.items (by omega) (hhere.stopsItems hlies.fits)
    rw [Nat.add_assoc, ← opens_length] at hpropsEnd
    have hprelen : (l.ctx.before FlatNode.opens FlatNode.closes ++ l.label.opens).length =
      placeOffset l + l.label.opens.length :=
      List.length_append
    have hcode (r : Int × Mem) (hr : spliceStruct m0 p (i.probed.offStruct + (placeOffset l + l.label.opens.length)) 0
        (nodeNeed name) = r) : addSubnode m p (placeOffset l) name = if r.1 ≠ 0 then r else
          (((placeOffset l + l.label.opens.length : Nat) : Int), setCell (store (store (setCell r.2 p
            (i.probed.offStruct + (placeOffset l + l.label.opens.length)) FDT_BEGIN_NODE)
            (p + (i.probed.offStruct + (placeOffset l + l.label.opens.length) + 4))
              (List.replicate (tagAlign (name.length + 1)) 0))
            (p + (i.probed.offStruct + (placeOffset l + l.label.opens.length) + 4)) name) p
            (i.probed.offStruct + (placeOffset l + l.label.opens.length) + (4 + tagAlign (name.length + 1)))
              FDT_END_NODE) := by
      unfold nodeNeed at hr
      unfold addSubnode
      simp only [hprobe, ne_eq, not_true_eq_false, if_false, hfound]
      rw [if_neg (by decide), hhead, if_neg (not_not.mpr rfl)]
      simp only [hpropsEnd, Int.toNat_natCast, hholds0.reads.offStruct, hr]
    by_cases hroom : i.probed.size + nodeNeed name ≤ i.probed.total
    · obtain ⟨m1, hsplice, hnode⟩ := spliceNode hholds0 hs name hn hroom
      rw [hprelen] at hsplice hnode
      obtain ⟨hholds2, hkept2⟩ := hnode _ rfl
      refine Or.inl ⟨_, _, ?_, ⟨hholds2, ⟨junk, ?_⟩, ?_⟩, rfl, ⟨rfl, ?_, [], (List.append_nil _).symm⟩,
        hkept0.trans hkept2⟩
      · rw [hcode _ hsplice, if_neg (not_not.mpr rfl), newChild_offset]
      · rw [flat_place]
        unfold Place.text newChild
        simp only [Ctx.before, Ctx.after, List.append_assoc]
        rfl
      · obtain ⟨hctx, hlabel, hsubs, hrest⟩ := Ctx.all_plug.mp h0.ok
        exact Ctx.all_plug.mpr ⟨⟨hlabel, hrest, hctx⟩, emptyNode_ok hz _, trivial, hsubs⟩
      · have hprobed : i.probed.struct.length = i.struct.length := rfl
        have hpad := tagAlign_padded (emptyNode_ok hz i.strs).pad
        have hname : (emptyNode name).name.length = name.length ∧ (emptyNode name).after = 0 := ⟨rfl, rfl⟩
        rw [hs] at hprobed
        rw [hname.1] at hpad
        unfold Image.size Image.offStrings Image.offStruct nodeNeed
        simp only [Image.probed, List.length_append, header_length, closes_length, hname] at hprobed ⊢
        omega
    · have hsplice := hholds0.spliceStruct_full (b := []) hs hn (by rw [List.length_nil]; omega)
      rw [hprelen] at hsplice
      refine Or.inr ⟨m0, ?_, h0, hkept0, Nat.lt_of_not_le hroom⟩
      rw [hcode _ hsplice, if_pos (show (-FDT_ERR_NOSPACE : Int) ≠ 0 by decide)]

end

end DTFramework.Fdt
