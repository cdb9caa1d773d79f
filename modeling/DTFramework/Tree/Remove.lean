import DTFramework.Tree.Traverse

/-!
# Removing nodes and properties

`fdt_delprop` and `fdt_del_node` take a part out of the structure block. The
property is no longer in its node; the node is no longer in the tree, and the gaps
behind it become gaps of what stands before it. Neither call needs room.

Results:

* `Holds.cutStruct`: a part of the structure block is taken out;
* `delprop_laid`, `NodeAt.delprop`: a property is taken out of its node;
* `delNode_laid`, `NodeAt.delNode`: a node is taken out of the tree.
-/
namespace DTFramework.Fdt

open DTFramework.Lib

/-- The loop of `fdt_node_end_offset_` at the node at `offset`. -/
def nodeEndScan (f : Blob) (offset depth : Int) : Int :=
  if depth < 0 then offset
  else
    let next := nextNode f offset (some depth)
    if _h : next.1 < 0 then next.1 else nodeEndScan f next.1 (next.2.getD 0)
termination_by nodeRoom offset
decreasing_by exact nextNode_room (Int.not_lt.mp _h)

/-- mirrors libs/libfdt/fdt_wip.c:73-81 (`fdt_node_end_offset_`) -/
def nodeEndOffset (f : Blob) (offset : Int) : Int := if offset < 0 then offset else nodeEndScan f offset 0

/-- mirrors libs/libfdt/fdt_rw.c:389-401 -/
def delNode (m : Mem) (p : Nat) (nodeoffset : Int) : Int × Mem :=
  let probe := rwProbe m p
  if probe.1 ≠ 0 then probe
  else
    let endoffset := nodeEndOffset (blobAt probe.2 p) nodeoffset
    if endoffset < 0 then (endoffset, probe.2)
    else spliceStruct probe.2 p (offDtStruct (blobAt probe.2 p) + nodeoffset.toNat) (endoffset - nodeoffset).toNat 0

/-- mirrors libs/libfdt/fdt_rw.c:325-338 -/
def delprop (m : Mem) (p : Nat) (nodeoffset : Int) (name : Str) : Int × Mem :=
  let probe := rwProbe m p
  if probe.1 ≠ 0 then probe
  else match getProperty (blobAt probe.2 p) nodeoffset name with
  | .error len => (len, probe.2)
  | .ok (data, len) => spliceStruct probe.2 p (data - 12) (12 + tagAlign len.toNat) 0

/-! ## The end of a node -/

section
variable {f : Blob} {strs : Str} {o : Nat}

/-- The loop that goes on from a token. -/
def nodeEndFrom (f : Blob) (o : Int) (depth : Int) : Int :=
  let next := nextNodeFrom f o (some depth)
  if next.1 < 0 then next.1 else nodeEndScan f next.1 (next.2.getD 0)

theorem nodeEndScan_node (hf : StructFits f) {a : FlatNode} {subs : Forest FlatNode} (h : NodeStands f strs o a subs)
    {d : Int} (hd : 0 ≤ d) : nodeEndScan f o d = nodeEndFrom f ((o + a.opens.length : Nat) : Int) d := by
  rw [nodeEndScan, if_neg (Int.not_lt.mpr hd), nextNode_flat hf h]
  rfl

/-- The loop goes over whole trees. -/
theorem nodeEndFrom_forest {t : Forest FlatNode} {c : Ctx FlatNode} (h : Lies f strs (c.plug t))
    (hc : (c.before FlatNode.opens FlatNode.closes).length = o) {d : Int} (hd : 0 ≤ d) :
    nodeEndFrom f o d = nodeEndFrom f ((o + (flat t).length : Nat) : Int) d := by
  induction t generalizing o c d with
  | nil => rfl
  | node a subs rest ihs ihr =>
    have hforest : Lies f strs (Place.forest ⟨c, a, subs, rest⟩) := h
    have hplace : placeOffset ⟨c, a, subs, rest⟩ = o := hc
    have hhere : NodeStands f strs o a subs := by
      have hstands := hforest.here
      rwa [hplace] at hstands
    have hal : a.opens.length % 4 = 0 := hhere.ok.opens_aligned
    have hsubal : (flat subs).length % 4 = 0 := flat_aligned hhere.subsOk
    have haligned := hhere.aligned
    have hdown : ((Ctx.down a rest c).before FlatNode.opens FlatNode.closes).length = o + a.opens.length := by
      rw [Ctx.before, List.length_append, hc]
    have hsubs := ihs (c := .down a rest c) h hdown (d := d + 1) (by omega)
    have hrest := ihr (c := .next a subs c) h (before_next hc) hd
    have hnode : nextNodeFrom f o (some d) = ((o : Int), some (d + 1)) := nextNodeFrom_node h.fits hhere (some d)
    have hup : nextNodeFrom f ((o + a.opens.length + (flat subs).length : Nat) : Int) (some (d + 1)) =
        nextNodeFrom f ((o + a.opens.length + (flat subs).length + a.closes.length : Nat) : Int) (some (d + 1 - 1)) :=
      nextNodeFrom_up (b := true) h.fits hhere.closes (by omega) fun _ => by omega
    have hend : o + (flat (.node a subs rest)).length =
        o + a.opens.length + (flat subs).length + a.closes.length + (flat rest).length := by
      rw [flat_node_length]
      omega
    have hbegin : nodeEndFrom f o d = nodeEndScan f o (d + 1) := by
      unfold nodeEndFrom
      rw [hnode]
      exact if_neg (Int.not_lt.mpr (Int.natCast_nonneg o))
    have hclose : nodeEndFrom f ((o + a.opens.length + (flat subs).length : Nat) : Int) (d + 1) =
        nodeEndFrom f ((o + a.opens.length + (flat subs).length + a.closes.length : Nat) : Int) d := by
      unfold nodeEndFrom
      rw [hup, Int.add_sub_cancel]
    rw [hbegin, nodeEndScan_node h.fits hhere (by omega), hsubs, hclose, hrest, hend]

/-- The end is behind the node's last token, before the gaps. -/
theorem nodeEndOffset_flat {l : Place FlatNode} (h : Lies f strs l.forest) : nodeEndOffset f (placeOffset l) =
    ((placeOffset l + (l.label.opens.length + (flat l.subs).length + 4) : Nat) : Int) := by
  have hhere := h.here
  have hal := hhere.ok.opens_aligned
  have hsubal := flat_aligned hhere.subsOk
  have haligned := hhere.aligned
  have hdown : ((Ctx.down l.label l.rest l.ctx).before FlatNode.opens FlatNode.closes).length =
      placeOffset l + l.label.opens.length := by
    rw [Ctx.before, List.length_append]
    rfl
  have hsubs := nodeEndFrom_forest (c := .down l.label l.rest l.ctx) h hdown (Int.le_refl 0)
  have hclose := nextNodeFrom_closes h.fits hhere.closes (by omega) 0
  rw [if_pos (show (0 : Int) < 1 by decide)] at hclose
  unfold nodeEndOffset
  rw [if_neg (Int.not_lt.mpr (Int.natCast_nonneg _)), nodeEndScan_node h.fits hhere (Int.le_refl 0), hsubs]
  unfold nodeEndFrom
  rw [hclose]
  dsimp only
  rw [if_neg (Int.not_lt.mpr (Int.natCast_nonneg _)), Option.getD_some, nodeEndScan, if_pos (by decide)]
  omega

end

/-! ## Gaps -/

theorem itemBytes_nops (k : Nat) : itemBytes (List.replicate k .nop) = nops k := by
  unfold itemBytes nops
  rw [List.flatMap_def, List.map_replicate]
  rfl

theorem nops_add (j k : Nat) : nops (j + k) = nops j ++ nops k := by
  unfold nops
  rw [List.replicate_add, List.flatten_append]

/-- Gaps that are left behind what stands before them. -/
def leaveGaps (k : Nat) : Ctx FlatNode → Ctx FlatNode
  | .top => .top
  | .down a rest c => .down { a with items := a.items ++ List.replicate k .nop } rest c
  | .next a subs c => .next { a with after := a.after + k } subs c

/-- A node with gaps behind its properties. -/
theorem opens_gaps (a : FlatNode) (k : Nat) :
    ({ a with items := a.items ++ List.replicate k .nop } : FlatNode).opens = a.opens ++ nops k := by
  unfold FlatNode.opens
  rw [itemBytes_append, itemBytes_nops, List.append_assoc]
  rfl

theorem data_gaps (strs : Str) (a : FlatNode) (k : Nat) :
    ({ a with items := a.items ++ List.replicate k .nop } : FlatNode).data strs = a.data strs := by
  unfold FlatNode.data
  rw [List.filterMap_append, List.filterMap_replicate_of_none rfl, List.append_nil]

theorem leaveGaps_before {c : Ctx FlatNode} (hc : c ≠ .top) (k : Nat) :
    (leaveGaps k c).before FlatNode.opens FlatNode.closes = c.before FlatNode.opens FlatNode.closes ++ nops k := by
  cases c with
  | top => exact absurd rfl hc
  | down a rest c =>
    rw [leaveGaps, Ctx.before, Ctx.before, opens_gaps, List.append_assoc]
  | next a subs c =>
    have hcloses : ({ a with after := a.after + k } : FlatNode).closes = a.closes ++ nops k := by
      unfold FlatNode.closes
      rw [nops_add, List.append_assoc]
    rw [leaveGaps, Ctx.before, Ctx.before, hcloses]
    simp only [List.append_assoc]
    rfl

theorem leaveGaps_after (k : Nat) (c : Ctx FlatNode) :
    (leaveGaps k c).after FlatNode.opens FlatNode.closes = c.after FlatNode.opens FlatNode.closes := by
  cases c <;> rfl

theorem leaveGaps_data (k : Nat) (strs : Str) (c : Ctx FlatNode) :
    (leaveGaps k c).map (FlatNode.data strs) = c.map (FlatNode.data strs) := by
  cases c with
  | top => rfl
  | down a rest c => rw [leaveGaps, Ctx.map, Ctx.map, data_gaps]
  | next a subs c => rfl

theorem leaveGaps_ok {strs : Str} {c : Ctx FlatNode} (h : c.All (FlatNode.Ok strs)) (k : Nat) :
    (leaveGaps k c).All (FlatNode.Ok strs) := by
  cases c with
  | top => exact h
  | down a rest c =>
    refine ⟨⟨h.1.name, h.1.pad, fun j hj => ?_⟩, h.2⟩
    rcases List.mem_append.mp hj with hj | hj
    · exact h.1.items j hj
    · rw [List.eq_of_mem_replicate hj]
      trivial
  | next a subs c => exact ⟨⟨h.1.name, h.1.pad, h.1.items⟩, h.2⟩

/-! ## What is left -/

section
variable {m m' : Mem} {p : Nat} {i : Image}

/-- A part of the structure block is taken out. -/
theorem Holds.cutStruct {a b c : Str} (h : Holds m p i) (hs : i.struct = a ++ (b ++ c)) :
    ∃ m', Fdt.spliceStruct m p (i.offStruct + a.length) b.length 0 = (0, m') ∧ Holds m' p { i with struct := a ++ c } ∧
      Kept p i.total m m' := by
  have hsize := h.ok.size
  obtain ⟨g, m', hsplice, hg, hholds, hkept⟩ := h.spliceStruct hs (Nat.zero_le _) (by omega)
  cases List.eq_nil_of_length_eq_zero hg
  exact ⟨m', hsplice, hholds, hkept⟩

/-- The structure block, with the bytes of a node on their own. -/
theorem node_text (l : Place FlatNode) (tail : Str) : flat l.forest ++ tail =
    l.ctx.before FlatNode.opens FlatNode.closes ++
    ((l.label.opens ++ (flat l.subs ++ cell FDT_END_NODE)) ++ (nops l.label.after ++ (flat l.rest ++
      (l.ctx.after FlatNode.opens FlatNode.closes ++ tail)))) := by
  have hplug : flat l.forest = _ ++ flat (.node l.label l.subs l.rest) ++ _ :=
    Ctx.linear_plug FlatNode.opens FlatNode.closes l.ctx (.node l.label l.subs l.rest)
  have hnode : flat (.node l.label l.subs l.rest) =
    l.label.opens ++ flat l.subs ++ (cell FDT_END_NODE ++ nops l.label.after) ++ flat l.rest := rfl
  rw [hplug, hnode]
  simp only [List.append_assoc]

/-- The structure block without it, with gaps in its place. -/
theorem left_text {l : Place FlatNode} (hc : l.ctx ≠ .top) (k : Nat) (tail : Str) :
    flat ((leaveGaps k l.ctx).plug l.rest) ++ tail = l.ctx.before FlatNode.opens FlatNode.closes ++ (nops k ++
      (flat l.rest ++ (l.ctx.after FlatNode.opens FlatNode.closes ++ tail))) := by
  have hplug : flat ((leaveGaps k l.ctx).plug l.rest) = _ ++ flat l.rest ++ _ :=
    Ctx.linear_plug FlatNode.opens FlatNode.closes (leaveGaps k l.ctx) l.rest
  rw [hplug, leaveGaps_before hc, leaveGaps_after]
  simp only [List.append_assoc]

/-- `fdt_del_node` takes the node out of the tree. -/
theorem delNode_laid {l : Place FlatNode} (h : Laid m p i l.forest) (hc : l.ctx ≠ .top) :
    ∃ m' i', delNode m p (placeOffset l) = (0, m') ∧ Laid m' p i' ((leaveGaps l.label.after l.ctx).plug l.rest) ∧
      i'.strs = i.strs ∧ i'.total = i.total ∧ i'.size ≤ i.size ∧ Kept p i.total m m' := by
  obtain ⟨m0, hprobe, hholds0, hkept0⟩ := h.holds.rwProbe
  have h0 := h.probed hholds0
  obtain ⟨junk, hjunk⟩ := h0.struct
  have hend := nodeEndOffset_flat h0.lies
  obtain ⟨hctx, -, -, hrest⟩ := Ctx.all_plug.mp h0.ok
  have hstruct := hjunk.trans (node_text l (cell FDT_END ++ junk))
  have hlength : (l.label.opens ++ (flat l.subs ++ cell FDT_END_NODE)).length =
      l.label.opens.length + (flat l.subs).length + 4 := by
    rw [List.length_append, List.length_append, cell_length, Nat.add_assoc]
  obtain ⟨m', hsplice, hholds, hkept⟩ := hholds0.cutStruct hstruct
  have hleft := left_text hc l.label.after (cell FDT_END ++ junk)
  rw [← hleft] at hholds
  refine ⟨m', _, ?_, ⟨hholds, ⟨junk, rfl⟩, Ctx.all_plug.mpr ⟨leaveGaps_ok hctx _, hrest⟩⟩, rfl, rfl, ?_,
    hkept0.trans hkept⟩
  · have hoff : offDtStruct (blobAt m0 p) = i.probed.offStruct := h0.holds.reads.offStruct
    have hlen : (((placeOffset l + (l.label.opens.length + (flat l.subs).length + 4) : Nat) : Int) - placeOffset
      l).toNat =
        (l.label.opens ++ (flat l.subs ++ cell FDT_END_NODE)).length := by
      rw [hlength]
      omega
    unfold delNode
    rw [hprobe]
    dsimp only
    rw [if_neg (not_not.mpr rfl), hend, if_neg (Int.not_lt.mpr (Int.natCast_nonneg _)), hoff, Int.toNat_natCast, hlen]
    exact hsplice
  · have hbefore := congrArg List.length hstruct
    have hafter := congrArg List.length hleft
    simp only [List.length_append] at hbefore hafter
    unfold Image.size Image.offStrings Image.offStruct Image.probed at *
    simp only [List.length_append] at hbefore hafter ⊢
    omega

/-- The data without the first property of a name. -/
def NodeData.delprop (a : NodeData) (name : Str) : NodeData := { a with props := a.props.eraseP (·.1 == name) }

theorem eraseP_items (strs name : Str) (items : List Item) : (items.filterMap (Item.data strs)).eraseP (·.1 == name) =
    (findItem strs name items).elim (items.filterMap (Item.data strs)) fun r =>
      r.1.filterMap (Item.data strs) ++ r.2.2.filterMap (Item.data strs) := by
  induction items with
  | nil => rfl
  | cons j items ih =>
    cases j with
    | nop =>
      rw [findItem, List.filterMap_cons_none rfl, ih]
      cases findItem strs name items <;> rfl
    | prop nameoff v pad =>
      have hdata : Item.data strs (.prop nameoff v pad) = some (nameAt strs nameoff, v) := rfl
      rw [findItem, List.filterMap_cons_some hdata]
      by_cases hname : nameAt strs nameoff = name
      · have hit : ((nameAt strs nameoff, v).1 == name) = true := beq_iff_eq.mpr hname
        rw [if_pos hname, List.eraseP_cons_of_pos (p := fun x : Str × Str => x.1 == name) hit]
        rfl
      · have hmiss : ¬((nameAt strs nameoff, v).1 == name) = true := fun hit => hname (beq_iff_eq.mp hit)
        rw [if_neg hname, List.eraseP_cons_of_neg (p := fun x : Str × Str => x.1 == name) hmiss, ih]
        cases findItem strs name items <;> rfl

/-- The structure block, with the bytes of some items of a node on their own. -/
theorem items_text (l : Place FlatNode) (pre mid post : List Item) (junk : Str) :
    Place.text { l with label := { l.label with items := pre ++ (mid ++ post) } } junk =
      (l.ctx.before FlatNode.opens FlatNode.closes ++ (l.label.header ++ itemBytes pre)) ++ (itemBytes mid ++
        (itemBytes post ++ (flat l.subs ++ (l.label.closes ++ (flat l.rest ++
          (l.ctx.after FlatNode.opens FlatNode.closes ++ (cell FDT_END ++ junk))))))) := by
  rw [Place.text, itemBytes_append, itemBytes_append]
  simp only [List.append_assoc]
  rfl

theorem prop_text {l : Place FlatNode} {j : Item} {pre post : List Item} (hsplit : l.label.items = pre ++ j :: post)
    (junk : Str) : flat l.forest ++ (cell FDT_END ++ junk) =
      (l.ctx.before FlatNode.opens FlatNode.closes ++ (l.label.header ++ itemBytes pre)) ++ (j.bytes ++
        (itemBytes post ++ (flat l.subs ++ (l.label.closes ++ (flat l.rest ++
          (l.ctx.after FlatNode.opens FlatNode.closes ++ (cell FDT_END ++ junk))))))) := by
  have hitems := items_text l pre [j] post junk
  rw [List.singleton_append, ← hsplit] at hitems
  rw [flat_place]
  refine hitems.trans ?_
  rw [itemBytes_cons, show itemBytes [] = [] from rfl, List.append_nil]

/-- What `fdt_get_property` answers is twelve bytes behind the start of the property. -/
theorem prop_start (s : Nat) (l : Place FlatNode) (pre : List Item) :
    s + (placeOffset l + l.label.header.length + (itemBytes pre).length) + 12 - 12 =
      s + (l.ctx.before FlatNode.opens FlatNode.closes ++ (l.label.header ++ itemBytes pre)).length := by
  rw [List.length_append, List.length_append, Nat.add_sub_cancel]
  unfold placeOffset
  omega

theorem items_ok {strs : Str} {label : FlatNode} {j : Item} {pre mid post : List Item} (h : label.Ok strs)
    (hsplit : label.items = pre ++ j :: post) (hmid : ∀ j ∈ mid, j.Ok strs) :
    ({ label with items := pre ++ (mid ++ post) } : FlatNode).Ok strs := by
  refine ⟨h.name, h.pad, fun j hj => ?_⟩
  rcases List.mem_append.mp hj with hj | hj
  · exact h.items j (hsplit ▸ List.mem_append_left _ hj)
  · rcases List.mem_append.mp hj with hj | hj
    · exact hmid j hj
    · exact h.items j (hsplit ▸ List.mem_append_right _ (List.mem_cons_of_mem _ hj))

theorem prop_bytes {strs : Str} {nameoff : Nat} {old pad : Str} (h : (Item.prop nameoff old pad).Ok strs) :
    (Item.prop nameoff old pad).bytes.length = 12 + tagAlign old.length := by
  rw [prop_length, Nat.add_assoc, tagAlign_padded h.1]

/-- `fdt_delprop` takes the property out of its node. -/
theorem delprop_laid {l : Place FlatNode} (h : Laid m p i l.forest) (name : Str) :
    match findItem i.strs name l.label.items with
    | none => ∃ m', delprop m p (placeOffset l) name = (-FDT_ERR_NOTFOUND, m') ∧ Laid m' p i.probed l.forest ∧
        Kept p i.total m m'
    | some r => ∃ m' i', delprop m p (placeOffset l) name = (0, m') ∧
        Laid m' p i' (Place.forest { l with label := { l.label with items := r.1 ++ r.2.2 } }) ∧
        i'.strs = i.strs ∧ i'.total = i.total ∧ i'.size ≤ i.size ∧ Kept p i.total m m' := by
  obtain ⟨m0, hprobe, hholds0, hkept0⟩ := h.holds.rwProbe
  have h0 := h.probed hholds0
  obtain ⟨junk, hjunk⟩ := h0.struct
  cases hfind : findItem i.strs name l.label.items with
  | none =>
    have hversion := h0.lies.fits.version
    refine ⟨m0, ?_, h0, hkept0⟩
    unfold delprop getProperty
    rw [hprobe]
    dsimp only
    rw [if_neg (not_not.mpr rfl), if_neg (by omega), getPropertyNamelen_flat h0.lies name]
    rw [show i.probed.strs = i.strs from rfl, hfind]
  | some r =>
    obtain ⟨pre, j, post⟩ := r
    obtain ⟨hsplit, nameoff, old, pad, rfl, hnameoff⟩ := findItem_split hfind
    have hget := getProperty_found h0 hfind
    have hlabel := h0.lies.here.ok
    have hbytes := prop_bytes (hlabel.items (.prop nameoff old pad)
      (hsplit ▸ List.mem_append_right pre List.mem_cons_self))
    have hstruct := hjunk.trans (prop_text hsplit junk)
    obtain ⟨m', hsplice, hholds, hkept⟩ := hholds0.cutStruct hstruct
    have hleft := items_text l pre [] post junk
    have hok : ({ l.label with items := pre ++ ([] ++ post) } : FlatNode).Ok i.probed.strs :=
      items_ok hlabel hsplit fun j hj => absurd hj List.not_mem_nil
    rw [show itemBytes [] = [] from rfl, List.nil_append, List.nil_append] at hleft
    have hsize := congrArg List.length hstruct
    have hcut := congrArg List.length hleft
    rw [← hleft] at hholds
    refine ⟨m', _, ?_, Laid.relabel junk h0 hholds ⟨[], (List.append_nil _).symm⟩ hok, rfl, rfl, ?_,
      hkept0.trans hkept⟩
    · unfold delprop
      rw [hprobe]
      dsimp only
      rw [if_neg (not_not.mpr rfl), hget]
      dsimp only
      rw [prop_start, Int.toNat_natCast, ← hbytes]
      exact hsplice
    · simp only [List.length_append] at hsize hcut
      unfold Image.size Image.offStrings Image.offStruct Image.probed at *
      dsimp only at *
      omega

end

section
variable {m : Mem} {p : Nat} {o : Int} {n : Place NodeData}

theorem NodeData.delprop_none {a : NodeData} {name : Str} (h : a.value name = none) : a.delprop name = a := by
  unfold NodeData.value at h
  have hfind : a.props.find? (·.1 == name) = none := Option.map_eq_none_iff.mp h
  unfold NodeData.delprop
  rw [List.eraseP_of_forall_not fun x hx => List.find?_eq_none.mp hfind x hx]

/-- A property is taken out of the node, if it has it. -/
theorem NodeAt.delprop (h : NodeAt m p o n) (name : Str) : Within p m (delprop m p o name).2 ∧
    dataSize (blobAt (delprop m p o name).2 p) ≤ dataSize (blobAt m p) ∧
    (delprop m p o name).1 = (if (n.label.value name).isSome then 0 else -FDT_ERR_NOTFOUND) ∧
    NodeAt (delprop m p o name).2 p o { n with label := n.label.delprop name } := by
  obtain ⟨i, l, hlaid, rfl, rfl⟩ := h
  have hdel := delprop_laid hlaid name
  have hvalue : (l.label.data i.strs).value name = ((findItem i.strs name l.label.items).bind fun r =>
    Item.data i.strs r.2.1).map Prod.snd := congrArg (Option.map Prod.snd) (findItem_data l.label.items)
  have herase := eraseP_items i.strs name l.label.items
  cases hfind : findItem i.strs name l.label.items with
  | none =>
    rw [hfind] at hdel hvalue
    obtain ⟨m', hcode, hlaid', hkept⟩ := hdel
    have hnone : (l.map (FlatNode.data i.strs)).label.value name = none := hvalue
    rw [hcode, hnone, NodeData.delprop_none hnone, hlaid'.holds.dataSize, hlaid.holds.dataSize]
    exact ⟨hlaid.within hlaid' rfl hkept, Nat.le_refl _, rfl, i.probed, l, hlaid', rfl, rfl⟩
  | some r =>
    rw [hfind] at hdel hvalue herase
    obtain ⟨m', i', hcode, hlaid', hstrs, htotal, hsize, hkept⟩ := hdel
    obtain ⟨pre, j, post⟩ := r
    obtain ⟨-, nameoff, old, pad, rfl, -⟩ := findItem_split hfind
    have hsome : (l.map (FlatNode.data i.strs)).label.value name = some old := hvalue
    have hdata : ({ l.label with items := pre ++ post } : FlatNode).data i'.strs =
        (l.label.data i.strs).delprop name := by
      have hprops : (l.label.items.filterMap (Item.data i.strs)).eraseP (·.1 == name) =
          (pre ++ post).filterMap (Item.data i.strs) := herase.trans List.filterMap_append.symm
      unfold NodeData.delprop FlatNode.data
      rw [hstrs, hprops]
    rw [hcode, hsome, hlaid'.holds.dataSize, hlaid.holds.dataSize]
    refine ⟨hlaid.within hlaid' htotal hkept, hsize, rfl, i', _, hlaid', rfl, ?_⟩
    unfold Place.map
    rw [hdata, hstrs]

/-- A node is taken out of the tree. -/
theorem NodeAt.delNode (h : NodeAt m p o n) (hn : n.ctx ≠ .top) : Within p m (delNode m p o).2 ∧
    dataSize (blobAt (delNode m p o).2 p) ≤ dataSize (blobAt m p) ∧ (delNode m p o).1 = 0 ∧
    Carries (delNode m p o).2 p (n.ctx.plug n.rest) := by
  obtain ⟨i, l, hlaid, rfl, rfl⟩ := h
  have hc : l.ctx ≠ .top := fun htop => hn (congrArg (Ctx.map (FlatNode.data i.strs)) htop)
  obtain ⟨m', i', hcode, hlaid', hstrs, htotal, hsize, hkept⟩ := delNode_laid hlaid hc
  rw [hcode, hlaid'.holds.dataSize, hlaid.holds.dataSize]
  refine ⟨hlaid.within hlaid' htotal hkept, hsize, rfl, i', _, hlaid', ?_⟩
  rw [Ctx.map_plug, leaveGaps_data, hstrs]
  rfl

end

end DTFramework.Fdt
