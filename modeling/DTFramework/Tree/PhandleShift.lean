import DTFramework.Tree.Open
import DTFramework.Tree.Overlay
import DTFramework.Tree.Phandle

/-!
# Shifting the phandles of an overlay

Before an overlay is merged, `overlay_adjust_local_phandles` adds the base's
largest phandle to every phandle of the overlay, in place. On a blob that stands
for a tree this is `shiftTree`. When it succeeds, no phandle of the overlay is one
of the base's (`adjust_separates`).

Results:

* `storeValue_laid`, `phandleAddOffset_laid`: a phandle is written over in place;
* `withPhandle_above`: no node has a phandle above the largest;
* `adjust_separates`: the call, with the largest phandle of the base.
-/
namespace DTFramework.Fdt

open DTFramework.Lib

/-! ## The code -/

abbrev FDT_ERR_NOPHANDLES : Int := 17

/-- mirrors libs/libfdt/fdt_overlay.c:101-121 -/
def phandleAddOffset (m : Mem) (fdt : Nat) (node : Int) (name : Str) (delta : Nat) : Int × Mem :=
  match getprop (blobAt m fdt) node name with
  | .error len => (len, m)
  | .ok (valp, len) =>
    if len ≠ 4 then (-FDT_ERR_BADPHANDLE, m)
    else
      let val := be32 (blobAt m fdt) valp
      let sum := (val + delta) % 2 ^ 32
      if sum < val ∨ sum = 0xffffffff then (-FDT_ERR_NOPHANDLES, m) else (0, setCell m fdt valp sum)

/-- The two calls of `overlay_phandle_add_offset` for a node. -/
def shiftCells (m : Mem) (fdto : Nat) (node : Int) (delta : Nat) : Int × Mem :=
  let r := phandleAddOffset m fdto node PHANDLE delta
  if r.1 ≠ 0 ∧ r.1 ≠ -FDT_ERR_NOTFOUND then r
  else
    let r' := phandleAddOffset r.2 fdto node LINUX_PHANDLE delta
    if r'.1 ≠ 0 ∧ r'.1 ≠ -FDT_ERR_NOTFOUND then r' else (0, r'.2)

mutual

/-- mirrors libs/libfdt/fdt_overlay.c:138-161 (`overlay_adjust_node_phandles`) -/
def adjustNodePhandles (m : Mem) (fdto : Nat) (node : Int) (delta : Nat) : Int × Mem :=
  let r := shiftCells m fdto node delta
  if r.1 ≠ 0 then r
  else if _h : firstSubnode (blobAt r.2 fdto) node < 0 then (0, r.2)
  else adjustSubnodes r.2 fdto (firstSubnode (blobAt r.2 fdto) node) delta
termination_by (nodeRoom node, 0)
decreasing_by exact Prod.Lex.left _ _ (firstSubnode_nodeRoom (Int.not_lt.mp _h))

/-- Its loop, at a subnode. -/
def adjustSubnodes (m : Mem) (fdto : Nat) (child : Int) (delta : Nat) : Int × Mem :=
  let r := adjustNodePhandles m fdto child delta
  if r.1 ≠ 0 then r
  else if _h : nextSubnode (blobAt r.2 fdto) child < 0 then (0, r.2)
  else adjustSubnodes r.2 fdto (nextSubnode (blobAt r.2 fdto) child) delta
termination_by (nodeRoom child, 1)
decreasing_by
  · exact Prod.Lex.right _ Nat.zero_lt_one
  · exact Prod.Lex.left _ _ (nextSubnode_nodeRoom (Int.not_lt.mp _h))

end

/-- mirrors libs/libfdt/fdt_overlay.c:176-182 -/
def adjustLocalPhandles (m : Mem) (fdto delta : Nat) : Int × Mem := adjustNodePhandles m fdto 0 delta

/-! ## Trees -/

/-- A phandle of a node is shifted, unless it is no cell or has no room. -/
def NodeData.shiftCell (a : NodeData) (name : Str) (delta : Nat) : Int × NodeData :=
  (a.value name).elim (0, a) fun v =>
    if v.length ≠ 4 then (-FDT_ERR_BADPHANDLE, a)
    else if 0xffffffff ≤ Extn.bigEndian v + delta then (-FDT_ERR_NOPHANDLES, a)
    else (0, a.setprop name (Fdt.cell (Extn.bigEndian v + delta)))

def NodeData.shift (a : NodeData) (delta : Nat) : Int × NodeData :=
  let r := a.shiftCell PHANDLE delta
  if r.1 ≠ 0 then r else r.2.shiftCell LINUX_PHANDLE delta

/-- A node with what is below it. -/
def shiftUnder (r : Int × NodeData) (subs : Forest NodeData) (below : Int × Forest NodeData) :
    Int × NodeData × Forest NodeData :=
  if r.1 ≠ 0 then (r.1, r.2, subs) else (below.1, r.2, below.2)

/-- The phandles of a forest, up to the first that cannot be shifted. -/
def shiftAll (delta : Nat) : Forest NodeData → Int × Forest NodeData
  | .nil => (0, .nil)
  | .node a subs rest =>
    let n := shiftUnder (a.shift delta) subs (shiftAll delta subs)
    if n.1 ≠ 0 then (n.1, .node n.2.1 n.2.2 rest)
    else ((shiftAll delta rest).1, .node n.2.1 n.2.2 (shiftAll delta rest).2)

/-- The phandles of the root and of all below it. -/
def shiftTree (delta : Nat) : Forest NodeData → Int × Forest NodeData
  | .nil => (0, .nil)
  | .node a subs rest =>
    let n := shiftUnder (a.shift delta) subs (shiftAll delta subs)
    (n.1, .node n.2.1 n.2.2 rest)

/-! ## Values written over -/

section
variable {m m' m'' : Mem} {p : Nat} {i i' i'' : Image}

/-- Only values changed: everything lies where it lay. -/
structure InPlace (p : Nat) (m m' : Mem) (i i' : Image) : Prop where
  kept : Kept p i.total m m'
  total : i'.total = i.total
  strs : i'.strs = i.strs

theorem InPlace.refl : InPlace p m m i i := ⟨Kept.refl m, rfl, rfl⟩

theorem InPlace.trans (h : InPlace p m m' i i') (h' : InPlace p m' m'' i' i'') : InPlace p m m'' i i'' :=
  ⟨h.kept.trans (h.total ▸ h'.kept), h'.total.trans h.total, h'.strs.trans h.strs⟩

/-- A value of the same length is written over a property's. -/
theorem storeValue_laid {l : Place FlatNode} {name old pad val : Str} {nameoff : Nat} {pre post : List Item}
    (h : Laid m p i l.forest) (hfind : findItem i.strs name l.label.items = some (pre, .prop nameoff old pad, post))
    (hlen : val.length = old.length) :
    ∃ q i' label, getprop (blobAt m p) (placeOffset l) name = .ok (q, (old.length : Int)) ∧
      At (blobAt m p).rd q old ∧ Laid (store m (p + q) val) p i' (Place.forest { l with label := label }) ∧
      label.data i'.strs = (l.label.data i.strs).setprop name val ∧ InPlace p m (store m (p + q) val) i i' := by
  obtain ⟨junk, hjunk⟩ := h.struct
  have hs : i.struct = Place.text l junk := by rw [hjunk, flat_place]
  have hlies := h.lies
  have hhere := hlies.here
  have hr := h.holds.reads
  obtain ⟨hsplit, nameoff', old', pad', hitem, hname⟩ := findItem_split hfind
  cases hitem
  have hitems := hhere.items
  rw [hsplit, itemBytes_append, itemBytes_cons, Stands.append, Stands.append] at hitems
  have hok := hhere.ok.items _ (hsplit ▸ List.mem_append_right pre List.mem_cons_self)
  obtain ⟨hplen, -, hdata⟩ := prop_fields hlies.fits hok hlies.strings hitems.2.1
  have hversion := hlies.fits.version
  have hfits := hitems.2.1.2
  have htotal := hlies.fits.total
  have hin := hlies.fits.struct_le
  rw [prop_length] at hfits
  simp only [INT_MAX] at htotal
  have hplace : propValue (blobAt m p) ((placeOffset l + l.label.header.length + (itemBytes pre).length : Nat) : Int) =
      i.offStruct + (placeOffset l + l.label.header.length + (itemBytes pre).length + 12) := by
    unfold propValue
    rw [if_neg (by omega), propData, hr.offStruct, Int.toNat_natCast, Nat.add_assoc]
  have hget : getprop (blobAt m p) (placeOffset l) name =
      .ok (i.offStruct + (placeOffset l + l.label.header.length + (itemBytes pre).length + 12),
          (old.length : Int)) := by
    unfold getprop
    rw [getPropertyNamelen_flat hlies name, hfind]
    simp only
    rw [hplace, hplen, int32_nat (by omega)]
  have hold : At (blobAt m p).rd (i.offStruct + (placeOffset l + l.label.header.length + (itemBytes pre).length + 12))
    old := by
    rw [propData, hr.offStruct, Int.toNat_natCast, Nat.add_assoc] at hdata
    exact hdata
  have hstruct : i.struct = (l.ctx.before FlatNode.opens FlatNode.closes ++ (l.label.header ++ (itemBytes pre ++
      (cell FDT_PROP ++ (cell old.length ++ cell nameoff))))) ++ (old ++ (pad ++ (itemBytes post ++ (flat l.subs ++
        (l.label.closes ++ (flat l.rest ++ (l.ctx.after FlatNode.opens FlatNode.closes ++
          (cell FDT_END ++ junk)))))))) := by
    rw [hs]
    simp only [Place.text, hsplit, itemBytes_append, itemBytes_cons, Item.bytes, List.append_assoc]
  have hover := h.holds.overwrite hstruct hlen
  have hpos : (l.ctx.before FlatNode.opens FlatNode.closes ++ (l.label.header ++ (itemBytes pre ++
      (cell FDT_PROP ++ (cell old.length ++ cell nameoff))))).length =
      placeOffset l + l.label.header.length + (itemBytes pre).length + 12 := by
    simp only [List.length_append, cell_length, placeOffset]
    omega
  rw [hpos] at hover
  have hlabel : ({ l.label with items := pre ++ .prop nameoff val pad :: post } : FlatNode).Ok i.strs := by
    refine ⟨hhere.ok.name, hhere.ok.pad, fun j hj => ?_⟩
    rcases List.mem_append.mp hj with hj | hj
    · exact hhere.ok.items j (hsplit ▸ List.mem_append_left _ hj)
    · rcases List.mem_cons.mp hj with rfl | hj
      · exact ⟨hlen.symm ▸ hok.1, hok.2⟩
      · exact hhere.ok.items j (hsplit ▸ List.mem_append_right _ (List.mem_cons_of_mem _ hj))
  refine ⟨_, _, { l.label with items := pre ++ .prop nameoff val pad :: post }, hget, hold,
    Laid.relabel junk h ?_ ⟨[], (List.append_nil _).symm⟩ hlabel, setprop_data_found hfind hname l.label rfl,
    hover.2, rfl, rfl⟩
  have htext : Place.text { l with label := { l.label with items := pre ++ .prop nameoff val pad :: post } } junk =
      (l.ctx.before FlatNode.opens FlatNode.closes ++ (l.label.header ++ (itemBytes pre ++
        (cell FDT_PROP ++ (cell old.length ++ cell nameoff))))) ++ (val ++ (pad ++ (itemBytes post ++ (flat l.subs ++
          (l.label.closes ++ (flat l.rest ++ (l.ctx.after FlatNode.opens FlatNode.closes ++
            (cell FDT_END ++ junk)))))))) := by
    rw [← hlen]
    unfold Place.text
    simp only [itemBytes_append, itemBytes_cons, Item.bytes, List.append_assoc]
    rfl
  rw [htext]
  exact hover.1

/-! ## Nodes -/

/-- A phandle of a node is shifted in the tree; one that is not there is passed over. -/
theorem phandleAddOffset_laid {l : Place FlatNode} {delta : Nat} (h : Laid m p i l.forest) (name : Str)
    (hdelta : delta < 2 ^ 32) :
    ∃ st m' i' label, phandleAddOffset m p (placeOffset l) name delta = (st, m') ∧
      (((st ≠ 0 ∧ st ≠ -FDT_ERR_NOTFOUND) ∧ ((l.label.data i.strs).shiftCell name delta).1 = st) ∨
        (¬(st ≠ 0 ∧ st ≠ -FDT_ERR_NOTFOUND) ∧ ((l.label.data i.strs).shiftCell name delta).1 = 0)) ∧
      Laid m' p i' (Place.forest { l with label := label }) ∧
      label.data i.strs = ((l.label.data i.strs).shiftCell name delta).2 ∧ InPlace p m m' i i' := by
  have hnot : ¬((-FDT_ERR_NOTFOUND : Int) ≠ 0 ∧ (-FDT_ERR_NOTFOUND : Int) ≠ -FDT_ERR_NOTFOUND) := by decide
  have hbad : (-FDT_ERR_BADPHANDLE : Int) ≠ 0 ∧ (-FDT_ERR_BADPHANDLE : Int) ≠ -FDT_ERR_NOTFOUND := by decide
  have hnone : (-FDT_ERR_NOPHANDLES : Int) ≠ 0 ∧ (-FDT_ERR_NOPHANDLES : Int) ≠ -FDT_ERR_NOTFOUND := by decide
  have hzero : ¬((0 : Int) ≠ 0 ∧ (0 : Int) ≠ -FDT_ERR_NOTFOUND) := by decide
  unfold phandleAddOffset NodeData.shiftCell
  rcases getprop_flat h.lies name with ⟨hv, hget⟩ | ⟨v, q, hv, hget, hat, -⟩
  · rw [hv, hget]
    exact ⟨_, m, i, l.label, rfl, Or.inr ⟨hnot, rfl⟩, h, rfl, .refl⟩
  rw [hv, hget, Option.elim_some]
  dsimp only
  by_cases h4 : v.length = 4
  · have hval : be32 (blobAt m p) q = Extn.bigEndian v := be32_bigEndian hat h4
    have hlt := be32_lt (blobAt m p) q
    rw [if_neg (by omega), if_neg (not_not.mpr h4), hval]
    rw [hval] at hlt
    by_cases hover : 0xffffffff ≤ Extn.bigEndian v + delta
    · rw [if_pos (by omega), if_pos hover]
      exact ⟨_, m, i, l.label, rfl, Or.inl ⟨hnone, rfl⟩, h, rfl, .refl⟩
    · have hsum : (Extn.bigEndian v + delta) % 2 ^ 32 = Extn.bigEndian v + delta := Nat.mod_eq_of_lt (by omega)
      rw [hsum, if_neg (by omega), if_neg hover]
      cases hfind : findItem i.strs name l.label.items with
      | none =>
        have hno : (l.label.data i.strs).value name = none := by
          unfold NodeData.value FlatNode.data
          rw [findItem_data, hfind]
          rfl
        exact absurd (hno.symm.trans hv) (Option.some_ne_none v).symm
      | some r =>
        obtain ⟨pre, j, post⟩ := r
        obtain ⟨-, nameoff, old, pad, rfl, -⟩ := findItem_split hfind
        have hold : (l.label.data i.strs).value name = some old := by
          unfold NodeData.value FlatNode.data
          rw [findItem_data, hfind]
          rfl
        cases Option.some.inj (hold.symm.trans hv)
        have hcell : (cell (Extn.bigEndian v + delta)).length = v.length := h4.symm ▸ cell_length _
        obtain ⟨q', i', label, hget', -, hlaid, hdata, hin⟩ := storeValue_laid h hfind hcell
        cases (Prod.mk.inj (Except.ok.inj (hget.symm.trans hget'))).1
        rw [hin.strs] at hdata
        exact ⟨0, _, i', label, rfl, Or.inr ⟨hzero, rfl⟩, hlaid, hdata, hin⟩
  · rw [if_pos (by omega), if_pos h4]
    exact ⟨_, m, i, l.label, rfl, Or.inl ⟨hbad, rfl⟩, h, rfl, .refl⟩

theorem shiftCells_laid {l : Place FlatNode} {delta : Nat} (h : Laid m p i l.forest) (hdelta : delta < 2 ^ 32) :
    ∃ m' i' label, shiftCells m p (placeOffset l) delta = (((l.label.data i.strs).shift delta).1, m') ∧
      Laid m' p i' (Place.forest { l with label := label }) ∧
      label.data i.strs = ((l.label.data i.strs).shift delta).2 ∧ InPlace p m m' i i' := by
  obtain ⟨st, m1, i1, label1, hcode, hst, hlaid, hdata, hin⟩ := phandleAddOffset_laid h PHANDLE hdelta
  unfold shiftCells NodeData.shift
  dsimp only
  rw [hcode]
  rcases hst with ⟨hst, hshift⟩ | ⟨hst, hshift⟩
  · have hne : ((l.label.data i.strs).shiftCell PHANDLE delta).1 ≠ 0 := by
      rw [hshift]
      exact hst.1
    rw [if_pos hst, if_pos hne, hshift]
    exact ⟨m1, i1, label1, rfl, hlaid, hdata, hin⟩
  · rw [if_neg hst, if_neg (not_not.mpr hshift), ← hdata]
    obtain ⟨st2, m2, i2, label2, hcode2, hst2, hlaid2, hdata2, hin2⟩ :=
      phandleAddOffset_laid (l := { l with label := label1 }) hlaid LINUX_PHANDLE hdelta
    have hoff : placeOffset { l with label := label1 } = placeOffset l := rfl
    rw [hoff] at hcode2
    rw [hin.strs] at hst2 hdata2
    dsimp only
    rw [hcode2]
    rcases hst2 with ⟨hst2, hshift2⟩ | ⟨hst2, hshift2⟩
    · rw [if_pos hst2, hshift2]
      exact ⟨m2, i2, label2, rfl, hlaid2, hdata2, hin.trans hin2⟩
    · rw [if_neg hst2, hshift2]
      exact ⟨m2, i2, label2, rfl, hlaid2, hdata2, hin.trans hin2⟩

/-! ## Levels -/

/-- A context below a node. -/
def Inner : Ctx FlatNode → Prop
  | .top => False
  | .down _ _ _ => True
  | .next _ _ c => Inner c

theorem Inner.level {f : Blob} {strs : Str} {c : Ctx FlatNode} (hc : Inner c) {t : Forest FlatNode}
    (h : Lies f strs (c.plug t)) :
    ∃ b, LevelStands f strs (c.before FlatNode.opens FlatNode.closes).length t b := by
  induction c generalizing t with
  | top => cases hc
  | down b rest c _ =>
    have hplace : Lies f strs (Place.forest ⟨c, b, t, rest⟩) := h
    refine ⟨b, ?_⟩
    rw [Ctx.before, List.length_append]
    exact hplace.here.level
  | next a subs c ih =>
    obtain ⟨b, hlevel⟩ := ih hc (t := .node a subs t) h
    refine ⟨b, ?_⟩
    have hspan : (c.before FlatNode.opens FlatNode.closes).length + a.opens.length + (flat subs).length
      + a.closes.length =
        (c.before FlatNode.opens FlatNode.closes).length + span a subs := by
      unfold span
      omega
    rw [before_next rfl, hspan]
    exact hlevel.node.2

/-- The loop of `overlay_adjust_node_phandles`, from the offset of the first subnode. -/
def adjustLevel (m : Mem) (fdto : Nat) (child : Int) (delta : Nat) : Int × Mem :=
  if child < 0 then (0, m) else adjustSubnodes m fdto child delta

/-- The nodes of a level are shifted where they are. -/
def LevelShifts (m : Mem) (p : Nat) (i : Image) (c : Ctx FlatNode) (t : Forest FlatNode) (delta : Nat) : Prop :=
  ∃ m' i' t', adjustLevel m p (firstOf t (c.before FlatNode.opens FlatNode.closes).length) delta =
      ((shiftAll delta (t.map (FlatNode.data i.strs))).1, m') ∧ Laid m' p i' (c.plug t') ∧
    t'.map (FlatNode.data i.strs) = (shiftAll delta (t.map (FlatNode.data i.strs))).2 ∧ InPlace p m m' i i'

theorem adjustNode_laid {l : Place FlatNode} {delta : Nat} (h : Laid m p i l.forest) (hdelta : delta < 2 ^ 32)
    (hlevel : ∀ {m i} (label : FlatNode), Laid m p i (Place.forest { l with label := label }) →
      LevelShifts m p i (.down label l.rest l.ctx) l.subs delta) :
    ∃ m' i' a' subs', adjustNodePhandles m p (placeOffset l) delta =
        ((shiftUnder ((l.label.data i.strs).shift delta) (l.subs.map (FlatNode.data i.strs))
          (shiftAll delta (l.subs.map (FlatNode.data i.strs)))).1, m') ∧
      Laid m' p i' (Place.forest { l with label := a', subs := subs' }) ∧
      (a'.data i.strs, subs'.map (FlatNode.data i.strs)) = (shiftUnder ((l.label.data i.strs).shift delta)
        (l.subs.map (FlatNode.data i.strs)) (shiftAll delta (l.subs.map (FlatNode.data i.strs)))).2 ∧
      InPlace p m m' i i' := by
  obtain ⟨m1, i1, label, hcode, hlaid, hdata, hin⟩ := shiftCells_laid h hdelta
  rw [adjustNodePhandles, hcode]
  unfold shiftUnder
  dsimp only
  by_cases hst : ((l.label.data i.strs).shift delta).1 = 0
  · have hlies := hlaid.lies
    have hhere : NodeStands (blobAt m1 p) i1.strs (placeOffset l) label l.subs := hlies.here
    have hfirst := firstSubnode_flat hlies.fits hhere
    have hdown : ((Ctx.down label l.rest l.ctx).before FlatNode.opens FlatNode.closes).length =
        placeOffset l + label.opens.length := by
      rw [Ctx.before, List.length_append]
      rfl
    obtain ⟨m2, i2, subs', hloop, hlaid2, hsubs, hin2⟩ := hlevel label hlaid
    rw [hdown, ← hfirst, hin.strs] at hloop
    rw [hin.strs] at hsubs
    rw [if_neg (not_not.mpr hst), if_neg (not_not.mpr hst)]
    refine ⟨m2, i2, label, subs', ?_, hlaid2, Prod.ext hdata hsubs, hin.trans hin2⟩
    simp only [dite_eq_ite]
    exact hloop
  · rw [if_pos hst, if_pos hst]
    exact ⟨m1, i1, label, l.subs, rfl, hlaid, Prod.ext hdata rfl, hin⟩

theorem adjustLevel_laid {delta : Nat} (hdelta : delta < 2 ^ 32) {c : Ctx FlatNode} {t : Forest FlatNode}
    (hc : Inner c)
    (h : Laid m p i (c.plug t)) : LevelShifts m p i c t delta := by
  induction t generalizing m i c with
  | nil => exact ⟨m, i, .nil, if_pos (show (-FDT_ERR_NOTFOUND : Int) < 0 by decide), h, rfl, .refl⟩
  | node a subs rest ihs ihr =>
    have hfirst : adjustLevel m p (firstOf (.node a subs rest) (c.before FlatNode.opens FlatNode.closes).length) delta
      =
        adjustSubnodes m p (c.before FlatNode.opens FlatNode.closes).length delta :=
      if_neg (Int.not_lt.mpr (Int.natCast_nonneg _))
    obtain ⟨m1, i1, a1, subs1, hcode, hlaid, hdata, hin⟩ := adjustNode_laid (l := ⟨c, a, subs, rest⟩) h hdelta
      fun {m i} label hl => ihs (c := .down label rest c) trivial hl
    obtain ⟨hlabel, hsubs⟩ := Prod.mk.inj hdata
    have hoff : placeOffset ⟨c, a, subs, rest⟩ = (c.before FlatNode.opens FlatNode.closes).length := rfl
    rw [hoff] at hcode
    unfold LevelShifts
    rw [hfirst, adjustSubnodes, hcode, Forest.map, shiftAll]
    dsimp only
    by_cases hst : (shiftUnder ((a.data i.strs).shift delta) (subs.map (FlatNode.data i.strs))
        (shiftAll delta (subs.map (FlatNode.data i.strs)))).1 = 0
    · have hlies := hlaid.lies
      obtain ⟨b, hlevel⟩ := hc.level (t := .node a1 subs1 rest) hlies
      have hnext := nextSubnode_flat hlies.fits hlevel
      have hspan : (c.before FlatNode.opens FlatNode.closes).length + a1.opens.length + (flat subs1).length +
          a1.closes.length = (c.before FlatNode.opens FlatNode.closes).length + span a1 subs1 := by
        unfold span
        omega
      obtain ⟨m2, i2, rest', hloop, hlaid2, hrest, hin2⟩ := ihr (c := .next a1 subs1 c) hc hlaid
      rw [before_next rfl, hspan, ← hnext, hin.strs] at hloop
      rw [hin.strs] at hrest
      rw [if_neg (not_not.mpr hst), if_neg (not_not.mpr hst)]
      refine ⟨m2, i2, .node a1 subs1 rest', ?_, hlaid2, ?_, hin.trans hin2⟩
      · simp only [dite_eq_ite]
        exact hloop
      · rw [Forest.map, hlabel, hsubs, hrest]
    · rw [if_pos hst, if_pos hst]
      refine ⟨m1, i1, .node a1 subs1 rest, rfl, hlaid, ?_, hin⟩
      rw [Forest.map, hlabel, hsubs]

end

/-! ## Separation -/

section
variable {a : NodeData} {name : Str} {delta : Nat}

theorem bigEndian_cell {n : Nat} (h : n < 2 ^ 32) : Extn.bigEndian (cell n) = n := by
  have hat : At (blobAt (memOf 0 (cell n)) 0).rd 0 (cell n) := at_blob.mpr (at_memOf 0 (cell n))
  rw [← be32_bigEndian hat (cell_length n)]
  exact be32_cell hat h

theorem bigEndian_lt {v : Str} (h : v.length = 4) : Extn.bigEndian v < 2 ^ 32 := by
  have hat : At (blobAt (memOf 0 v) 0).rd 0 v := at_blob.mpr (at_memOf 0 v)
  rw [← be32_bigEndian hat h]
  exact be32_lt _ _

theorem NodeData.cell_lt {x : Nat} (h : a.cell name = some x) : x < 2 ^ 32 := by
  obtain ⟨v, -, hv⟩ := Option.bind_eq_some_iff.mp h
  split at hv
  · rename_i h4
    cases hv
    exact bigEndian_lt h4
  · cases hv

theorem NodeData.phandle_lt (a : NodeData) : a.phandle < 2 ^ 32 := by
  unfold NodeData.phandle
  cases hp : a.cell PHANDLE with
  | some x => exact NodeData.cell_lt hp
  | none =>
    cases hl : a.cell LINUX_PHANDLE with
    | some x => exact NodeData.cell_lt hl
    | none => exact Nat.two_pow_pos 32

theorem maxPhandle_lt (t : Forest NodeData) : maxPhandle t < 2 ^ 32 :=
  List.foldlRecOn (motive := (· < 2 ^ 32)) (Place.places .top t) _ (Nat.two_pow_pos 32)
    fun _ hmax l _ => Nat.max_lt.mpr ⟨hmax, l.label.phandle_lt⟩

theorem foldl_max_le {ls : List (Place NodeData)} (max : Nat) :
    max ≤ ls.foldl (fun max l => Nat.max max l.label.phandle) max ∧
      ∀ l ∈ ls, l.label.phandle ≤ ls.foldl (fun max l => Nat.max max l.label.phandle) max := by
  induction ls generalizing max with
  | nil => exact ⟨Nat.le_refl max, fun l hl => absurd hl List.not_mem_nil⟩
  | cons l ls ih =>
    obtain ⟨hmax, hall⟩ := ih (Nat.max max l.label.phandle)
    refine ⟨Nat.le_trans (Nat.le_max_left _ _) hmax, fun l' hl' => ?_⟩
    rcases List.mem_cons.mp hl' with rfl | hl'
    · exact Nat.le_trans (Nat.le_max_right _ _) hmax
    · exact hall l' hl'

/-- No node has a phandle above the largest. -/
theorem withPhandle_above {t : Forest NodeData} {x : Nat} (h : maxPhandle t < x) : withPhandle t x = none := by
  refine List.find?_eq_none.mpr fun l hl hx => ?_
  have hle : l.label.phandle ≤ maxPhandle t := (foldl_max_le 0).2 l hl
  have heq : l.label.phandle = x := beq_iff_eq.mp hx
  omega

/-- A cell that is shifted, where it is there. -/
theorem NodeData.shiftCell_ok (h : (a.shiftCell name delta).1 = 0) (x : Str) :
    (a.shiftCell name delta).2.cell x = (if x = name then (a.cell name).map (· + delta) else a.cell x) ∧
      ∀ v, a.cell name = some v → v + delta < 0xffffffff := by
  unfold NodeData.shiftCell at h ⊢
  have hcell : a.cell name = (a.value name).bind fun v => if v.length = 4 then some (Extn.bigEndian v) else none := rfl
  cases hv : a.value name with
  | none =>
    rw [hv] at hcell
    refine ⟨?_, fun v hc => absurd (hcell.symm.trans hc) (Option.some_ne_none v).symm⟩
    by_cases hx : x = name
    · subst hx
      rw [if_pos rfl, hcell]
      exact hcell
    · rw [if_neg hx]
      rfl
  | some v =>
    rw [hv, Option.elim_some] at h
    rw [hv, Option.bind_some] at hcell
    rw [Option.elim_some]
    by_cases h4 : v.length = 4
    · rw [if_neg (not_not.mpr h4)] at h ⊢
      rw [if_pos h4] at hcell
      by_cases hover : 0xffffffff ≤ Extn.bigEndian v + delta
      · rw [if_pos hover] at h
        exact absurd h (show ¬(-FDT_ERR_NOPHANDLES : Int) = 0 by decide)
      · rw [if_neg hover]
        refine ⟨?_, fun w hc => ?_⟩
        · unfold NodeData.cell
          rw [NodeData.value_setprop]
          by_cases hx : x = name
          · rw [if_pos hx, if_pos hx, Option.bind_some, if_pos (cell_length _), bigEndian_cell (by omega), hv,
              Option.bind_some, if_pos h4]
            rfl
          · rw [if_neg hx, if_neg hx]
        · cases Option.some.inj (hcell.symm.trans hc)
          omega
    · rw [if_pos h4] at h
      exact absurd h (show ¬(-FDT_ERR_BADPHANDLE : Int) = 0 by decide)

/-- Phandles are not 0. -/
def NodeData.Proper (a : NodeData) : Prop := a.cell PHANDLE ≠ some 0 ∧ a.cell LINUX_PHANDLE ≠ some 0

/-- No phandle, or one above `delta`. -/
def NodeData.Above (delta : Nat) (a : NodeData) : Prop := a.phandle = 0 ∨ (delta < a.phandle ∧ a.phandle < 0xffffffff)

theorem NodeData.shift_above (hproper : a.Proper) (h : (a.shift delta).1 = 0) : (a.shift delta).2.Above delta := by
  unfold NodeData.shift at h ⊢
  dsimp only at h ⊢
  by_cases h1 : (a.shiftCell PHANDLE delta).1 = 0
  · rw [if_neg (not_not.mpr h1)] at h ⊢
    have hfirst := fun x => (NodeData.shiftCell_ok h1 x).1
    have hroom := (NodeData.shiftCell_ok h1 PHANDLE).2
    have hsecond := fun x => (NodeData.shiftCell_ok h x).1
    have hroom2 := (NodeData.shiftCell_ok h PHANDLE).2
    have hp := hsecond PHANDLE
    have hl := hsecond LINUX_PHANDLE
    rw [if_neg (by decide), hfirst, if_pos rfl] at hp
    rw [if_pos rfl, hfirst, if_neg (by decide)] at hl
    rw [hfirst, if_neg (by decide)] at hroom2
    unfold NodeData.Above NodeData.phandle
    rw [hp, hl]
    cases hcell : a.cell PHANDLE with
    | some v =>
      have hne : v ≠ 0 := fun h0 => hproper.1 (h0 ▸ hcell)
      have hlt := hroom v hcell
      exact Or.inr ⟨show delta < v + delta by omega, hlt⟩
    | none =>
      cases hlinux : a.cell LINUX_PHANDLE with
      | some v =>
        have hne : v ≠ 0 := fun h0 => hproper.2 (h0 ▸ hlinux)
        have hlt := hroom2 v hlinux
        exact Or.inr ⟨show delta < v + delta by omega, hlt⟩
      | none => exact Or.inl rfl
  · rw [if_pos h1] at h
    exact absurd h h1

theorem shiftUnder_ok {r : Int × NodeData} {subs : Forest NodeData} {below : Int × Forest NodeData}
    (h : (shiftUnder r subs below).1 = 0) : r.1 = 0 ∧ below.1 = 0 ∧ (shiftUnder r subs below).2 = (r.2, below.2) := by
  unfold shiftUnder at h ⊢
  by_cases hr : r.1 = 0
  · rw [if_neg (not_not.mpr hr)] at h ⊢
    exact ⟨hr, h, rfl⟩
  · rw [if_pos hr] at h
    exact absurd h hr

theorem shiftAll_above {t : Forest NodeData} (hproper : t.All NodeData.Proper) (h : (shiftAll delta t).1 = 0) :
    (shiftAll delta t).2.All (NodeData.Above delta) := by
  induction t with
  | nil => trivial
  | node a subs rest ihs ihr =>
    obtain ⟨ha, hsubs, hrest⟩ := hproper
    rw [shiftAll] at h ⊢
    by_cases hn : (shiftUnder (a.shift delta) subs (shiftAll delta subs)).1 = 0
    · rw [if_neg (not_not.mpr hn)] at h ⊢
      obtain ⟨h1, h2, hpair⟩ := shiftUnder_ok hn
      rw [hpair]
      exact ⟨NodeData.shift_above ha h1, ihs hsubs h2, ihr hrest h⟩
    · rw [if_pos hn] at h
      exact absurd h hn

end

theorem NodeAt.phandle {m : Mem} {p : Nat} {o : Int} {n : Place NodeData} (h : NodeAt m p o n) :
    getPhandle (blobAt m p) o = n.label.phandle := by
  obtain ⟨i, l, hlaid, rfl, rfl⟩ := h
  exact getPhandle_flat hlaid.lies

/-- The overlay's phandles are shifted above the largest of the base: then no node
of the base has the phandle of a node of the overlay. The base is left as it is. -/
theorem adjust_separates {m : Mem} {p q : Nat} {t ot : Forest NodeData} (h : Carries m p t)
    (hroot : (root t).isSome = true) (hq : Carries m q ot) {r : Place NodeData} (hr : root ot = some r)
    (hap : Apart q (totalsize (blobAt m q)) p (totalsize (blobAt m p))) :
    ∃ st m', findMaxPhandle (blobAt m p) = .ok (maxPhandle t) ∧ adjustLocalPhandles m q (maxPhandle t) = (st, m') ∧
      Within q m m' ∧ ReadsAs (blobAt m' p) t ∧ (shiftTree (maxPhandle t) ot).1 = st ∧
      ReadsAs (blobAt m' q) (shiftTree (maxPhandle t) ot).2 ∧
      (st = 0 → r.label.Proper → r.subs.All NodeData.Proper → ∀ path : Str, path.head? = some SLASH →
        0 ≤ pathOffset (blobAt m' q) path →
          getPhandle (blobAt m' q) (pathOffset (blobAt m' q) path) = 0 ∨
            nodeOffsetByPhandle (blobAt m' p) (getPhandle (blobAt m' q) (pathOffset (blobAt m' q) path)) =
              -FDT_ERR_NOTFOUND) := by
  obtain ⟨i, ft, hbase, rfl⟩ := h
  obtain ⟨io, fot, hover, rfl⟩ := hq
  cases fot with
  | nil => cases hr
  | node a subs rest =>
    cases hr
    rw [hover.holds.reads.total, hbase.holds.reads.total] at hap
    have hmax := findMaxPhandle_flat hbase.lies
    have hdelta := maxPhandle_lt (ft.map (FlatNode.data i.strs))
    generalize hd : maxPhandle (ft.map (FlatNode.data i.strs)) = delta at hmax hdelta ⊢
    obtain ⟨m', io', a', subs', hcode, hlaid, hdata, hin⟩ := adjustNode_laid (l := ⟨.top, a, subs, rest⟩) hover hdelta
      fun {m i} label hl => adjustLevel_laid (c := .down label rest .top) hdelta trivial hl
    obtain ⟨hlabel, hsubs⟩ := Prod.mk.inj hdata
    have hbase' : Laid m' p i ft := hbase.apart hin.kept hap
    have hcarries : Carries m' p (ft.map (FlatNode.data i.strs)) := ⟨i, ft, hbase', rfl⟩
    have htree : (Forest.node a' subs' rest).map (FlatNode.data io'.strs) =
        (shiftTree delta ((Forest.node a subs rest).map (FlatNode.data io.strs))).2 := by
      rw [hin.strs, Forest.map, hlabel, hsubs]
      rfl
    have hafter : Carries m' q (shiftTree delta ((Forest.node a subs rest).map (FlatNode.data io.strs))).2 :=
      ⟨io', _, hlaid, htree⟩
    refine ⟨_, m', hmax, hcode, hover.within hlaid hin.total hin.kept, hcarries.readsAs hroot, rfl,
      hafter.readsAs rfl, fun hst hproper hall path hslash hpos => ?_⟩
    obtain ⟨h1, h2, hpair⟩ := shiftUnder_ok hst
    have hfound := hafter.pathOffset hslash rfl
    cases hfind : find (shiftTree delta ((Forest.node a subs rest).map (FlatNode.data io.strs))).2 path with
    | none =>
      rw [hfind] at hfound
      rw [hfound] at hpos
      exact absurd hpos (by decide)
    | some n =>
      rw [hfind] at hfound
      have habove : n.label.Above delta := Place.walk_all (l := ⟨.top, _, _, _⟩)
        (hpair ▸ NodeData.shift_above hproper h1) (hpair ▸ shiftAll_above hall h2) hfind
      rw [hfound.phandle]
      refine habove.imp_right fun hrange => ?_
      obtain ⟨hlow, hhigh⟩ := hrange
      have hnone := hcarries.byPhandle (fun hbad : n.label.phandle = 0 ∨ n.label.phandle = 0xffffffff =>
        hbad.elim (fun h0 => absurd hlow (by omega)) fun hf => absurd hhigh (by omega))
      rw [withPhandle_above (hd.symm ▸ hlow)] at hnone
      exact hnone

/-- A root with a phandle. -/
def phandleTree (x : Nat) : Forest FlatNode := .node ⟨[], [0, 0, 0], [.prop 0 (cell x) []], 0⟩ .nil .nil

theorem phandleTree_ok (x : Nat) : (phandleTree x).All (FlatNode.Ok (PHANDLE ++ [0])) := by
  refine ⟨⟨List.not_mem_nil, (show Padded 1 3 by decide), fun i hi => ?_⟩, trivial, trivial⟩
  rw [List.mem_singleton.mp hi]
  exact ⟨(show Padded 4 0 by decide), by decide⟩

/-- A base with phandle 3, and an overlay with phandle 1. -/
def phandleMem : Mem :=
  store (memOf 0 (layout (phandleTree 3) (PHANDLE ++ [0]) 200).bytes) 200
    (layout (phandleTree 1) (PHANDLE ++ [0]) 200).bytes

theorem adjust_small : ∃ m', adjustLocalPhandles phandleMem 200 3 = (0, m') ∧
    ReadsAs (blobAt m' 200) (.node ⟨[], [(PHANDLE, cell 4)]⟩ .nil .nil) ∧
    (getPhandle (blobAt m' 200) (pathOffset (blobAt m' 200) [SLASH]) = 0 ∨
      nodeOffsetByPhandle (blobAt m' 0) (getPhandle (blobAt m' 200) (pathOffset (blobAt m' 200) [SLASH])) =
        -FDT_ERR_NOTFOUND) := by
  have hbase : Laid phandleMem 0 (layout (phandleTree 3) (PHANDLE ++ [0]) 200) (phandleTree 3) :=
    layout_laid ((at_memOf 0 _).store (Or.inl (by decide +kernel))) rfl (phandleTree_ok 3) (by decide) (by decide)
  have hover : Laid phandleMem 200 (layout (phandleTree 1) (PHANDLE ++ [0]) 200) (phandleTree 1) :=
    layout_laid (store_at _ 200 _) rfl (phandleTree_ok 1) (by decide) (by decide)
  obtain ⟨st, m', -, hcode, -, -, hst, hreads, hsep⟩ := adjust_separates
    (t := (phandleTree 3).map (FlatNode.data (PHANDLE ++ [0]))) ⟨_, _, hbase, rfl⟩ rfl ⟨_, _, hover, rfl⟩ rfl (by
      rw [hbase.holds.reads.total, hover.holds.reads.total]
      exact Or.inr (Nat.le_refl 200))
  have hthree : maxPhandle ((phandleTree 3).map (FlatNode.data (PHANDLE ++ [0]))) = 3 := by decide
  rw [hthree] at hcode hst hreads
  have htree : shiftTree 3 ((phandleTree 1).map (FlatNode.data (layout (phandleTree 1) (PHANDLE ++ [0]) 200).strs)) =
      (0, .node ⟨[], [(PHANDLE, cell 4)]⟩ .nil .nil) := by decide
  rw [htree] at hst hreads
  obtain rfl : 0 = st := hst
  have hroot := (hreads [SLASH] rfl).1
  exact ⟨m', hcode, hreads, hsep rfl ⟨by decide, by decide⟩ trivial [SLASH] rfl hroot⟩

end DTFramework.Fdt
