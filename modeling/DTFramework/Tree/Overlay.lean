import DTFramework.Fdt.FlatIterate
import DTFramework.Fdt.NodeAt
import DTFramework.Extn.Prop

/-!
# Merging overlays

`overlay_apply_node` merges a node of an overlay into a node of the base tree:
the properties first, then the subnodes, each into the one that answers to its
name or into a new one. On blobs that carry trees this is `Forest.merge`, or the
base has no room for it (`applyNode_laid`).

Results:

* `applyProperties_laid`: the properties are set one by one;
* `applyLevel_laid`, `applyNode_laid`: the nodes below, level by level;
* `applyNode_refines`: a merge of blobs is the merge of their trees, or has no room.
-/
namespace DTFramework.Fdt

open DTFramework.Lib

/-! ## The code -/

theorem firstSubnode_nodeRoom {f : Blob} {o : Int} (h : 0 ≤ firstSubnode f o) :
    nodeRoom (firstSubnode f o) < nodeRoom o := by
  unfold firstSubnode at h ⊢
  dsimp only at h ⊢
  split at h
  · exact absurd h (by decide)
  · rename_i hne
    rw [if_neg hne]
    exact nextNode_room h

theorem nextSubnode_nodeRoom {f : Blob} {o d : Int} (h : 0 ≤ nextSubnodeFrom f o d) :
    nodeRoom (nextSubnodeFrom f o d) < nodeRoom o := by
  fun_induction nextSubnodeFrom f o d with
  | case1 | case2 | case3 => exact absurd h (by decide)
  | case4 o d r hr e _ _ _ ih => exact Nat.lt_trans (ih h) (nextNode_room (Int.not_lt.mp hr))
  | case5 o d r hr => exact nextNode_room (Int.not_lt.mp hr)

/-- The `len` bytes of the value of the property at `offset`. -/
def propBytes (f : Blob) (offset len : Int) : Str := (List.range len.toNat).map fun i => f.rd (propValue f offset + i)

/-- The first loop of `overlay_apply_node`, at a property.
mirrors libs/libfdt/fdt_overlay.c:773-789 -/
def applyProperties (m : Mem) (fdt : Nat) (target : Int) (fdto : Nat) (property : Int) : Int × Mem :=
  if property < 0 then (0, m)
  else
    match getpropByOffset (blobAt m fdto) property with
    | .error prop_len => (if prop_len = -FDT_ERR_NOTFOUND then -FDT_ERR_INTERNAL else prop_len, m)
    | .ok (name, prop_len) =>
      if prop_len = -FDT_ERR_NOTFOUND then (-FDT_ERR_INTERNAL, m)
      else if prop_len < 0 then (prop_len, m)
      else
        let r := setprop m fdt target name (propBytes (blobAt m fdto) property prop_len)
        if r.1 ≠ 0 then r
        else if _h : nextPropertyOffset (blobAt r.2 fdto) property < 0 then (0, r.2)
        else applyProperties r.2 fdt target fdto (nextPropertyOffset (blobAt r.2 fdto) property)
termination_by room property
decreasing_by exact nextProperty_room (Int.not_lt.mp _h)

/-- The node that a subnode of the overlay is merged into, or an error. -/
def targetChild (m : Mem) (fdt : Nat) (target : Int) (name : Str) : Int × Mem :=
  let added := addSubnode m fdt target name
  if added.1 = -FDT_ERR_EXISTS then
    let nnode := subnodeOffset (blobAt added.2 fdt) target name
    (if nnode = -FDT_ERR_NOTFOUND then -FDT_ERR_INTERNAL else nnode, added.2)
  else added

mutual

/-- mirrors libs/libfdt/fdt_overlay.c:767-812 (`overlay_apply_node`) -/
def applyNode (m : Mem) (fdt : Nat) (target : Int) (fdto : Nat) (node : Int) : Except Extn.Fault (Int × Mem) :=
  let r := applyProperties m fdt target fdto (firstPropertyOffset (blobAt m fdto) node)
  if r.1 ≠ 0 then .ok r
  else if _h : firstSubnode (blobAt r.2 fdto) node < 0 then .ok (0, r.2)
  else applySubnodes r.2 fdt target fdto (firstSubnode (blobAt r.2 fdto) node)
termination_by (nodeRoom node, 0)
decreasing_by exact Prod.Lex.left _ _ (firstSubnode_nodeRoom (Int.not_lt.mp _h))

/-- The second loop of `overlay_apply_node`, at a subnode. Without a name there is
a null pointer to `strlen`.
mirrors libs/libfdt/fdt_overlay.c:791-809 -/
def applySubnodes (m : Mem) (fdt : Nat) (target : Int) (fdto : Nat) (subnode : Int) : Except Extn.Fault (Int × Mem) :=
  match getName (blobAt m fdto) subnode with
  | .error _ => .error .nullDeref
  | .ok name =>
    let nnode := targetChild m fdt target name
    if nnode.1 < 0 then .ok nnode
    else
      match applyNode nnode.2 fdt nnode.1 fdto subnode with
      | .error fault => .error fault
      | .ok r =>
        if r.1 ≠ 0 then .ok r
        else if _h : nextSubnode (blobAt r.2 fdto) subnode < 0 then .ok (0, r.2)
        else applySubnodes r.2 fdt target fdto (nextSubnode (blobAt r.2 fdto) subnode)
termination_by (nodeRoom subnode, 1)
decreasing_by
  · exact Prod.Lex.right _ Nat.zero_lt_one
  · exact Prod.Lex.left _ _ (nextSubnode_nodeRoom (Int.not_lt.mp _h))

end

/-! ## The merge -/

/-- A node joined with one of an overlay: it gets the properties, one by one. -/
def NodeData.join (a b : NodeData) : NodeData := b.props.foldl (fun a q => a.setprop q.1 q.2) a

/-- The nodes below a node of an overlay, merged with those below a node of the base. -/
def mergeTrees (t below : Forest NodeData) : Forest NodeData :=
  Forest.merge (fun b a => nameMatches a.name b.name) (fun b => ⟨b.name, []⟩) NodeData.join t below

/-- The bytes that the properties, and the nodes, of an overlay may take. -/
def propsNeed (props : List (Str × Str)) : Nat := (props.map fun q => propNeed q.1 q.2).sum

def mergeNeed : Forest NodeData → Nat
  | .nil => 0
  | .node a below rest => nodeNeed a.name + (propsNeed a.props + mergeNeed below) + mergeNeed rest

section
variable {m m' : Mem} {p q need : Nat} {i io : Image} {l : Place FlatNode} {ot : Forest FlatNode}

/-- A base and an overlay in one memory. -/
structure Pair (m : Mem) (p q : Nat) (i io : Image) (t ot : Forest FlatNode) : Prop where
  base : Laid m p i t
  overlay : Laid m q io ot
  apart : Apart p i.total q io.total

theorem Pair.next {t t' : Forest FlatNode} {i' : Image} (h : Pair m p q i io t ot) (h' : Laid m' p i' t')
    (hkept : Kept p i.total m m')
    (htotal : i'.total = i.total) : Pair m' p q i' io t' ot :=
  ⟨h', h.overlay.apart hkept h.apart, htotal ▸ h.apart⟩

/-- What a merge at a place ends with: the place has the label and the nodes below
it, or the base has no room for what the merge may take. -/
def Ends (m : Mem) (p : Nat) (i : Image) (l : Place FlatNode) (label : NodeData) (subs : Forest NodeData) (need : Nat)
    (r : Int × Mem) : Prop :=
  Kept p i.total m r.2 ∧
    ((r.1 = 0 ∧ ∃ i' l', Laid r.2 p i' (Place.forest l') ∧ Grows need i i' ∧ l'.ctx = l.ctx ∧ l'.rest = l.rest ∧
        l'.label.data i'.strs = label ∧ l'.subs.map (FlatNode.data i'.strs) = subs) ∨
      (r.1 = -FDT_ERR_NOSPACE ∧ i.total < i.size + need ∧ ∃ i' t, Laid r.2 p i' t ∧ i'.total = i.total))

theorem Ends.done (h : Laid m p i l.forest) : Ends m p i l (l.label.data i.strs) (l.subs.map (FlatNode.data i.strs)) 0
    (0, m) :=
  ⟨Kept.refl m, Or.inl ⟨rfl, i, l, h, Grows.refl i, rfl, rfl, rfl, rfl⟩⟩

theorem Ends.full {label : NodeData} {subs : Forest NodeData} {t : Forest FlatNode} {i' : Image}
    (hkept : Kept p i.total m m')
    (hroom : i.total < i.size + need) (h : Laid m' p i' t) (htotal : i'.total = i.total) :
    Ends m p i l label subs need (-FDT_ERR_NOSPACE, m') :=
  ⟨hkept, Or.inr ⟨rfl, hroom, i', t, h, htotal⟩⟩

/-- A merge that goes on from a place that another has led to. -/
theorem Ends.after {i' : Image} {l' : Place FlatNode} {label : NodeData} {subs : Forest NodeData} {n : Nat}
    {r : Int × Mem}
    (hkept : Kept p i.total m m') (hgrows : Grows n i i') (hctx : l'.ctx = l.ctx) (hrest : l'.rest = l.rest)
    (h : Ends m' p i' l' label subs need r) : Ends m p i l label subs (n + need) r := by
  obtain ⟨hkept', hr⟩ := h
  refine ⟨hkept.trans (hgrows.total ▸ hkept'), ?_⟩
  rcases hr with ⟨h0, i'', l'', hlaid, hgrows', hctx', hrest', hlabel, hsubs⟩ | ⟨hfull, hroom, i'', t, hlaid, htotal⟩
  · exact Or.inl ⟨h0, i'', l'', hlaid, hgrows.trans hgrows', hctx'.trans hctx, hrest'.trans hrest, hlabel, hsubs⟩
  · have hsize := hgrows.size
    rw [hgrows.total] at hroom
    exact Or.inr ⟨hfull, by omega, i'', t, hlaid, htotal.trans hgrows.total⟩

/-! ## Properties -/

theorem nameAt_ne (strs : Str) (k : Nat) : 0 ∉ nameAt strs k := by
  intro h
  have := List.mem_takeWhile_imp h
  simp at this

/-- The properties of a node of the overlay are set one by one. -/
theorem applyProperties_laid (h : Pair m p q i io l.forest ot) {items : List Item} {o : Nat}
    (hok : ∀ j ∈ items, j.Ok io.strs)
    (hstands : ∀ f, Lies f io.strs ot → Stands f o (itemBytes items) ∧ StopsItems f (o + (itemBytes items).length))
      (ho : o % 4 = 0) :
    Ends m p i l ((items.filterMap (Item.data io.strs)).foldl (fun a q => a.setprop q.1 q.2) (l.label.data i.strs))
      (l.subs.map (FlatNode.data i.strs)) (propsNeed (items.filterMap (Item.data io.strs)))
      (applyProperties m p (placeOffset l) q (nextprop (blobAt m q) o)) := by
  induction items generalizing m i l o with
  | nil =>
    have hlies := h.overlay.lies
    rw [nextprop_stops (o := o) (hstands _ hlies).2, applyProperties, if_pos (by decide)]
    exact Ends.done h.base
  | cons j items ih =>
    obtain ⟨hj, hitems⟩ := List.forall_mem_cons.mp hok
    have hlies := h.overlay.lies
    have hal := hj.aligned
    have hrest : ∀ f, Lies f io.strs ot → Stands f (o + j.bytes.length) (itemBytes items) ∧
        StopsItems f (o + j.bytes.length + (itemBytes items).length) := fun f hf => by
      obtain ⟨hs, hstop⟩ := hstands f hf
      rw [itemBytes_cons, Stands.append] at hs
      rw [itemBytes_cons, List.length_append, ← Nat.add_assoc] at hstop
      exact ⟨hs.2, hstop⟩
    have hjs : Stands (blobAt m q) o j.bytes := by
      have hs := (hstands _ hlies).1
      rw [itemBytes_cons, Stands.append] at hs
      exact hs.1
    cases j with
    | nop =>
      have htag := nextTag_plain hlies.fits (Or.inr (Or.inr rfl)) hjs.1 ho hjs.2
      rw [nextprop_nop (by rw [htag]), htag]
      exact ih h hitems hrest (by omega)
    | prop nameoff value pad =>
      obtain ⟨hget, hvalue, hnext⟩ := property_flat hlies.fits hlies.strings hj hjs ho
      have htagp : (nextTag (blobAt m q) o).1 = FDT_PROP := by rw [nextTag_prop hlies.fits hj hjs.1 ho hjs.2]
      -- the value and the name are inside the overlay
      have hbound := hjs.2
      rw [prop_length] at hbound
      have hname := hj.2
      unfold NameIn at hname
      have hpad := tagAlign_padded hj.1
      obtain ⟨hle, hstr, hsz, htot⟩ := h.overlay.holds.sizes
      rw [h.overlay.holds.reads.sizeStruct] at hbound
      have hset := setprop_laid h.base (nameAt io.strs nameoff) value (nameAt_ne _ _)
        (by simp only [INT_MAX]; omega) (by simp only [INT_MAX]; omega)
      have hbytes : propBytes (blobAt m q) o value.length = value := by
        unfold propBytes
        rw [Int.toNat_natCast]
        exact hvalue
      have hdata : Item.data io.strs (.prop nameoff value pad) = some (nameAt io.strs nameoff, value) := rfl
      rw [nextprop_prop htagp, List.filterMap_cons_some hdata, List.foldl_cons, applyProperties, if_neg (by omega),
        hget]
      simp only
      rw [if_neg (by simp only [FDT_ERR_NOTFOUND]; omega), if_neg (by omega), hbytes]
      have hneed : propsNeed ((nameAt io.strs nameoff, value) :: items.filterMap (Item.data io.strs)) =
          propNeed (nameAt io.strs nameoff) value + propsNeed (items.filterMap (Item.data io.strs)) := rfl
      rw [hneed]
      rcases hset with ⟨m1, i1, label, hcode, hlaid1, hlabel, hgrows, hkept⟩ | ⟨m1, hcode, hlaid1, hkept, hroom⟩
      · have h1 : Pair m1 p q i1 io (Place.forest { l with label := label }) ot := h.next hlaid1 hkept hgrows.total
        have hlies1 := h1.overlay.lies
        have hjs1 : Stands (blobAt m1 q) o (Item.prop nameoff value pad).bytes := by
          have hs := (hstands _ hlies1).1
          rw [itemBytes_cons, Stands.append] at hs
          exact hs.1
        obtain ⟨-, -, hnext1⟩ := property_flat hlies1.fits hlies1.strings hj hjs1 ho
        have hloop := ih h1 hitems hrest (by omega)
        have hsubs : l.subs.map (FlatNode.data i1.strs) = l.subs.map (FlatNode.data i.strs) :=
          hgrows.map (Ctx.all_plug.mp h.base.ok).2.2.1
        rw [hcode]
        simp only [ne_eq, not_true_eq_false, if_false, dite_eq_ite]
        have hstep : (if nextPropertyOffset (blobAt m1 q) o < 0 then (0, m1)
            else applyProperties m1 p (placeOffset l) q (nextPropertyOffset (blobAt m1 q) o)) =
              applyProperties m1 p (placeOffset l) q (nextPropertyOffset (blobAt m1 q) o) := by
          split
          · rename_i hneg
            rw [applyProperties, if_pos hneg]
          · rfl
        rw [hstep, hnext1, ← hlabel, ← hsubs]
        exact Ends.after hkept hgrows rfl rfl hloop
      · rw [hcode, if_pos (show (-FDT_ERR_NOSPACE : Int) ≠ 0 by decide)]
        exact Ends.full hkept (by omega) hlaid1 rfl

/-! ## Nodes -/

/-- The loop over subnodes, from the offset of the first. -/
def applyLevel (m : Mem) (fdt : Nat) (target : Int) (fdto : Nat) (subnode : Int) : Except Extn.Fault (Int × Mem) :=
  if subnode < 0 then .ok (0, m) else applySubnodes m fdt target fdto subnode

/-- A node is merged when the nodes below it are. -/
theorem applyNode_of_level {a : FlatNode} {subs : Forest FlatNode} {o : Nat} (h : Pair m p q i io l.forest ot)
    (hnode : ∀ f, Lies f io.strs ot → NodeStands f io.strs o a subs)
    (hlevel : ∀ {m i l}, Pair m p q i io (Place.forest l) ot → ∃ r, applyLevel m p (placeOffset l) q
      (firstOf subs (o + a.opens.length)) = .ok r ∧
      Ends m p i l (l.label.data i.strs) (mergeTrees (l.subs.map (FlatNode.data i.strs))
        (subs.map (FlatNode.data io.strs)))
        (mergeNeed (subs.map (FlatNode.data io.strs))) r) :
    ∃ r, applyNode m p (placeOffset l) q o = .ok r ∧ Ends m p i l ((l.label.data i.strs).join (a.data io.strs))
      (mergeTrees (l.subs.map (FlatNode.data i.strs)) (subs.map (FlatNode.data io.strs)))
      (propsNeed (a.data io.strs).props + mergeNeed (subs.map (FlatNode.data io.strs))) r := by
  have hlies := h.overlay.lies
  have hn := hnode _ hlies
  have hal := hn.ok.header_aligned
  have haligned := hn.aligned
  have hfirst : firstPropertyOffset (blobAt m q) o = nextprop (blobAt m q) ((o + a.header.length : Nat) : Int) := by
    unfold firstPropertyOffset
    rw [checkNodeOffset_flat hlies.fits hn.ok hn.header haligned, if_neg (by omega)]
  have hprops := applyProperties_laid h hn.ok.items (fun f hf => ⟨(hnode f hf).items, (hnode f hf).stopsItems hf.fits⟩)
    (o := o + a.header.length) (by omega)
  rw [applyNode, hfirst]
  generalize applyProperties m p (placeOffset l) q (nextprop (blobAt m q) ((o + a.header.length : Nat) : Int)) =
    r at hprops ⊢
  obtain ⟨st, m1⟩ := r
  obtain ⟨hkept, ⟨h0, i1, l1, hlaid, hgrows, hctx, hrest, hlabel, hsubs⟩ | ⟨hfull, hroom, i1, t, hlaid, htotal⟩⟩ :=
    hprops
  · cases h0
    have h1 : Pair m1 p q i1 io (Place.forest l1) ot := h.next hlaid hkept hgrows.total
    have hsub := firstSubnode_flat h1.overlay.lies.fits (hnode _ h1.overlay.lies)
    have hoff : placeOffset l1 = placeOffset l := by
      unfold placeOffset
      rw [hctx]
    obtain ⟨r, hcode, hends⟩ := hlevel h1
    rw [hlabel, hsubs] at hends
    rw [hoff] at hcode
    refine ⟨r, ?_, hends.after hkept hgrows hctx hrest⟩
    simp only [ne_eq, dite_eq_ite, hsub]
    exact hcode
  · cases hfull
    have hprops : propsNeed (a.items.filterMap (Item.data io.strs)) = propsNeed (a.data io.strs).props := rfl
    exact ⟨_, if_pos (show (-FDT_ERR_NOSPACE : Int) ≠ 0 by decide), Ends.full hkept (by omega) hlaid htotal⟩

/-- A node below a place, changed where it is, changes what is below the place. -/
theorem child_changed {fits : FlatNode → Bool} {lc l' : Place FlatNode} (h : l.child fits = some lc)
    (hctx : l'.ctx = lc.ctx)
    (hrest : l'.rest = lc.rest) :
    ∃ t', l'.forest = Place.forest { l with subs := t' } ∧ l.subs.update fits (fun _ _ => (l'.label, l'.subs)) =
      some t' := by
  obtain ⟨t', -, hplug, hconst⟩ := Place.firstSuch_update (fun _ _ => (l'.label, l'.subs)) h
  refine ⟨t', ?_, hconst⟩
  have hforest : l'.forest = lc.put l'.label l'.subs := by
    unfold Place.forest Place.put
    rw [hctx, hrest]
  exact hforest.trans hplug.symm

/-- What is below the place then says is what the merge says. -/
theorem update_merged {i' : Image} {a : NodeData} {below : Forest NodeData} {name : Str} {lc l' : Place FlatNode}
    {t' : Forest FlatNode}
    (hchild : l.child (answers name) = some lc) (hname : a.name = name)
    (hconst : l.subs.update (answers name) (fun _ _ => (l'.label, l'.subs)) = some t') (hgrows : Grows need i i')
    (hok : l.subs.All (FlatNode.Ok i.strs)) (hlabel : l'.label.data i'.strs = (lc.label.data i.strs).join a)
    (hsubs : l'.subs.map (FlatNode.data i'.strs) = mergeTrees (lc.subs.map (FlatNode.data i.strs)) below) :
    (l.subs.map (FlatNode.data i.strs)).update (fun b => nameMatches b.name a.name)
      (fun b subs => (b.join a, mergeTrees subs below)) =
      some (t'.map (FlatNode.data i'.strs)) := by
  subst hname
  have hfound : Place.firstSuch (fun b : NodeData => nameMatches b.name a.name)
    ((Ctx.down l.label l.rest l.ctx).map (FlatNode.data i.strs))
      (l.subs.map (FlatNode.data i.strs)) = some (lc.map (FlatNode.data i.strs)) := by
    rw [Place.firstSuch_map]
    exact congrArg (Option.map _) hchild
  obtain ⟨t'', hupdate, -, hsame⟩ := Place.firstSuch_update
    (fun b subs => (NodeData.join b a, mergeTrees subs below)) hfound
  have hmap := Forest.update_map (FlatNode.data i'.strs)
    (fun b : NodeData => nameMatches b.name a.name) l'.label l'.subs l.subs
  rw [hgrows.map hok, hlabel, hsubs] at hmap
  rw [hupdate, ← hsame]
  exact hmap.trans (congrArg (Option.map _) hconst)

/-- The nodes below a node of the overlay are merged into those below a place. -/
theorem applyLevel_laid {t : Forest FlatNode} {o : Nat} {b : FlatNode} (h : Pair m p q i io l.forest ot)
    (hlevel : ∀ f, Lies f io.strs ot → LevelStands f io.strs o t b) :
    ∃ r, applyLevel m p (placeOffset l) q (firstOf t o) = .ok r ∧
      Ends m p i l (l.label.data i.strs) (mergeTrees (l.subs.map (FlatNode.data i.strs))
        (t.map (FlatNode.data io.strs)))
        (mergeNeed (t.map (FlatNode.data io.strs))) r := by
  induction t generalizing m i l o b with
  | nil => exact ⟨(0, m), if_pos (show (-FDT_ERR_NOTFOUND : Int) < 0 by decide), Ends.done h.base⟩
  | node a subs rest ihs ihr =>
    have hnode : ∀ f, Lies f io.strs ot → NodeStands f io.strs o a subs := fun f hf => (hlevel f hf).node.1
    have hrest : ∀ f, Lies f io.strs ot → LevelStands f io.strs (o + span a subs) rest b :=
      fun f hf => (hlevel f hf).node.2
    have happly {m : Mem} {i : Image} {l : Place FlatNode} (hpair : Pair m p q i io l.forest ot) :=
      applyNode_of_level hpair hnode fun h2 => ihs h2 fun f hf => (hnode f hf).level
    have hlies := h.overlay.lies
    have hn := hnode _ hlies
    have hname := getName_flat hlies.fits hlies.strings hn.ok hn.header hn.aligned
    have hneed : nodeNeed a.name ≤ INT_MAX := by
      have hpad := tagAlign_padded hn.ok.pad
      have hbound := hn.closes.2
      obtain ⟨hle, hstr, hsz, htot⟩ := h.overlay.holds.sizes
      rw [h.overlay.holds.reads.sizeStruct, closes_length, opens_length, header_length] at hbound
      unfold nodeNeed
      simp only [INT_MAX]
      omega
    -- the rest of the level, from a place whose subnodes are merged so far
    have hcont {m' : Mem} {i' : Image} {t' : Forest FlatNode} {n : Nat}
      (hlaid : Laid m' p i' (Place.forest { l with subs := t' }))
        (hkept : Kept p i.total m m') (hgrows : Grows n i i') :
        ∃ r, (if nextSubnode (blobAt m' q) o < 0 then .ok (0, m') else applySubnodes m' p (placeOffset l) q
          (nextSubnode (blobAt m' q) o)) =
            Except.ok r ∧ Ends m p i l (l.label.data i.strs)
              (mergeTrees (t'.map (FlatNode.data i'.strs)) (rest.map (FlatNode.data io.strs)))
              (n + mergeNeed (rest.map (FlatNode.data io.strs))) r := by
      have h' := h.next hlaid hkept hgrows.total
      obtain ⟨r, hcode, hends⟩ := ihr h' hrest
      have hlabel : l.label.data i'.strs = l.label.data i.strs := by
        obtain ⟨x, hx⟩ := hgrows.strs
        rw [hx]
        exact ((Ctx.all_plug.mp h.base.ok).2.1.grow x).2
      rw [nextSubnode_flat h'.overlay.lies.fits (hlevel _ h'.overlay.lies)]
      rw [← hlabel]
      exact ⟨r, hcode, Ends.after (l := l) hkept hgrows rfl rfl hends⟩
    have htotalNeed : mergeNeed ((Forest.node a subs rest).map (FlatNode.data io.strs)) = nodeNeed a.name +
        (propsNeed (a.data io.strs).props + mergeNeed (subs.map (FlatNode.data io.strs))) + mergeNeed
          (rest.map (FlatNode.data io.strs)) := rfl
    have hadd := addSubnode_laid h.base hn.ok.name hneed
    have hfirst : applyLevel m p (placeOffset l) q (firstOf (.node a subs rest) o) = applySubnodes m p
      (placeOffset l) q o :=
      if_neg (Int.not_lt.mpr (Int.natCast_nonneg o))
    rw [hfirst, applySubnodes, hname]
    simp only [dite_eq_ite]
    cases hchild : l.child (answers a.name) with
    | some lc =>
      rw [hchild] at hadd
      obtain ⟨m1, hcode, hlaid, hkept⟩ := hadd
      have htarget : targetChild m p (placeOffset l) a.name = ((placeOffset lc : Int), m1) := by
        have hfound := subnodeOffset_flat hlaid.lies a.name
        rw [hchild] at hfound
        unfold targetChild
        rw [hcode]
        simp only [if_true, hfound]
        rw [if_neg (by simp only [FDT_ERR_NOTFOUND]; omega)]
      have h1 : Pair m1 p q i.probed io (Place.forest lc) ot :=
        h.next (by rw [Place.child_forest hchild]; exact hlaid) hkept rfl
      obtain ⟨⟨st, m2⟩, hnodecode, hkept2, hends⟩ := happly h1
      rw [htarget]
      simp only [hnodecode]
      rw [if_neg (by omega)]
      have hprobed : i.probed.size = i.size ∧ i.probed.total = i.total := ⟨rfl, rfl⟩
      rcases hends with ⟨h0, i2, l2, hlaid2, hgrows2, hctx2, hrest2, hlabel2, hsubs2⟩ |
        ⟨hfull, hroom, i2, t2, hlaid2, htotal2⟩
      · simp only at h0
        subst h0
        obtain ⟨t', hforest, hconst⟩ := child_changed hchild hctx2 hrest2
        have hgrows : Grows (nodeNeed a.name + (propsNeed (a.data io.strs).props + mergeNeed
          (subs.map (FlatNode.data io.strs)))) i i2 :=
          ⟨hgrows2.total, Nat.le_trans hgrows2.size (by omega), hgrows2.strs⟩
        have hupdate := update_merged (a := a.data io.strs) hchild rfl hconst hgrows
          (Ctx.all_plug.mp h.base.ok).2.2.1 hlabel2 hsubs2
        obtain ⟨r, hcont1, hcont2⟩ := hcont (hforest ▸ hlaid2) (hkept.trans hkept2) hgrows
        rw [if_neg (not_not.mpr rfl)]
        refine ⟨r, hcont1, ?_⟩
        unfold mergeTrees at hcont2 hupdate ⊢
        rw [Forest.map, Forest.merge, hupdate]
        exact hcont2
      · simp only at hfull
        subst hfull
        exact ⟨_, if_pos (show (-FDT_ERR_NOSPACE : Int) ≠ 0 by decide), Ends.full (hkept.trans hkept2)
          (by omega) hlaid2 htotal2⟩
    | none =>
      rw [hchild] at hadd
      have hnone : (l.subs.map (FlatNode.data i.strs)).update (fun b => nameMatches b.name (a.data io.strs).name)
          (fun b below => (b.join (a.data io.strs), mergeTrees below (subs.map (FlatNode.data io.strs)))) = none := by
        refine Place.firstSuch_none (c := (Ctx.down l.label l.rest l.ctx).map (FlatNode.data i.strs)) _ ?_
        rw [Place.firstSuch_map]
        exact congrArg (Option.map _) hchild
      rcases hadd with ⟨m1, i1, hcode, hlaid, hstrs, hgrows1, hkept⟩ | ⟨m1, hcode, hlaid, hkept, hroom⟩
      · have htarget : targetChild m p (placeOffset l) a.name =
          ((placeOffset (newChild l (emptyNode a.name)) : Int), m1) := by
          unfold targetChild
          rw [hcode]
          simp only
          rw [if_neg (by simp only [FDT_ERR_EXISTS]; omega)]
        have h1 : Pair m1 p q i1 io (newChild l (emptyNode a.name)).forest ot := h.next hlaid hkept hgrows1.total
        have htotal := hgrows1.total
        have hsize1 := hgrows1.size
        obtain ⟨⟨st, m2⟩, hnodecode, hkept2, hends⟩ := happly h1
        rw [htotal] at hkept2
        rw [htarget]
        simp only [hnodecode]
        rw [if_neg (by omega)]
        rcases hends with ⟨h0, i2, l2, hlaid2, hgrows2, hctx2, hrest2, hlabel2, hsubs2⟩ |
          ⟨hfull, hroom, i2, t2, hlaid2, htotal2⟩
        · simp only at h0
          subst h0
          have hgrows := hgrows1.trans hgrows2
          have hforest : l2.forest = Place.forest { l with subs := .node l2.label l2.subs l.subs } := by
            unfold Place.forest
            rw [hctx2, hrest2]
            rfl
          obtain ⟨r, hcont1, hcont2⟩ := hcont (hforest ▸ hlaid2) (hkept.trans hkept2) hgrows
          rw [if_neg (not_not.mpr rfl)]
          refine ⟨r, hcont1, ?_⟩
          have hsubs := hgrows.map (Ctx.all_plug.mp h.base.ok).2.2.1
          rw [Forest.map, hlabel2, hsubs2, hsubs] at hcont2
          unfold mergeTrees at hcont2 hnone ⊢
          rw [Forest.map, Forest.merge, hnone]
          exact hcont2
        · simp only at hfull
          subst hfull
          exact ⟨_, if_pos (show (-FDT_ERR_NOSPACE : Int) ≠ 0 by decide), 
            Ends.full (hkept.trans hkept2) (by omega) hlaid2 (htotal2.trans htotal)⟩
      · have htarget : targetChild m p (placeOffset l) a.name = (-FDT_ERR_NOSPACE, m1) := by
          unfold targetChild
          rw [hcode]
          exact if_neg (show ¬(-FDT_ERR_NOSPACE : Int) = -FDT_ERR_EXISTS by decide)
        rw [htarget]
        exact ⟨_, if_pos (show (-FDT_ERR_NOSPACE : Int) < 0 by decide), Ends.full hkept (by omega) hlaid rfl⟩

theorem applyNode_laid {lo : Place FlatNode} (h : Pair m p q i io l.forest lo.forest) :
    ∃ r, applyNode m p (placeOffset l) q (placeOffset lo) = .ok r ∧ Ends m p i l
      ((l.label.data i.strs).join (lo.label.data io.strs))
      (mergeTrees (l.subs.map (FlatNode.data i.strs)) (lo.subs.map (FlatNode.data io.strs)))
      (propsNeed (lo.label.data io.strs).props + mergeNeed (lo.subs.map (FlatNode.data io.strs))) r :=
  applyNode_of_level h (fun _ hf => hf.here) fun h2 => applyLevel_laid h2 fun _ hf => hf.here.level

/-! ## Trees -/

theorem NodeAt.applyNode {o oq : Int} {n nq : Place NodeData} (h : NodeAt m p o n) (hq : NodeAt m q oq nq)
    (hap : Apart p (totalsize (blobAt m p)) q (totalsize (blobAt m q))) :
    ∃ st m', applyNode m p o q oq = .ok (st, m') ∧ Within p m m' ∧ NodeAt m' q oq nq ∧
      ((st = 0 ∧ NodeAt m' p o { n with label := n.label.join nq.label, subs := mergeTrees n.subs nq.subs } ∧
          dataSize (blobAt m' p) ≤ dataSize (blobAt m p) + (propsNeed nq.label.props + mergeNeed nq.subs)) ∨
        (st = -FDT_ERR_NOSPACE ∧ totalsize (blobAt m p) < dataSize (blobAt m p) +
          (propsNeed nq.label.props + mergeNeed nq.subs) ∧
          ∃ t, Carries m' p t)) := by
  obtain ⟨i, l, hlaid, rfl, rfl⟩ := h
  obtain ⟨io, lo, hlo, rfl, rfl⟩ := hq
  rw [hlaid.holds.reads.total, hlo.holds.reads.total] at hap
  obtain ⟨⟨st, m'⟩, hcode, hkept, hends⟩ := applyNode_laid ⟨hlaid, hlo, hap⟩
  refine ⟨st, m', hcode, ?_⟩
  have hover : NodeAt m' q (placeOffset lo) (lo.map (FlatNode.data io.strs)) := ⟨io, lo, hlo.apart hkept hap, rfl, rfl⟩
  rcases hends with ⟨h0, i', l', hlaid', hgrows, hctx, hrest, hlabel, hsubs⟩ | ⟨hfull, hroom, i', t, hlaid', htotal⟩
  · refine ⟨hlaid.within hlaid' hgrows.total hkept, hover, Or.inl ⟨h0, ⟨i', l', hlaid', ?_, ?_⟩, ?_⟩⟩
    · unfold placeOffset
      rw [hctx]
    · obtain ⟨hok, -, -, hokr⟩ := Ctx.all_plug.mp hlaid.ok
      obtain ⟨x, hx⟩ := hgrows.strs
      have hctxmap : l.ctx.map (FlatNode.data i'.strs) = l.ctx.map (FlatNode.data i.strs) := by
        rw [hx]
        exact Ctx.map_congr (hok.mono fun a ha => (ha.grow x).2)
      unfold Place.map
      rw [hctx, hrest, hlabel, hsubs, hctxmap, hgrows.map hokr]
    · rw [hlaid'.holds.dataSize, hlaid.holds.dataSize]
      exact hgrows.size
  · rw [← hlaid.holds.reads.total, ← hlaid.holds.dataSize] at hroom
    exact ⟨hlaid.within hlaid' htotal hkept, hover, Or.inr ⟨hfull, hroom, _, i', t, hlaid', rfl⟩⟩

/-- `overlay_apply_node` is the merge of trees, or the base has no room; the overlay
stays as it is. -/
theorem applyNode_refines {o oq : Int} {n nq : Place NodeData} (h : NodeAt m p o n) (hq : NodeAt m q oq nq)
    (hap : Apart p (totalsize (blobAt m p)) q (totalsize (blobAt m q))) :
    ∃ st m', applyNode m p o q oq = .ok (st, m') ∧ Within p m m' ∧ NodeAt m' q oq nq ∧
      ((st = 0 ∧ NodeAt m' p o { n with label := n.label.join nq.label, subs := mergeTrees n.subs nq.subs }) ∨
        (st = -FDT_ERR_NOSPACE ∧ totalsize (blobAt m p) < dataSize (blobAt m p) +
          (propsNeed nq.label.props + mergeNeed nq.subs) ∧
          ∃ t, Carries m' p t)) := by
  obtain ⟨st, m', hcode, hwithin, hover, ⟨h0, hnode, -⟩ | hfull⟩ := h.applyNode hq hap
  · exact ⟨st, m', hcode, hwithin, hover, Or.inl ⟨h0, hnode⟩⟩
  · exact ⟨st, m', hcode, hwithin, hover, Or.inr hfull⟩

end

/-- An overlay for the small tree: `reg` and a new subnode for `cpu`. -/
def smallOverlay : Forest FlatNode :=
  .node ⟨[], [0, 0, 0], [], 0⟩ (.node ⟨[99, 112, 117], [], [.prop 0 [5] [0, 0, 0]], 0⟩
    (.node ⟨[120], [0, 0], [], 0⟩ .nil .nil) .nil) .nil

theorem smallOverlay_ok : smallOverlay.All (FlatNode.Ok [114, 101, 103, 0]) := by
  refine ⟨⟨by decide, by decide, fun _ hi => absurd hi List.not_mem_nil⟩, ⟨⟨by decide, by decide, ?_⟩,
    ⟨⟨by decide, by decide, fun _ hi => absurd hi List.not_mem_nil⟩, trivial, trivial⟩, trivial⟩, trivial⟩
  intro i hi
  rw [List.mem_singleton.mp hi]
  exact ⟨by decide, by decide⟩

def smallPair : Mem := store smallMem 400 (layout smallOverlay [114, 101, 103, 0] 200).bytes

theorem applyNode_small : ∃ m', applyNode smallPair 0 0 400 0 = .ok (0, m') ∧
    NodeAt m' 0 0 ⟨.top, ⟨[], [([114, 101, 103], [1])]⟩,
      .node ⟨[99, 112, 117, 64, 48], [([114, 101, 103], [5])]⟩ (.node ⟨[120], []⟩ .nil .nil) .nil, .nil⟩ := by
  have hbase : Laid smallPair 0 smallImage smallTree :=
    layout_laid ((at_memOf 0 smallImage.bytes).store (Or.inl (by decide +kernel))) rfl smallTree_ok (by decide)
      (by decide)
  have hover : Laid smallPair 400 (layout smallOverlay [114, 101, 103, 0] 200) smallOverlay :=
    layout_laid (store_at smallMem 400 _) rfl smallOverlay_ok (by decide) (by decide)
  have hn : NodeAt smallPair 0 0 ⟨.top, ⟨[], [([114, 101, 103], [1])]⟩,
    .node ⟨[99, 112, 117, 64, 48], [([114, 101, 103], [0, 0, 0, 7])]⟩
      .nil .nil, .nil⟩ :=
    ⟨smallImage, ⟨.top, ⟨[], [0, 0, 0], [.prop 0 [1] [0, 0, 0], .nop], 0⟩, .node ⟨[99, 112, 117, 64, 48], [0, 0],
      [.prop 0 [0, 0, 0, 7] []], 1⟩ .nil .nil, .nil⟩, hbase, rfl, rfl⟩
  have hq : NodeAt smallPair 400 0 ⟨.top, ⟨[], []⟩, .node ⟨[99, 112, 117], [([114, 101, 103], [5])]⟩
    (.node ⟨[120], []⟩ .nil .nil)
      .nil, .nil⟩ :=
    ⟨_, ⟨.top, ⟨[], [0, 0, 0], [], 0⟩, .node ⟨[99, 112, 117], [], [.prop 0 [5] [0, 0, 0]], 0⟩
      (.node ⟨[120], [0, 0], [], 0⟩ .nil .nil)
      .nil, .nil⟩, hover, rfl, rfl⟩
  obtain ⟨st, m', hcode, -, -, ⟨rfl, hnode⟩ | ⟨rfl, hroom, -⟩⟩ := applyNode_refines hn hq
    (by rw [hbase.holds.reads.total, hover.holds.reads.total]; exact Or.inl (Nat.le_refl 400))
  · exact ⟨m', hcode, hnode⟩
  · rw [hbase.holds.reads.total, hbase.holds.dataSize] at hroom
    exact absurd hroom (by decide)

end DTFramework.Fdt
