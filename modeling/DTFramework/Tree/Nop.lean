import DTFramework.Extn.Prop
import DTFramework.Tree.Remove

/-!
# Nodes that become gaps

`fdt_nop_node` writes gaps over a node. The tree loses the node, as with
`fdt_del_node`, but nothing moves: every other node keeps its offset
(`nopNode_keeps`).

Results:

* `left_standing`, `relabel_standing`: the nodes that stay keep their offsets;
* `Standing.next`: `fdt_next_node` goes through the nodes as they stand;
* `nopNode_keeps`, `nopProperty_keeps`: what is taken out, and what is kept.
-/
namespace DTFramework.Fdt

open DTFramework.Lib

/-- mirrors libs/libfdt/fdt_wip.c:51-57 (`fdt_nop_region_`), at `start` of the blob -/
def nopRegion (m : Mem) (p start len : Nat) : Mem :=
  if _h : 0 < len then nopRegion (setCell m p start FDT_NOP) p (start + 4) (len - 4) else m
termination_by len

/-- mirrors libs/libfdt/fdt_wip.c:59-71 -/
def nopProperty (m : Mem) (p : Nat) (nodeoffset : Int) (name : Str) : Int × Mem :=
  match getProperty (blobAt m p) nodeoffset name with
  | .error len => (len, m)
  | .ok (data, len) => (0, nopRegion m p (data - 12) (len.toNat + 12))

/-- mirrors libs/libfdt/fdt_wip.c:83-94 -/
def nopNode (m : Mem) (p : Nat) (nodeoffset : Int) : Except Extn.Fault (Int × Mem) :=
  let endoffset := nodeEndOffset (blobAt m p) nodeoffset
  if endoffset < 0 then .ok (endoffset, m)
  else
    match offsetPtr (blobAt m p) nodeoffset 0 with
    | none => .error .outOfBounds
    | some start => .ok (0, nopRegion m p start (endoffset - nodeoffset).toNat)

/-! ## The region -/

theorem nopRegion_store (m : Mem) (p start len : Nat) :
    nopRegion m p start len = store m (p + start) (nops ((len + 3) / 4)) := by
  fun_induction nopRegion m p start len with
  | case1 m start len hlen ih =>
    have hone : nops ((len + 3) / 4) = cell FDT_NOP ++ nops ((len - 4 + 3) / 4) := by
      rw [show (len + 3) / 4 = 1 + (len - 4 + 3) / 4 by omega, nops_add]
      rfl
    rw [ih, hone, store_append, cell_length, Nat.add_assoc]
    rfl
  | case2 m start len hlen =>
    rw [show (len + 3) / 4 = 0 by omega]
    exact (store_nil m _).symm

/-! ## The offsets -/

/-- A node at its offset. -/
def standing (strs : Str) (l : Place FlatNode) : Nat × NodeData := (placeOffset l, l.label.data strs)

section
variable {strs : Str}

/-- The bytes before the hole. -/
def gone (c : Ctx FlatNode) : Nat := (c.before FlatNode.opens FlatNode.closes).length

theorem gone_down (a : FlatNode) (rest : Forest FlatNode) (c : Ctx FlatNode) :
    gone (.down a rest c) = gone c + a.opens.length := by
  unfold gone
  rw [Ctx.before, List.length_append]

theorem gone_next (a : FlatNode) (subs : Forest FlatNode) (c : Ctx FlatNode) :
    gone (.next a subs c) = gone c + (a.opens.length + (flat subs).length + a.closes.length) := by
  unfold gone
  rw [Ctx.before, List.length_append, List.length_append, List.length_append]
  rfl

/-- Where the nodes of a forest stand depends on what is before it alone. -/
theorem places_standing (strs : Str) (c c' : Ctx FlatNode) (t : Forest FlatNode) (h : gone c = gone c') :
    (Place.places c t).map (standing strs) = (Place.places c' t).map (standing strs) := by
  induction t generalizing c c' with
  | nil => rfl
  | node a subs rest ihs ihr =>
    have hhere : standing strs ⟨c, a, subs, rest⟩ = standing strs ⟨c', a, subs, rest⟩ := Prod.ext h rfl
    have hsubs := ihs (.down a rest c) (.down a rest c') (by rw [gone_down, gone_down, h])
    have hrest := ihr (.next a subs c) (.next a subs c') (by rw [gone_next, gone_next, h])
    rw [Place.places, Place.places, List.map_cons, List.map_cons, List.map_append, List.map_append, hhere, hsubs,
      hrest]

/-- Where the nodes before a hole stand does not depend on what is in it. -/
theorem earlier_standing (strs : Str) (c : Ctx FlatNode) (t t' : Forest FlatNode) :
    (Place.earlier c t).map (standing strs) = (Place.earlier c t').map (standing strs) := by
  induction c generalizing t t' with
  | top => rfl
  | down a rest c ih =>
    rw [Place.earlier, Place.earlier, List.map_append, List.map_append, ih _ (.node a t' rest)]
    rfl
  | next a subs c ih =>
    have hsubs := places_standing strs (.down a t c) (.down a t' c) subs (by rw [gone_down, gone_down])
    rw [Place.earlier, Place.earlier, List.map_append, List.map_append, List.map_cons, List.map_cons,
      ih _ (.node a subs t'), hsubs]
    rfl

/-- Where the nodes after a hole stand depends on the length of what is in it. -/
theorem above_standing (strs : Str) (c : Ctx FlatNode) (t t' : Forest FlatNode)
    (h : (flat t).length = (flat t').length) :
    (Place.above c t).map (standing strs) = (Place.above c t').map (standing strs) := by
  induction c generalizing t t' with
  | top => rfl
  | down a rest c ih =>
    have hrest := places_standing strs (.next a t c) (.next a t' c) rest (by rw [gone_next, gone_next, h])
    have habove := ih (.node a t rest) (.node a t' rest) (by rw [flat_node_length, flat_node_length, h])
    rw [Place.above, Place.above, List.map_append, List.map_append, hrest, habove]
  | next a subs c ih =>
    exact ih _ _ (by rw [flat_node_length, flat_node_length, h])

theorem earlier_left {c : Ctx FlatNode} (k : Nat) (t t' : Forest FlatNode) :
    (Place.earlier (leaveGaps k c) t).map (standing strs) = (Place.earlier c t').map (standing strs) := by
  cases c with
  | top => rfl
  | down b rest c =>
    have hdown : standing strs ⟨c, { b with items := b.items ++ List.replicate k .nop }, t, rest⟩ =
        standing strs ⟨c, b, t', rest⟩ := Prod.ext rfl (data_gaps strs b k)
    rw [leaveGaps, Place.earlier, Place.earlier, List.map_append, List.map_append, List.map_singleton,
      List.map_singleton,
      earlier_standing strs c _ (.node b t' rest), hdown]
  | next b subs c =>
    have hnext : standing strs ⟨c, { b with after := b.after + k }, subs, t⟩ = standing strs ⟨c, b, subs, t'⟩ := rfl
    have hsubs := places_standing strs (.down { b with after := b.after + k } t c) (.down b t' c) subs
      (by rw [gone_down, gone_down]; rfl)
    rw [leaveGaps, Place.earlier, Place.earlier, List.map_append, List.map_append, List.map_cons, List.map_cons,
      earlier_standing strs c _ (.node b subs t'), hnext, hsubs]

theorem above_left {c : Ctx FlatNode} (hc : c ≠ .top) {k : Nat} {t t' : Forest FlatNode}
    (h : (flat t).length = 4 * k + (flat t').length) :
    (Place.above (leaveGaps k c) t').map (standing strs) = (Place.above c t).map (standing strs) := by
  cases c with
  | top => exact absurd rfl hc
  | down b rest c =>
    obtain ⟨b', hb'⟩ : ∃ b' : FlatNode, b' = { b with items := b.items ++ List.replicate k .nop } := ⟨_, rfl⟩
    have hopens : b'.opens.length = b.opens.length + 4 * k := by
      rw [hb', opens_gaps, List.length_append, nops_length]
    have hcloses : b'.closes = b.closes := by
      rw [hb']
      rfl
    have hrest := places_standing strs (.next b' t' c) (.next b t c) rest (by
      rw [gone_next, gone_next, hopens, hcloses]
      omega)
    have habove := above_standing strs c (.node b' t' rest) (.node b t rest) (by
      rw [flat_node_length, flat_node_length, hopens, hcloses]
      omega)
    rw [leaveGaps, ← hb', Place.above, Place.above, List.map_append, List.map_append, hrest, habove]
  | next b subs c =>
    have hcloses : ({ b with after := b.after + k } : FlatNode).closes = b.closes ++ nops k := by
      unfold FlatNode.closes
      rw [nops_add, List.append_assoc]
    refine above_standing strs c _ _ ?_
    rw [flat_node_length, flat_node_length, hcloses, List.length_append, nops_length]
    change b.opens.length + _ + _ + _ = _
    omega

/-- Gaps in the place of a node leave the other nodes where they are. -/
theorem left_standing {l : Place FlatNode} (hc : l.ctx ≠ .top) {k : Nat}
    (hk : 4 * k = l.label.opens.length + (flat l.subs).length + l.label.closes.length) :
    (Place.places .top ((leaveGaps k l.ctx).plug l.rest)).map (standing strs) =
      (Place.earlier l.ctx .nil).map (standing strs) ++ (Place.above (.down l.label l.rest l.ctx) l.subs).map
        (standing strs) := by
  have hgone : gone (leaveGaps k l.ctx) = gone (.next l.label l.subs l.ctx) := by
    have hbefore := congrArg List.length (leaveGaps_before hc k)
    rw [List.length_append, nops_length] at hbefore
    rw [gone_next]
    unfold gone
    omega
  have hflat : (flat (.node l.label l.subs l.rest)).length = 4 * k + (flat l.rest).length := by
    rw [flat_node_length]
    omega
  rw [Place.places_plug, List.map_append, List.map_append, earlier_left k l.rest .nil,
    places_standing strs _ _ l.rest hgone, above_left hc hflat, Place.above, List.map_append]

/-- The nodes with the node and those below it. -/
theorem forest_standing (l : Place FlatNode) : (Place.places .top l.forest).map (standing strs) =
    (Place.earlier l.ctx .nil).map (standing strs) ++ standing strs l ::
      ((Place.places (.down l.label l.rest l.ctx) l.subs).map (standing strs) ++
        (Place.above (.down l.label l.rest l.ctx) l.subs).map (standing strs)) := by
  rw [Place.places_later, List.map_append, List.map_cons, Place.later, List.map_append,
    earlier_standing strs l.ctx _ .nil]

/-- The nodes when a node's text has another label of the same length. -/
theorem relabel_standing (l : Place FlatNode) {a : FlatNode} (hopens : a.opens.length = l.label.opens.length)
    (hcloses : a.closes = l.label.closes) :
    (Place.places .top (Place.forest { l with label := a })).map (standing strs) =
      (Place.earlier l.ctx .nil).map (standing strs) ++ (placeOffset l, a.data strs) :: l.later.map
      (standing strs) := by
  have hsubs := places_standing strs (.down a l.rest l.ctx) (.down l.label l.rest l.ctx) l.subs
    (by rw [gone_down, gone_down, hopens])
  have hrest := places_standing strs (.next a l.subs l.ctx) (.next l.label l.subs l.ctx) l.rest
    (by rw [gone_next, gone_next, hopens, hcloses])
  have habove := above_standing strs l.ctx (.node a l.subs l.rest) (.node l.label l.subs l.rest)
    (by rw [flat_node_length, flat_node_length, hopens, hcloses])
  rw [Place.places_later, List.map_append, List.map_cons, earlier_standing strs l.ctx _ .nil, Place.later, Place.later,
    List.map_append, List.map_append, Place.above, Place.above, List.map_append, List.map_append, hsubs, hrest, habove]
  rfl

end

/-! ## The tree -/

/-- The blob holds a tree, with its nodes at these offsets, in the order of the tree. -/
def Standing (m : Mem) (p : Nat) (t : Forest NodeData) (nodes : List (Nat × NodeData)) : Prop :=
  ∃ i ft, Laid m p i ft ∧ ft.map (FlatNode.data i.strs) = t ∧ nodes = (Place.places .top ft).map (standing i.strs)

section
variable {m : Mem} {p : Nat} {i : Image}

theorem nopNode_laid {l : Place FlatNode} (h : Laid m p i l.forest) (hc : l.ctx ≠ .top) :
    ∃ m' i' k, nopNode m p (placeOffset l) = .ok (0, m') ∧ Laid m' p i' ((leaveGaps k l.ctx).plug l.rest) ∧
      4 * k = l.label.opens.length + (flat l.subs).length + l.label.closes.length ∧
      i'.strs = i.strs ∧ i'.total = i.total ∧ i'.size = i.size ∧ Kept p i.total m m' := by
  obtain ⟨junk, hjunk⟩ := h.struct
  have hend := nodeEndOffset_flat h.lies
  obtain ⟨hctx, -, -, hrest⟩ := Ctx.all_plug.mp h.ok
  have hal := h.lies.here.ok.opens_aligned
  have hsubal := flat_aligned h.lies.here.subsOk
  have hstruct := hjunk.trans (node_text l (cell FDT_END ++ junk))
  have hlength : (l.label.opens ++ (flat l.subs ++ cell FDT_END_NODE)).length =
      l.label.opens.length + (flat l.subs).length + 4 := by
    rw [List.length_append, List.length_append, cell_length, Nat.add_assoc]
  obtain ⟨j, hj⟩ : ∃ j, l.label.opens.length + (flat l.subs).length + 4 = 4 * j :=
    ⟨(l.label.opens.length + (flat l.subs).length + 4) / 4, by omega⟩
  obtain ⟨hholds, hkept⟩ := h.holds.overwrite hstruct (d := nops j) (by rw [hlength, nops_length, hj])
  have hleft := left_text hc (j + l.label.after) (cell FDT_END ++ junk)
  rw [nops_add, List.append_assoc] at hleft
  rw [← hleft] at hholds
  refine ⟨_, _, j + l.label.after, ?_, ⟨hholds, ⟨junk, rfl⟩, Ctx.all_plug.mpr ⟨leaveGaps_ok hctx _, hrest⟩⟩, ?_, rfl,
    rfl,
    ?_, hkept⟩
  · have hlen : (((placeOffset l + (l.label.opens.length + (flat l.subs).length + 4) : Nat) : Int) - placeOffset
      l).toNat =
        4 * j := by
      omega
    have hinside : placeOffset l + 0 ≤ sizeDtStruct (blobAt m p) := by
      have hsize := congrArg List.length hstruct
      rw [List.length_append] at hsize
      rw [h.holds.reads.sizeStruct, hsize]
      exact Nat.le_add_right _ _
    unfold nopNode
    rw [hend]
    dsimp only
    rw [if_neg (Int.not_lt.mpr (Int.natCast_nonneg _)), offsetPtr_inside h.lies.fits hinside, h.holds.reads.offStruct]
    dsimp only
    rw [hlen, nopRegion_store, show (4 * j + 3) / 4 = j by omega]
    rfl
  · have hcloses : l.label.closes.length = 4 + 4 * l.label.after := by
      unfold FlatNode.closes
      rw [List.length_append, cell_length, nops_length]
    omega
  · have hbefore := congrArg List.length hstruct
    have hafter := congrArg List.length hleft
    simp only [List.length_append, nops_length, cell_length] at hbefore hafter
    unfold Image.size Image.offStrings Image.offStruct at *
    simp only [List.length_append, cell_length] at hbefore hafter ⊢
    omega

/-- `fdt_next_node` goes through the nodes as they stand. -/
theorem Standing.next {t : Forest NodeData} {pre post : List (Nat × NodeData)} {x : Nat × NodeData}
    (h : Standing m p t (pre ++ x :: post)) :
    (nextNode (blobAt m p) x.1 none).1 = post.head?.elim (-FDT_ERR_NOTFOUND) fun y => (y.1 : Int) := by
  obtain ⟨i, ft, hlaid, -, hnodes⟩ := h
  obtain ⟨pre', rest, hplaces, -, hrest⟩ := List.map_eq_append_iff.mp hnodes.symm
  obtain ⟨l, post', rfl, rfl, rfl⟩ := List.map_eq_cons_iff.mp hrest
  have hsteps := hlaid.lies.steps
  rw [hplaces] at hsteps
  have hforest : l.forest = ft := by
    have hmem : l ∈ Place.places .top ft := hplaces ▸ List.mem_append_right pre' List.mem_cons_self
    exact Place.places_forest l hmem
  subst hforest
  have hhead := Steps.next hlaid.lies hsteps.after
  rw [← nextNode_flat hlaid.lies.fits hlaid.lies.here none] at hhead
  refine hhead.trans ?_
  cases post' <;> rfl

theorem nopProperty_missing {l : Place FlatNode} (h : Laid m p i l.forest) {name : Str}
    (hfind : findItem i.strs name l.label.items = none) :
    nopProperty m p (placeOffset l) name = (-FDT_ERR_NOTFOUND, m) := by
  have hversion := h.lies.fits.version
  unfold nopProperty getProperty
  rw [if_neg (by omega), getPropertyNamelen_flat h.lies name, hfind]

theorem nopProperty_laid {l : Place FlatNode} (h : Laid m p i l.forest) {name : Str} {pre post : List Item} {j : Item}
    (hfind : findItem i.strs name l.label.items = some (pre, j, post)) :
    ∃ m' i' k, nopProperty m p (placeOffset l) name = (0, m') ∧ 4 * k = j.bytes.length ∧
      Laid m' p i' (Place.forest { l with label :=
        { l.label with items := pre ++ (List.replicate k .nop ++ post) } }) ∧
      i'.strs = i.strs ∧ i'.total = i.total ∧ i'.size = i.size ∧ Kept p i.total m m' := by
  obtain ⟨junk, hjunk⟩ := h.struct
  obtain ⟨hsplit, nameoff, old, pad, rfl, hnameoff⟩ := findItem_split hfind
  have hget := getProperty_found h hfind
  have hlabel := h.lies.here.ok
  have hbytes := prop_bytes (hlabel.items (.prop nameoff old pad)
    (hsplit ▸ List.mem_append_right pre List.mem_cons_self))
  obtain ⟨k, hk⟩ : ∃ k, k = (old.length + 12 + 3) / 4 := ⟨_, rfl⟩
  have hlength : 4 * k = (Item.prop nameoff old pad).bytes.length := by
    rw [hbytes, hk]
    unfold tagAlign
    omega
  have hsame : (nops k).length = (Item.prop nameoff old pad).bytes.length := by rw [nops_length, hlength]
  have hstruct := hjunk.trans (prop_text hsplit junk)
  obtain ⟨hholds, hkept⟩ := h.holds.overwrite hstruct hsame
  have hleft := items_text l pre (List.replicate k .nop) post junk
  rw [itemBytes_nops] at hleft
  have hok : ({ l.label with items := pre ++ (List.replicate k .nop ++ post) } : FlatNode).Ok i.strs :=
    items_ok hlabel hsplit fun j hj => by
      rw [List.eq_of_mem_replicate hj]
      trivial
  have hsize : ({ i with struct := Place.text { l with label := { l.label with
      items := pre ++ (List.replicate k .nop ++ post) } } junk } : Image).size = i.size := by
    rw [hleft]
    unfold Image.size Image.offStrings Image.offStruct
    rw [hstruct]
    simp only [List.length_append, hsame]
  rw [← hleft] at hholds
  refine ⟨_, _, k, ?_, hlength, Laid.relabel junk h hholds ⟨[], (List.append_nil _).symm⟩ hok, rfl, rfl, hsize, hkept⟩
  unfold nopProperty
  rw [hget]
  dsimp only
  rw [prop_start, Int.toNat_natCast, nopRegion_store, hk]

/-- `fdt_nop_node` takes a node and what is below it out of the tree. The other nodes
keep their data and their offsets, `fdt_next_node` goes from one to the next of
them, and the blob keeps its size. -/
theorem nopNode_keeps {o : Int} {n : Place NodeData} (h : NodeAt m p o n) (hn : n.ctx ≠ .top) :
    ∃ (m' : Mem) (pre below post : List (Nat × NodeData)), nopNode m p o = .ok (0, m') ∧
      Standing m p n.forest (pre ++ (o.toNat, n.label) :: (below ++ post)) ∧
      below.map Prod.snd = (Place.places (.down n.label n.rest n.ctx) n.subs).map Place.label ∧
      Standing m' p (n.ctx.plug n.rest) (pre ++ post) ∧
      (∀ before x after, pre ++ post = before ++ x :: after → (nextNode (blobAt m' p) (x.1 : Nat) none).1 =
        after.head?.elim (-FDT_ERR_NOTFOUND) fun y => (y.1 : Int)) ∧
      dataSize (blobAt m' p) = dataSize (blobAt m p) ∧ Within p m m' := by
  obtain ⟨i, l, hlaid, rfl, rfl⟩ := h
  have hc : l.ctx ≠ .top := fun htop => hn (congrArg (Ctx.map (FlatNode.data i.strs)) htop)
  obtain ⟨m', i', k, hcode, hlaid', hk, hstrs, htotal, hsize, hkept⟩ := nopNode_laid hlaid hc
  obtain ⟨pre, hpre⟩ : ∃ pre, pre = (Place.earlier l.ctx .nil).map (standing i.strs) := ⟨_, rfl⟩
  obtain ⟨post, hpost⟩ : ∃ post, post = (Place.above (.down l.label l.rest l.ctx) l.subs).map (standing i.strs) :=
    ⟨_, rfl⟩
  have hafter : Standing m' p ((l.map (FlatNode.data i.strs)).ctx.plug (l.map (FlatNode.data i.strs)).rest)
    (pre ++ post) := by
    refine ⟨i', _, hlaid', ?_, ?_⟩
    · rw [Ctx.map_plug, leaveGaps_data, hstrs]
      rfl
    · rw [hpre, hpost, hstrs]
      exact (left_standing hc hk).symm
  refine ⟨m', pre, (Place.places (.down l.label l.rest l.ctx) l.subs).map (standing i.strs), post, hcode,
    ⟨i, _, hlaid, (Place.map_forest _ l).symm, ?_⟩, ?_, hafter, fun before x after heq => ?_, ?_,
    hlaid.within hlaid' htotal hkept⟩
  · rw [hpre, hpost]
    exact (forest_standing l).symm
  · have hbelow := Place.places_map (FlatNode.data i.strs) (.down l.label l.rest l.ctx) l.subs
    refine Eq.trans ?_ (congrArg (List.map Place.label) hbelow).symm
    rw [List.map_map, List.map_map]
    rfl
  · rw [heq] at hafter
    exact hafter.next
  · rw [hlaid'.holds.dataSize, hlaid.holds.dataSize, hsize]

/-- `fdt_nop_property` takes a property out of its node, if the node has it. All nodes
keep their offsets, and the blob its size. -/
theorem nopProperty_keeps {o : Int} {n : Place NodeData} (h : NodeAt m p o n) (name : Str) :
    ∃ (m' : Mem) (pre post : List (Nat × NodeData)),
      nopProperty m p o name = (if (n.label.value name).isSome then 0 else -FDT_ERR_NOTFOUND, m') ∧
      Standing m p n.forest (pre ++ (o.toNat, n.label) :: post) ∧
      Standing m' p (Place.forest { n with label := n.label.delprop name })
        (pre ++ (o.toNat, n.label.delprop name) :: post) ∧
      dataSize (blobAt m' p) = dataSize (blobAt m p) ∧ Within p m m' := by
  obtain ⟨i, l, hlaid, rfl, rfl⟩ := h
  have hvalue : (l.label.data i.strs).value name = ((findItem i.strs name l.label.items).bind fun r =>
    Item.data i.strs r.2.1).map Prod.snd := congrArg (Option.map Prod.snd) (findItem_data l.label.items)
  have herase := eraseP_items i.strs name l.label.items
  have hstanding : Standing m p (l.map (FlatNode.data i.strs)).forest
    ((Place.earlier l.ctx .nil).map (standing i.strs) ++
      (placeOffset l, l.label.data i.strs) :: l.later.map (standing i.strs)) :=
    ⟨i, _, hlaid, (Place.map_forest _ l).symm, (relabel_standing l rfl rfl).symm⟩
  cases hfind : findItem i.strs name l.label.items with
  | none =>
    rw [hfind] at hvalue
    have hnone : (l.map (FlatNode.data i.strs)).label.value name = none := hvalue
    rw [NodeData.delprop_none hnone, hnone]
    exact ⟨m, _, _, nopProperty_missing hlaid hfind, hstanding, hstanding, rfl, Within.refl m⟩
  | some r =>
    obtain ⟨pre, j, post⟩ := r
    rw [hfind] at hvalue herase
    obtain ⟨m', i', k, hcode, hk, hlaid', hstrs, htotal, hsize, hkept⟩ := nopProperty_laid hlaid hfind
    obtain ⟨hsplit, nameoff, old, pad, rfl, -⟩ := findItem_split hfind
    have hsome : (l.map (FlatNode.data i.strs)).label.value name = some old := hvalue
    have hdata : ({ l.label with items := pre ++ (List.replicate k .nop ++ post) } : FlatNode).data i.strs =
        (l.label.data i.strs).delprop name := by
      have hprops : (l.label.items.filterMap (Item.data i.strs)).eraseP (·.1 == name) =
          (pre ++ (List.replicate k Item.nop ++ post)).filterMap (Item.data i.strs) := by
        rw [List.filterMap_append, List.filterMap_append, List.filterMap_replicate_of_none rfl]
        exact herase
      unfold NodeData.delprop FlatNode.data
      rw [hprops]
    have hopens : ({ l.label with items := pre ++ (List.replicate k .nop ++ post) } : FlatNode).opens.length =
        l.label.opens.length := by
      unfold FlatNode.opens
      rw [hsplit, itemBytes_append, itemBytes_append, itemBytes_nops, itemBytes_append, itemBytes_cons]
      simp only [List.length_append, nops_length, hk]
      rfl
    rw [hsome]
    refine ⟨m', _, _, hcode, hstanding, ⟨i', _, hlaid', ?_, ?_⟩, ?_, hlaid.within hlaid' htotal hkept⟩
    · rw [hstrs, ← Place.map_forest]
      unfold Place.map
      rw [hdata]
    · rw [hstrs, relabel_standing l hopens rfl, hdata]
      rfl
    · rw [hlaid'.holds.dataSize, hlaid.holds.dataSize, hsize]

end

/-- `cpu@0` becomes a gap. -/
theorem nopNode_small : ∃ m', nopNode smallMem 0 28 = .ok (0, m') ∧
    Carries m' 0 (.node ⟨[], [([114, 101, 103], [1])]⟩ .nil .nil) := by
  have hn : smallNode.ctx ≠ .top := by
    intro htop
    cases htop
  obtain ⟨m', pre, below, post, hcode, -, -, hafter, -⟩ := nopNode_keeps small_nodeAt hn
  obtain ⟨i, ft, hlaid, hdata, -⟩ := hafter
  exact ⟨m', hcode, i, ft, hlaid, hdata⟩

/-- `reg` of `cpu@0` becomes a gap. -/
theorem nopProperty_small : ∃ m', nopProperty smallMem 0 28 [114, 101, 103] = (0, m') ∧
    Carries m' 0 (Place.forest { smallNode with label := ⟨[99, 112, 117, 64, 48], []⟩ }) := by
  obtain ⟨m', pre, post, hcode, -, hafter, -⟩ := nopProperty_keeps small_nodeAt [114, 101, 103]
  obtain ⟨i, ft, hlaid, hdata, -⟩ := hafter
  exact ⟨m', hcode, i, ft, hlaid, hdata⟩

end DTFramework.Fdt
