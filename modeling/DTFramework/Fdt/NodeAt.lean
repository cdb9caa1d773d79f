import DTFramework.Fdt.EditTree

/-!
# Blobs as trees

The tree that a blob stands for, without its layout (`Carries`), and the node of
it that is at an offset (`NodeAt`). libfdt's functions are functions of the tree.

Where a blob is only read, any layout will do (`ReadAt`). Results:

* `pathOffset_reads`: what is found under a path, and what is read there;
* `NodeAt.setprop`, `setprop_observed`: a property is set at the node, and nothing
  else is;
* `NodeAt.addSubnode`, `addSubnode_observed`: a node is put first below the node, if
  none there answers to the name;
* `Carries.readsAs`: what every path and every getter reads.

A call that fails leaves the tree, and no call writes outside the blob.
-/
namespace DTFramework.Fdt

open DTFramework.Lib

/-- The blob at `p` stands for a tree. -/
def Carries (m : Mem) (p : Nat) (t : Forest NodeData) : Prop :=
  ∃ i ft, Laid m p i ft ∧ ft.map (FlatNode.data i.strs) = t

/-- A node of the tree is at offset `o` of the blob. -/
def NodeAt (m : Mem) (p : Nat) (o : Int) (n : Place NodeData) : Prop :=
  ∃ i l, Laid m p i (Place.forest l) ∧ o = placeOffset l ∧ l.map (FlatNode.data i.strs) = n

/-- A node of a tree that lies in a blob, in whatever layout it can be read from, is at
offset `o`. -/
def ReadAt (f : Blob) (o : Int) (n : Place NodeData) : Prop :=
  ∃ strs l, Lies f strs (Place.forest l) ∧ o = placeOffset l ∧ l.map (FlatNode.data strs) = n

/-- A call wrote inside the blob alone, and kept its size. -/
structure Within (p : Nat) (m m' : Mem) : Prop where
  kept : Kept p (totalsize (blobAt m p)) m m'
  total : totalsize (blobAt m' p) = totalsize (blobAt m p)

theorem Within.refl {p : Nat} (m : Mem) : Within p m m := ⟨Kept.refl m, rfl⟩

theorem Within.trans {p : Nat} {m m' m'' : Mem} (h : Within p m m') (h' : Within p m' m'') : Within p m m'' :=
  ⟨h.kept.trans (h.total ▸ h'.kept), h'.total.trans h.total⟩

/-- A subnode that answers to a name. -/
def childNamed (n : Place NodeData) (name : Str) : Option (Place NodeData) := n.child fun a => nameMatches a.name name

/-- The root of a forest. -/
def root {α : Type} : Forest α → Option (Place α)
  | .nil => none
  | .node a subs rest => some ⟨.top, a, subs, rest⟩

/-- The node under an absolute path of a tree. -/
def find (t : Forest NodeData) (path : Str) : Option (Place NodeData) := (root t).bind fun n => lookup n path

section
variable {m m' : Mem} {p : Nat} {o : Int} {n : Place NodeData} {t : Forest NodeData} {name val : Str}

theorem root_forest {α : Type} {t : Forest α} {l : Place α} (h : root t = some l) : l.forest = t := by
  cases t with
  | nil => cases h
  | node a subs rest =>
    cases h
    rfl

theorem find_forest {path : Str} (h : find t path = some n) : n.forest = t := by
  obtain ⟨r, hroot, hlookup⟩ := Option.bind_eq_some_iff.mp h
  exact (Place.walk_forest hlookup).trans (root_forest hroot)

theorem NodeAt.readAt (h : NodeAt m p o n) : ReadAt (blobAt m p) o n := by
  obtain ⟨i, l, hlaid, ho, hn⟩ := h
  exact ⟨i.strs, l, hlaid.lies, ho, hn⟩

theorem ReadAt.nonneg {f : Blob} (h : ReadAt f o n) : 0 ≤ o := by
  obtain ⟨strs, l, -, rfl, -⟩ := h
  exact Int.natCast_nonneg _

theorem NodeAt.carries (h : NodeAt m p o n) : Carries m p n.forest := by
  obtain ⟨i, l, hlaid, -, rfl⟩ := h
  exact ⟨i, l.forest, hlaid, (Place.map_forest _ l).symm⟩

theorem Laid.within {i i' : Image} {t t' : Forest FlatNode} (h : Laid m p i t) (h' : Laid m' p i' t')
    (htotal : i'.total = i.total)
    (hkept : Kept p i.total m m') : Within p m m' := by
  have ht := h.holds.reads.total
  refine ⟨by rwa [ht], ?_⟩
  rw [ht, h'.holds.reads.total, htotal]

/-- A blob stays as it is when nothing is written to it. -/
theorem Laid.apart {t : Forest FlatNode} {i : Image} {q k : Nat} (h : Laid m q i t) (hkept : Kept p k m m')
    (hap : Apart p k q i.total) : Laid m' q i t := by
  refine ⟨⟨h.holds.aligned, h.holds.ok, h.holds.stands.congr fun a _ ha => ?_⟩, h.struct, h.ok⟩
  rw [bytes_length] at ha
  have hsize := h.holds.ok.size
  rw [blobAt_rd, blobAt_rd]
  unfold Apart at hap
  exact hkept _ (by omega)

/-! ## A small tree -/

/-- A root with a property, a gap and one subnode, `cpu@0`. -/
def smallTree : Forest FlatNode :=
  .node ⟨[], [0, 0, 0], [.prop 0 [1] [0, 0, 0], .nop], 0⟩
    (.node ⟨[99, 112, 117, 64, 48], [0, 0], [.prop 0 [0, 0, 0, 7] []], 1⟩ .nil .nil) .nil

/-- Its text: the one name is `reg`. -/
def smallImage : Image := layout smallTree [114, 101, 103, 0] 400

theorem smallTree_ok : smallTree.All (FlatNode.Ok [114, 101, 103, 0]) := by
  refine ⟨⟨by decide, by decide, ?_⟩, ⟨⟨by decide, by decide, ?_⟩, trivial, trivial⟩, trivial⟩
  · intro i hi
    rcases List.mem_pair.mp hi with rfl | rfl
    · exact ⟨by decide, by decide⟩
    · trivial
  · intro i hi
    rw [List.mem_singleton.mp hi]
    exact ⟨by decide, by decide⟩

def smallMem : Mem := memOf 0 smallImage.bytes

theorem small_laid : Laid smallMem 0 smallImage smallTree :=
  layout_laid (at_memOf 0 smallImage.bytes) rfl smallTree_ok (by decide) (by decide)

/-- The subnode is at offset 28. -/
def smallNode : Place NodeData :=
  ⟨.down ⟨[], [([114, 101, 103], [1])]⟩ .nil .top, ⟨[99, 112, 117, 64, 48], [([114, 101, 103], [0, 0, 0, 7])]⟩, .nil,
    .nil⟩

theorem small_nodeAt : NodeAt smallMem 0 28 smallNode :=
  ⟨smallImage, ⟨.down ⟨[], [0, 0, 0], [.prop 0 [1] [0, 0, 0], .nop], 0⟩ .nil .top,
    ⟨[99, 112, 117, 64, 48], [0, 0], [.prop 0 [0, 0, 0, 7] []], 1⟩, .nil, .nil⟩, small_laid, rfl, rfl⟩

/-! ## Reading -/

/-- Reading is looking up in the tree. -/
theorem pathOffset_reads {f : Blob} {strs : Str} {l : Place FlatNode} (hroot : l.ctx = .top) (h : Lies f strs l.forest)
    {path : Str}
    (hslash : path.head? = some SLASH) : match lookup (l.map (FlatNode.data strs)) path with
      | none => pathOffset f path = -FDT_ERR_NOTFOUND
      | some place => ∃ l' : Place FlatNode, l'.map (FlatNode.data strs) = place ∧ l'.forest = l.forest ∧
          pathOffset f path = placeOffset l' ∧ getName f (placeOffset l') = .ok place.label.name ∧
          ∀ name, propertyBytes f (placeOffset l') name = place.label.value name ∧
            (place.label.value name = none → getprop f (placeOffset l') name = .error (-FDT_ERR_NOTFOUND)) := by
  have hzero : placeOffset l = 0 := by
    unfold placeOffset
    rw [hroot]
    rfl
  have hne : path ≠ [] := by
    rintro rfl
    cases hslash
  have hpath : pathOffset f path = pathWalk f (placeOffset l) path := by
    unfold pathOffset
    rw [if_neg (Int.not_lt.mpr h.strings.probe), if_neg hne, if_pos hslash, hzero]
    rfl
  have hfits : ((components SLASH path).map fun name (a : NodeData) => nameMatches a.name name).map
    (· ∘ FlatNode.data strs) =
      (components SLASH path).map answers := by
    rw [List.map_map]
    rfl
  unfold lookup
  rw [hpath, pathWalk_flat h, Place.walk_map, hfits]
  cases hwalk : l.walk ((components SLASH path).map answers) with
  | none => rfl
  | some l' =>
    have hl' : Lies f strs l'.forest := by rw [Place.walk_forest hwalk]; exact h
    refine ⟨l', rfl, Place.walk_forest hwalk, rfl,
        getName_flat h.fits h.strings hl'.here.ok hl'.here.header hl'.here.aligned, fun name =>
      ⟨propertyBytes_flat hl' name, fun hnone => ?_⟩⟩
    rcases getprop_flat hl' name with ⟨-, hget⟩ | ⟨v, p, hvalue, -⟩
    · exact hget
    · exact absurd (hvalue.symm.trans hnone) (Option.some_ne_none v)

/-- `reg` of `cpu@0` under the path `/cpu`. -/
theorem small_reads : pathOffset (blobAt smallMem 0) [SLASH, 99, 112, 117] = 28 ∧
    propertyBytes (blobAt smallMem 0) 28 [114, 101, 103] = some [0, 0, 0, 7] := by
  have hreads := pathOffset_reads (l := ⟨.top, ⟨[], [0, 0, 0], [.prop 0 [1] [0, 0, 0], .nop], 0⟩,
    .node ⟨[99, 112, 117, 64, 48], [0, 0], [.prop 0 [0, 0, 0, 7] []], 1⟩ .nil .nil, .nil⟩) rfl small_laid.lies
    (rfl : ([SLASH, 99, 112, 117] : Str).head? = some SLASH)
  obtain ⟨l', -, -, hpath, -, hvalue⟩ := hreads
  have hoffset : (placeOffset l' : Int) = 28 := hpath.symm.trans (by decide +kernel)
  rw [hpath, ← hoffset]
  exact ⟨rfl, (hvalue [114, 101, 103]).1⟩

/-- What the getters answer at a node. -/
theorem NodeAt.getters (h : NodeAt m p o n) : getName (blobAt m p) o = .ok n.label.name ∧
    ∀ name, propertyBytes (blobAt m p) o name = n.label.value name := by
  obtain ⟨i, l, hlaid, rfl, rfl⟩ := h
  have hlies := hlaid.lies
  exact ⟨getName_flat hlies.fits hlies.strings hlies.here.ok hlies.here.header hlies.here.aligned,
    propertyBytes_flat hlies⟩

theorem NodeAt.getprop (h : NodeAt m p o n) (name : Str) :
    (n.label.value name = none ∧ getprop (blobAt m p) o name = .error (-FDT_ERR_NOTFOUND)) ∨
      ∃ v q, n.label.value name = some v ∧ getprop (blobAt m p) o name = .ok (q, (v.length : Int)) ∧
        At (blobAt m p).rd q v ∧ v.length < INT_MAX := by
  obtain ⟨i, l, hlaid, rfl, rfl⟩ := h
  exact getprop_flat hlaid.lies name

/-- Where a subnode is found. -/
theorem NodeAt.child (h : NodeAt m p o n) (name : Str) :
    match childNamed n name with
    | none => subnodeOffset (blobAt m p) o name = -FDT_ERR_NOTFOUND
    | some n' => NodeAt m p (subnodeOffset (blobAt m p) o name) n' := by
  obtain ⟨i, l, hlaid, rfl, rfl⟩ := h
  have hflat := subnodeOffset_flat hlaid.lies name
  have hchild : childNamed (l.map (FlatNode.data i.strs)) name = (l.child (answers name)).map
    (Place.map (FlatNode.data i.strs)) :=
    Place.child_map l
  rw [hchild]
  cases hfound : l.child (answers name) with
  | none =>
    rw [hfound] at hflat
    exact hflat
  | some l' =>
    rw [hfound] at hflat
    exact ⟨i, l', (Place.child_forest hfound).symm ▸ hlaid, hflat, rfl⟩

theorem map_answers (strs : Str) (path : List Str) :
    (path.map fun name (a : NodeData) => nameMatches a.name name).map (· ∘ FlatNode.data strs) = path.map answers := by
  rw [List.map_map]
  rfl

/-- An absolute path leads where it leads in the tree. -/
theorem Carries.pathOffset (h : Carries m p t) {path : Str} (hslash : path.head? = some SLASH)
    (hroot : (root t).isSome = true) :
    match find t path with
    | none => pathOffset (blobAt m p) path = -FDT_ERR_NOTFOUND
    | some n => NodeAt m p (pathOffset (blobAt m p) path) n := by
  obtain ⟨i, ft, hlaid, rfl⟩ := h
  cases ft with
  | nil => cases hroot
  | node a subs rest =>
    have hlies : Lies (blobAt m p) i.strs (Place.forest ⟨.top, a, subs, rest⟩) := hlaid.lies
    have hwalk := pathWalk_flat hlies path
    have hne : path ≠ [] := by
      rintro rfl
      cases hslash
    have hpath : Fdt.pathOffset (blobAt m p) path = pathWalk (blobAt m p) 0 path := by
      unfold Fdt.pathOffset
      rw [if_neg (Int.not_lt.mpr hlies.strings.probe), if_neg hne, if_pos hslash]
    have hfind : find ((Forest.node a subs rest).map (FlatNode.data i.strs)) path =
        ((⟨.top, a, subs, rest⟩ : Place FlatNode).walk ((components SLASH path).map answers)).map
          (Place.map (FlatNode.data i.strs)) := by
      have hmap := Place.walk_map (g := FlatNode.data i.strs)
        ((components SLASH path).map fun name (a : NodeData) => nameMatches a.name name)
        ⟨.top, a, subs, rest⟩
      rwa [map_answers] at hmap
    rw [hpath, hfind]
    cases hres : (⟨.top, a, subs, rest⟩ : Place FlatNode).walk ((components SLASH path).map answers) with
    | none =>
      rw [hres] at hwalk
      exact hwalk
    | some l' =>
      rw [hres] at hwalk
      exact ⟨i, l', by rw [Place.walk_forest hres]; exact hlaid, hwalk, rfl⟩

/-! ## Writing -/

theorem NodeAt.setprop (h : NodeAt m p o n) (hz : 0 ∉ name) (hname : name.length < INT_MAX)
    (hval : 12 + tagAlign val.length ≤ INT_MAX) :
    Within p m (setprop m p o name val).2 ∧
      dataSize (blobAt (setprop m p o name val).2 p) ≤ dataSize (blobAt m p) + propNeed name val ∧
      (((setprop m p o name val).1 = 0 ∧ NodeAt (setprop m p o name val).2 p o
        { n with label := n.label.setprop name val }) ∨
        ((setprop m p o name val).1 = -FDT_ERR_NOSPACE ∧ NodeAt (setprop m p o name val).2 p o n ∧
          totalsize (blobAt m p) < dataSize (blobAt m p) + propNeed name val)) := by
  obtain ⟨i, l, hlaid, rfl, rfl⟩ := h
  rcases setprop_laid hlaid name val hz hname hval with ⟨m1, i', label, hcode, hlaid', hdata, hgrows, hkept⟩ |
    ⟨m1, hcode, hlaid', hkept, hfull⟩
  · rw [hcode]
    obtain ⟨hctx, -, hsubs, hrest⟩ := Ctx.all_plug.mp hlaid.ok
    obtain ⟨x, hx⟩ := hgrows.strs
    refine ⟨hlaid.within hlaid' hgrows.total hkept, ?_, Or.inl ⟨rfl, i', { l with label := label }, hlaid', rfl, ?_⟩⟩
    · rw [hlaid'.holds.dataSize, hlaid.holds.dataSize]
      exact hgrows.size
    have hmap : l.ctx.map (FlatNode.data i'.strs) = l.ctx.map (FlatNode.data i.strs) := by
      rw [hx]
      exact Ctx.map_congr (hctx.mono fun a ha => (ha.grow x).2)
    unfold Place.map
    rw [hmap, hgrows.map hsubs, hgrows.map hrest, hdata]
  · rw [hcode, hlaid.holds.reads.total, hlaid.holds.dataSize]
    refine ⟨hlaid.within hlaid' rfl hkept, ?_, Or.inr ⟨rfl, ⟨i.probed, l, hlaid', rfl, rfl⟩, hfull⟩⟩
    rw [hlaid'.holds.dataSize]
    exact Nat.le_add_right _ _

theorem NodeAt.addSubnode (h : NodeAt m p o n) (hz : 0 ∉ name) (hn : nodeNeed name ≤ INT_MAX) :
    Within p m (addSubnode m p o name).2 ∧
      dataSize (blobAt (addSubnode m p o name).2 p) ≤ dataSize (blobAt m p) + nodeNeed name ∧
      match childNamed n name with
      | some _ => (addSubnode m p o name).1 = -FDT_ERR_EXISTS ∧ NodeAt (addSubnode m p o name).2 p o n
      | none =>
        (0 ≤ (addSubnode m p o name).1 ∧
            NodeAt (addSubnode m p o name).2 p (addSubnode m p o name).1 (newChild n ⟨name, []⟩)) ∨
          ((addSubnode m p o name).1 = -FDT_ERR_NOSPACE ∧ NodeAt (addSubnode m p o name).2 p o n ∧
            totalsize (blobAt m p) < dataSize (blobAt m p) + nodeNeed name) := by
  obtain ⟨i, l, hlaid, rfl, rfl⟩ := h
  have hadd := addSubnode_laid hlaid hz hn
  have hchild : childNamed (l.map (FlatNode.data i.strs)) name = (l.child (answers name)).map
    (Place.map (FlatNode.data i.strs)) :=
    Place.child_map l
  rw [hchild]
  cases hfound : l.child (answers name) with
  | some l' =>
    rw [hfound] at hadd
    obtain ⟨m1, hcode, hlaid', hkept⟩ := hadd
    rw [hcode]
    refine ⟨hlaid.within hlaid' rfl hkept, ?_, rfl, i.probed, l, hlaid', rfl, rfl⟩
    rw [hlaid'.holds.dataSize, hlaid.holds.dataSize]
    exact Nat.le_add_right _ _
  | none =>
    rw [hfound] at hadd
    rcases hadd with ⟨m1, i', hcode, hlaid', hstrs, hgrows, hkept⟩ | ⟨m1, hcode, hlaid', hkept, hfull⟩
    · rw [hcode]
      refine ⟨hlaid.within hlaid' hgrows.total hkept, ?_, Or.inl ⟨Int.natCast_nonneg _, i', _, hlaid', rfl, ?_⟩⟩
      · rw [hlaid'.holds.dataSize, hlaid.holds.dataSize]
        exact hgrows.size
      · rw [hstrs]
        rfl
    · rw [hcode, hlaid.holds.reads.total, hlaid.holds.dataSize]
      refine ⟨hlaid.within hlaid' rfl hkept, ?_, Or.inr ⟨rfl, ⟨i.probed, l, hlaid', rfl, rfl⟩, hfull⟩⟩
      rw [hlaid'.holds.dataSize]
      exact Nat.le_add_right _ _

/-! ## What is read after a call -/

/-- Every path, and every property under it, reads as a tree says. -/
def ReadsAs (f : Blob) (t : Forest NodeData) : Prop :=
  ∀ path : Str, path.head? = some SLASH → match find t path with
    | none => pathOffset f path = -FDT_ERR_NOTFOUND
    | some n => 0 ≤ pathOffset f path ∧ getName f (pathOffset f path) = .ok n.label.name ∧
        ∀ name, propertyBytes f (pathOffset f path) name = n.label.value name

theorem NodeAt.nonneg (h : NodeAt m p o n) : 0 ≤ o := h.readAt.nonneg

theorem plug_root {α : Type} (c : Ctx α) (a : α) (subs rest : Forest α) :
    (root (c.plug (.node a subs rest))).isSome = true := by
  induction c generalizing a subs rest with
  | top => rfl
  | down b rest' c ih => exact ih b _ rest'
  | next b subs' c ih => exact ih b subs' _

theorem Carries.readsAs (h : Carries m p t) (hroot : (root t).isSome = true) : ReadsAs (blobAt m p) t := by
  intro path hslash
  have hpath := h.pathOffset hslash hroot
  cases hfind : find t path with
  | none =>
    rw [hfind] at hpath
    exact hpath
  | some n' =>
    rw [hfind] at hpath
    exact ⟨hpath.nonneg, hpath.getters⟩

theorem NodeAt.readsAs (h : NodeAt m p o n) : ReadsAs (blobAt m p) n.forest :=
  h.carries.readsAs (plug_root n.ctx n.label n.subs n.rest)

/-- A string that was added is taken back when there is no room for the property. -/
theorem setprop_taken_back (h : NodeAt m p o n) (hz : 0 ∉ name) (hname : name.length < INT_MAX)
    (hval : 12 + tagAlign val.length ≤ INT_MAX) (hfail : (setprop m p o name val).1 ≠ 0) :
    dataSize (blobAt (setprop m p o name val).2 p) = dataSize (blobAt m p) := by
  obtain ⟨i, l, hlaid, rfl, rfl⟩ := h
  rcases setprop_laid hlaid name val hz hname hval with ⟨m1, i', label, hcode, -⟩ | ⟨m1, hcode, hlaid', -⟩
  · rw [hcode] at hfail
    exact absurd rfl hfail
  · rw [hcode, hlaid'.holds.dataSize, hlaid.holds.dataSize]
    rfl

/-- After `fdt_setprop` the node is the one with the property set, a new property
first, and the blob reads as the tree with it; or, when it has no room, the node, the
tree and the size of the data are as before. -/
theorem setprop_observed (h : NodeAt m p o n) (name val : Str) (hz : 0 ∉ name) (hname : name.length < INT_MAX)
    (hval : 12 + tagAlign val.length ≤ INT_MAX) :
    ((setprop m p o name val).1 = 0 ∨ ((setprop m p o name val).1 = -FDT_ERR_NOSPACE ∧
        totalsize (blobAt m p) < dataSize (blobAt m p) + propNeed name val)) ∧
      NodeAt (setprop m p o name val).2 p o
        (if (setprop m p o name val).1 = 0 then { n with label := n.label.setprop name val } else n) ∧
      ((setprop m p o name val).1 ≠ 0 → dataSize (blobAt (setprop m p o name val).2 p) = dataSize (blobAt m p)) ∧
      ReadsAs (blobAt (setprop m p o name val).2 p)
        (if (setprop m p o name val).1 = 0 then n.put (n.label.setprop name val) n.subs else n.forest) ∧
      Within p m (setprop m p o name val).2 := by
  have hsize := setprop_taken_back h hz hname hval
  obtain ⟨hwithin, -, ⟨hst, hnode⟩ | ⟨hst, hnode, hfull⟩⟩ := h.setprop hz hname hval
  · refine ⟨Or.inl hst, ?_, hsize, ?_, hwithin⟩
    · rw [if_pos hst]
      exact hnode
    · rw [if_pos hst]
      exact hnode.readsAs
  · have hfail : ¬(setprop m p o name val).1 = 0 := by rw [hst]; decide
    refine ⟨Or.inr ⟨hst, hfull⟩, ?_, hsize, ?_, hwithin⟩
    · rw [if_neg hfail]
      exact hnode
    · rw [if_neg hfail]
      exact hnode.readsAs

theorem setprop_small : ReadsAs (blobAt (setprop smallMem 0 28 [114, 101, 103] [9]).2 0)
    (smallNode.put (smallNode.label.setprop [114, 101, 103] [9]) .nil) := by
  obtain ⟨hst, -, -, hreads, -⟩ := setprop_observed small_nodeAt [114, 101, 103] [9] (by decide) (by decide)
    (by decide)
  rcases hst with h0 | ⟨-, hfull⟩
  · rwa [if_pos h0] at hreads
  · exact absurd hfull (by decide +kernel)

/-- After `fdt_add_subnode` an empty node stands first below the node, at the offset
that the call answers, and the blob reads as the tree with it; the node and the tree
are as before when a node answers to the name or there is no room. -/
theorem addSubnode_observed (h : NodeAt m p o n) (name : Str) (hz : 0 ∉ name) (hn : nodeNeed name ≤ INT_MAX) :
    (if (childNamed n name).isSome = true then (addSubnode m p o name).1 = -FDT_ERR_EXISTS
      else 0 ≤ (addSubnode m p o name).1 ∨ ((addSubnode m p o name).1 = -FDT_ERR_NOSPACE ∧
        totalsize (blobAt m p) < dataSize (blobAt m p) + nodeNeed name)) ∧
      (if 0 ≤ (addSubnode m p o name).1 then
        NodeAt (addSubnode m p o name).2 p (addSubnode m p o name).1 (newChild n ⟨name, []⟩)
      else NodeAt (addSubnode m p o name).2 p o n) ∧
      ReadsAs (blobAt (addSubnode m p o name).2 p)
        (if 0 ≤ (addSubnode m p o name).1 then n.put n.label (.node ⟨name, []⟩ .nil n.subs) else n.forest) ∧
      Within p m (addSubnode m p o name).2 := by
  obtain ⟨hwithin, -, hadd⟩ := h.addSubnode hz hn
  cases hchild : childNamed n name with
  | some l =>
    rw [hchild] at hadd
    have hneg : ¬0 ≤ (addSubnode m p o name).1 := by rw [hadd.1]; decide
    rw [if_pos (show (some l).isSome = true from rfl), if_neg hneg, if_neg hneg]
    exact ⟨hadd.1, hadd.2, hadd.2.readsAs, hwithin⟩
  | none =>
    rw [hchild] at hadd
    rw [if_neg (show ¬(none : Option (Place NodeData)).isSome = true from Bool.false_ne_true)]
    rcases hadd with ⟨h0, hnode⟩ | ⟨hst, hnode, hfull⟩
    · rw [if_pos h0, if_pos h0]
      exact ⟨Or.inl h0, hnode, hnode.readsAs, hwithin⟩
    · have hneg : ¬0 ≤ (addSubnode m p o name).1 := by rw [hst]; decide
      rw [if_neg hneg, if_neg hneg]
      exact ⟨Or.inr ⟨hst, hfull⟩, hnode, hnode.readsAs, hwithin⟩

theorem addSubnode_small : NodeAt (addSubnode smallMem 0 28 [120]).2 0 (addSubnode smallMem 0 28 [120]).1
    (newChild smallNode ⟨[120], []⟩) ∧ ReadsAs (blobAt (addSubnode smallMem 0 28 [120]).2 0)
    (smallNode.put smallNode.label (.node ⟨[120], []⟩ .nil .nil)) := by
  obtain ⟨hst, hnode, hreads, -⟩ := addSubnode_observed small_nodeAt [120] (by decide) (by decide)
  rw [if_neg (show ¬(childNamed smallNode [120]).isSome = true by decide)] at hst
  rcases hst with h0 | ⟨-, hfull⟩
  · rw [if_pos h0] at hnode hreads
    exact ⟨hnode, hreads⟩
  · exact absurd hfull (by decide +kernel)

end

end DTFramework.Fdt
