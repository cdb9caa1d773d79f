import DTFramework.Extn.Prop
import DTFramework.Tree.Traverse

/-!
# Parents

A blob has no way up: `fdt_parent_offset` goes through the nodes from the root on,
counts their depths, and keeps the last one that is a level above the node that
is asked for. This is the node's parent (`ReadAt.parent`), so that a driver that
calls `fdt_get_parent_node` again and again climbs to the root (`parents_climb`).

Results:

* `ReadAt.parent`: `fdt_parent_offset` answers the parent;
* `parents_climb`: the calls of a driver end at the root.
-/
namespace DTFramework.Fdt

open DTFramework.Lib DTFramework.Extn

/-- The loop of `fdt_supernode_atdepth_offset`, at the node at `offset`: what it
answers, and `*nodedepth` where it is written. -/
def supernodeScan (f : Blob) (nodeoffset supernodedepth offset depth supernodeoffset : Int) : Int × Option Int :=
  if nodeoffset < offset then (-FDT_ERR_BADOFFSET, none)
  else
    let supernodeoffset := if depth = supernodedepth then offset else supernodeoffset
    if offset = nodeoffset then (if depth < supernodedepth then -FDT_ERR_NOTFOUND else supernodeoffset, some depth)
    else
      let next := nextNode f offset (some depth)
      if _h : next.1 < 0 then
        (if next.1 = -FDT_ERR_NOTFOUND then -FDT_ERR_BADOFFSET
          else if next.1 = -FDT_ERR_BADOFFSET then -FDT_ERR_BADSTRUCTURE
          else next.1, none)
      else supernodeScan f nodeoffset supernodedepth next.1 (next.2.getD depth) supernodeoffset
termination_by nodeRoom offset
decreasing_by exact nextNode_room (Int.not_lt.mp _h)

/-- mirrors libs/libfdt/fdt_ro.c:623-659 -/
def supernodeAtdepthOffset (f : Blob) (nodeoffset supernodedepth : Int) : Int × Option Int :=
  if roProbe f < 0 then (roProbe f, none)
  else if supernodedepth < 0 then (-FDT_ERR_NOTFOUND, none)
  else supernodeScan f nodeoffset supernodedepth 0 0 (-FDT_ERR_INTERNAL)

/-- mirrors libs/libfdt/fdt_ro.c:661-671 -/
def nodeDepth (f : Blob) (nodeoffset : Int) : Int :=
  let err := supernodeAtdepthOffset f nodeoffset 0
  if err.1 ≠ 0 then if err.1 < 0 then err.1 else -FDT_ERR_INTERNAL
  else err.2.getD 0

/-- mirrors libs/libfdt/fdt_ro.c:673-681 -/
def parentOffset (f : Blob) (nodeoffset : Int) : Int :=
  let nodedepth := nodeDepth f nodeoffset
  if nodedepth < 0 then nodedepth else (supernodeAtdepthOffset f nodeoffset (nodedepth - 1)).1

/-- mirrors libs/DTBExtnLib/DTBExtnLib_node.c:996-1033: the status and `*pnode`. -/
def getParentNode (m : Mem) (node : NodeHandle) : Int × NodeHandle :=
  let offset := parentOffset (blobAt m node.blob) node.offset
  if offset < 0 then (offset, ⟨0, offset⟩) else (FDT_ERR_QC_NOERROR, ⟨node.blob, offset⟩)

/-! ## The scan -/

section
variable {f : Blob} {strs : Str} {e : Nat} {d' : Int}

/-- What the scan keeps when it goes over a list of nodes. -/
def superOf (k : Nat) (ls : List (Place FlatNode)) (sup : Int) : Int :=
  ls.foldl (fun sup l => if l.ctx.depth = k then (placeOffset l : Int) else sup) sup

theorem supernodeScan_end (l : Place FlatNode) (k : Nat) (sup : Int) :
    supernodeScan f (placeOffset l) k (placeOffset l) l.ctx.depth sup =
      (if l.ctx.depth < k then -FDT_ERR_NOTFOUND else superOf k [l] sup, some (l.ctx.depth : Int)) := by
  rw [supernodeScan, if_neg (Int.lt_irrefl _), if_pos rfl]
  simp only [Int.ofNat_lt, Int.ofNat_inj]
  rfl

/-- From a node to the next. -/
theorem next_counted {x y : Place FlatNode} {ls : List (Place FlatNode)} (hx : Lies f strs x.forest)
    (hs : Steps f true (placeOffset x + x.label.opens.length) x.ctx.depth (y :: ls) e d') :
    nextNode f (placeOffset x) (some x.ctx.depth) = ((placeOffset y : Int), some (y.ctx.depth : Int)) ∧
      (placeOffset x : Int) < placeOffset y := by
  have hnext : nextNode f (placeOffset x) (some x.ctx.depth) = ((placeOffset y : Int), some (y.ctx.depth : Int)) :=
    (nextNode_flat hx.fits hx.here _).trans hs.1
  have hgt := nextNode_gt f (placeOffset x) (some x.ctx.depth) (Int.natCast_nonneg _)
    (by rw [hnext]; exact Int.natCast_nonneg _)
  rw [hnext] at hgt
  exact ⟨hnext, hgt.2⟩

theorem steps_lt {t : Forest FlatNode} (h : Lies f strs t) {l : Place FlatNode} {pre post : List (Place FlatNode)}
    {x : Place FlatNode} (hx : x.forest = t) (hpre : ∀ y ∈ pre, y.forest = t)
    (hs : Steps f true (placeOffset x + x.label.opens.length) x.ctx.depth (pre ++ l :: post) e d') :
    (placeOffset x : Int) < placeOffset l := by
  induction pre generalizing x with
  | nil => exact (next_counted (hx.symm ▸ h) hs).2
  | cons y pre ih =>
    exact Int.lt_trans (next_counted (hx.symm ▸ h) hs).2
      (ih (hpre y List.mem_cons_self) (fun z hz => hpre z (List.mem_cons_of_mem y hz)) hs.2)

theorem supernodeScan_steps {t : Forest FlatNode} (h : Lies f strs t) {l : Place FlatNode}
    {pre post : List (Place FlatNode)} {x : Place FlatNode} (hx : x.forest = t) (hpre : ∀ y ∈ pre, y.forest = t)
    (hs : Steps f true (placeOffset x + x.label.opens.length) x.ctx.depth (pre ++ l :: post) e d') (k : Nat)
    (sup : Int) :
    supernodeScan f (placeOffset l) k (placeOffset x) x.ctx.depth sup =
      (if l.ctx.depth < k then -FDT_ERR_NOTFOUND else superOf k (x :: pre ++ [l]) sup, some (l.ctx.depth : Int)) := by
  induction pre generalizing x sup with
  | nil =>
    obtain ⟨hnext, hlt⟩ := next_counted (hx.symm ▸ h) hs
    rw [supernodeScan, if_neg (Int.not_lt.mpr (Int.le_of_lt hlt)), if_neg (Int.ne_of_lt hlt), hnext]
    dsimp only
    rw [dif_neg (Int.not_lt.mpr (Int.natCast_nonneg _)), Option.getD_some, supernodeScan_end]
    simp only [Int.ofNat_inj]
    rfl
  | cons y pre ih =>
    have hlt := steps_lt h hx hpre hs
    obtain ⟨hnext, -⟩ := next_counted (hx.symm ▸ h) hs
    rw [supernodeScan, if_neg (Int.not_lt.mpr (Int.le_of_lt hlt)), if_neg (Int.ne_of_lt hlt), hnext]
    dsimp only
    rw [dif_neg (Int.not_lt.mpr (Int.natCast_nonneg _)), Option.getD_some,
      ih (hpre y List.mem_cons_self) (fun z hz => hpre z (List.mem_cons_of_mem y hz)) hs.2]
    simp only [Int.ofNat_inj]
    rfl

/-- The nodes from the root to a node below it. -/
theorem below_root {l : Place FlatNode} (h : Lies f strs l.forest) {r : FlatNode} {subs : Forest FlatNode}
    (hone : l.forest = .node r subs .nil) {x : Place FlatNode} {pre : List (Place FlatNode)}
    (hearlier : Place.earlier l.ctx (.node l.label l.subs l.rest) = x :: pre) :
    placeOffset x = 0 ∧ x.ctx.depth = 0 ∧ x.forest = l.forest ∧
      (∀ y ∈ pre ++ [l], y.forest = l.forest ∧ 1 ≤ y.ctx.depth) ∧
      ∃ e, Steps f true (placeOffset x + x.label.opens.length) x.ctx.depth (pre ++ l :: l.later) e 0 := by
  have hplaces := l.places_later
  rw [hearlier, hone, Place.places, Place.places, List.append_nil, List.cons_append] at hplaces
  obtain ⟨rfl, hbelow⟩ := List.cons.inj hplaces
  rw [hone] at h
  have hstart : ((Ctx.down r .nil .top).before FlatNode.opens FlatNode.closes).length = 0 + r.opens.length := by
    rw [Ctx.before, Ctx.before, List.nil_append, Nat.zero_add]
  have hsteps : Steps f true (0 + r.opens.length) 0 _ _ 0 :=
    steps_forest (b := true) (c := .down r .nil .top) (t := subs) h hstart fun _ => Nat.le_refl 1
  rw [hbelow] at hsteps
  refine ⟨rfl, rfl, hone.symm, fun y hy => ?_, _, hsteps⟩
  have hmem : y ∈ Place.places (.down r .nil .top) subs := by
    rw [hbelow]
    rcases List.mem_append.mp hy with hy | hy
    · exact List.mem_append_left _ hy
    · exact List.mem_append_right pre (List.mem_singleton.mp hy ▸ List.mem_cons_self)
  exact ⟨(Place.places_forest y hmem).trans hone.symm, Place.places_depth _ subs y hmem⟩

theorem scan_root {l : Place FlatNode} {r : FlatNode} {subs : Forest FlatNode} (hone : l.forest = .node r subs .nil)
    (hearlier : Place.earlier l.ctx (.node l.label l.subs l.rest) = []) : placeOffset l = 0 ∧ l.ctx.depth = 0 := by
  have hplaces := l.places_later
  rw [hearlier, hone, Place.places] at hplaces
  obtain ⟨hl, -⟩ := List.cons.inj hplaces
  exact ⟨hl ▸ rfl, hl ▸ rfl⟩

section
variable {l : Place FlatNode} {r : FlatNode} {subs : Forest FlatNode}

theorem supernode_flat (h : Lies f strs l.forest) (hone : l.forest = .node r subs .nil) {k : Nat}
    (hk : k ≤ l.ctx.depth) : supernodeAtdepthOffset f (placeOffset l) k =
    (superOf k (Place.earlier l.ctx (.node l.label l.subs l.rest) ++ [l]) (-FDT_ERR_INTERNAL),
      some (l.ctx.depth : Int)) := by
  unfold supernodeAtdepthOffset
  rw [if_neg (Int.not_lt.mpr h.strings.probe), if_neg (Int.not_lt.mpr (Int.natCast_nonneg k))]
  cases hearlier : Place.earlier l.ctx (.node l.label l.subs l.rest) with
  | nil =>
    obtain ⟨hoffset, hdepth⟩ := scan_root hone hearlier
    have hscan := supernodeScan_end (f := f) l k (-FDT_ERR_INTERNAL)
    rw [if_neg (Nat.not_lt.mpr hk), hoffset, hdepth] at hscan
    rw [hoffset, hdepth]
    exact hscan
  | cons x pre =>
    obtain ⟨hzero, hx, hforest, hbelow, e, hsteps⟩ := below_root h hone hearlier
    have hscan := supernodeScan_steps h hforest (fun y hy => (hbelow y (List.mem_append_left [l] hy)).1) hsteps k
      (-FDT_ERR_INTERNAL)
    rw [hzero, hx, if_neg (Nat.not_lt.mpr hk)] at hscan
    exact hscan

theorem nodeDepth_flat (h : Lies f strs l.forest) (hone : l.forest = .node r subs .nil) :
    nodeDepth f (placeOffset l) = l.ctx.depth := by
  have hroot : superOf 0 (Place.earlier l.ctx (.node l.label l.subs l.rest) ++ [l]) (-FDT_ERR_INTERNAL) = 0 := by
    unfold superOf
    cases hearlier : Place.earlier l.ctx (.node l.label l.subs l.rest) with
    | nil =>
      obtain ⟨hoffset, hdepth⟩ := scan_root hone hearlier
      rw [List.nil_append, List.foldl_cons, if_pos hdepth, hoffset]
      rfl
    | cons x pre =>
      obtain ⟨hzero, hx, -, hbelow, -⟩ := below_root h hone hearlier
      rw [List.cons_append, List.foldl_cons, if_pos hx, hzero]
      exact Place.foldl_away (fun y hy => Nat.ne_of_gt (hbelow y hy).2) _ _
  have hsuper := supernode_flat h hone (Nat.zero_le l.ctx.depth)
  unfold nodeDepth
  rw [hroot] at hsuper
  rw [show (0 : Int) = ((0 : Nat) : Int) from rfl, hsuper]
  rfl

theorem parentOffset_flat (h : Lies f strs l.forest) (hone : l.forest = .node r subs .nil) :
    parentOffset f (placeOffset l) = l.ancestors.head?.elim (-FDT_ERR_NOTFOUND) fun l' => (placeOffset l' : Int) := by
  have hlength : l.ancestors.length = l.ctx.depth := Place.aboveHole_length _ _
  have hparent : parentOffset f (placeOffset l) =
      (supernodeAtdepthOffset f (placeOffset l) ((l.ctx.depth : Int) - 1)).1 := by
    unfold parentOffset
    rw [nodeDepth_flat h hone, if_neg (Int.not_lt.mpr (Int.natCast_nonneg _))]
  rw [hparent]
  cases hk : l.ctx.depth with
  | zero =>
    -- the root has no parent
    rw [List.eq_nil_of_length_eq_zero (hlength.trans hk)]
    unfold supernodeAtdepthOffset
    rw [if_neg (Int.not_lt.mpr h.strings.probe)]
    rfl
  | succ k =>
    have hsuper := supernode_flat h hone (k := k) (by omega)
    have hsup : superOf k (Place.earlier l.ctx (.node l.label l.subs l.rest) ++ [l]) (-FDT_ERR_INTERNAL) =
        l.ancestors.head?.elim (-FDT_ERR_INTERNAL) fun l' => (placeOffset l' : Int) := by
      unfold superOf
      rw [List.foldl_append, Place.foldl_earlier hk, List.foldl_cons, if_neg (by omega)]
      rfl
    have hpred : ((k + 1 : Nat) : Int) - 1 = (k : Int) := by omega
    rw [hpred, hsuper, hsup]
    cases hancestors : l.ancestors with
    | nil =>
      rw [hancestors, hk] at hlength
      cases hlength
    | cons l' ls => rfl

end

end

/-! ## Climbing -/

section
variable {m : Mem} {p : Nat} {o : Int} {n : Place NodeData} {r : NodeData} {subs : Forest NodeData}

/-- `fdt_parent_offset` answers the parent. -/
theorem ReadAt.parent {f : Blob} (h : ReadAt f o n) (hone : n.forest = .node r subs .nil) :
    match n.ancestors.head? with
    | none => parentOffset f o = -FDT_ERR_NOTFOUND
    | some n' => ReadAt f (parentOffset f o) n' := by
  obtain ⟨strs, l, hlies, rfl, rfl⟩ := h
  rw [Place.map_forest] at hone
  obtain ⟨a, below, hflat, -, -⟩ := Forest.map_single hone
  rw [parentOffset_flat hlies hflat, Place.ancestors_map]
  cases hancestors : l.ancestors with
  | nil => rfl
  | cons l' ls =>
    have hforest : l'.forest = l.forest := (Place.aboveHole_cons hancestors).2
    exact ⟨strs, l', hforest ▸ hlies, rfl, rfl⟩

theorem getParentNode_eq (m : Mem) (node : NodeHandle) : getParentNode m node =
    if parentOffset (blobAt m node.blob) node.offset < 0 then
      (parentOffset (blobAt m node.blob) node.offset, ⟨0, parentOffset (blobAt m node.blob) node.offset⟩)
    else (FDT_ERR_QC_NOERROR, ⟨node.blob, parentOffset (blobAt m node.blob) node.offset⟩) := rfl

/-- A driver that calls again and again climbs to the root, one node a call, and
its next call fails. -/
theorem parents_climb (h : ReadAt (blobAt m p) o n) (hone : n.forest = .node r subs .nil) (k : Nat) :
    List.Forall₂ (fun (node : NodeHandle) n' => node.blob = p ∧ ReadAt (blobAt m p) node.offset n')
      (calls (getParentNode m) k ⟨p, o⟩).1 (n.ancestors.take k) ∧
    (calls (getParentNode m) k ⟨p, o⟩).2 = if k ≤ n.ctx.depth then FDT_ERR_QC_NOERROR else -FDT_ERR_NOTFOUND := by
  have hrun := calls_enumerate (getParentNode m) Place.ancestors
    (R := fun node n' => (node.blob = p ∧ ReadAt (blobAt m p) node.offset n') ∧ n'.forest = .node r subs .nil)
    (e := -FDT_ERR_NOTFOUND) ?_ ?_ (by decide) (a := ⟨p, o⟩) ⟨⟨rfl, h⟩, hone⟩ k
  · have hdepth : n.ancestors.length = n.ctx.depth := Place.aboveHole_length _ _
    rw [hdepth] at hrun
    exact ⟨hrun.1.imp fun _ _ hr => hr.1, hrun.2⟩
  · rintro ⟨_, o⟩ n ⟨⟨rfl, hnode⟩, hone⟩ hnil
    have hparent := hnode.parent hone
    rw [hnil] at hparent
    rw [getParentNode_eq, hparent]
    rfl
  · rintro ⟨_, o⟩ n n' ns ⟨⟨rfl, hnode⟩, hone⟩ hcons
    have hparent := hnode.parent hone
    rw [hcons] at hparent
    obtain ⟨hrest, hforest⟩ := Place.aboveHole_cons hcons
    rw [getParentNode_eq, if_neg (Int.not_lt.mpr hparent.nonneg)]
    exact ⟨rfl, ⟨⟨rfl, hparent⟩, hforest.trans hone⟩, hrest⟩

/-- From `cpu@0` to the root. -/
theorem parents_small : (calls (getParentNode smallMem) 2 ⟨0, 28⟩).1.length = 1 ∧
    (calls (getParentNode smallMem) 2 ⟨0, 28⟩).2 = -FDT_ERR_NOTFOUND := by
  obtain ⟨hnodes, hlast⟩ := parents_climb small_nodeAt.readAt rfl 2
  exact ⟨hnodes.length_eq, hlast⟩

end

end DTFramework.Fdt
