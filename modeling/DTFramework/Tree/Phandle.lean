import DTFramework.Extn.Value
import DTFramework.Tree.Traverse

/-!
# Phandles of a tree

`fdt_get_phandle` and `fdt_node_offset_by_phandle` on a blob that stands for a
tree: the phandle is read off the node, and the search comes to the nodes in the
order in which they are written out (`Carries.byPhandle`).

Results:

* `findMaxPhandle_flat`: the largest phandle of the tree;
* `nodeOffsetByPhandle_flat`, `Carries.byPhandle`: the first node that has the phandle.
-/
namespace DTFramework.Fdt

open DTFramework.Lib

/-- The value of a property that is one cell. -/
def NodeData.cell (a : NodeData) (name : Str) : Option Nat :=
  (a.value name).bind fun v => if v.length = 4 then some (Extn.bigEndian v) else none

/-- 0 when a node has no phandle. -/
def NodeData.phandle (a : NodeData) : Nat := ((a.cell PHANDLE).or (a.cell LINUX_PHANDLE)).getD 0

/-- The largest phandle of a forest. -/
def maxPhandle (t : Forest NodeData) : Nat := (Place.places .top t).foldl (fun max l => Nat.max max l.label.phandle) 0

/-- The first node with a phandle. -/
def withPhandle (t : Forest NodeData) (phandle : Nat) : Option (Place NodeData) :=
  (Place.places .top t).find? fun l => l.label.phandle == phandle

section
variable {f : Blob} {strs : Str} {o : Nat} {phandle : Nat}

theorem be32_bigEndian {p : Nat} {v : Str} (h : At f.rd p v) (hv : v.length = 4) : be32 f p = Extn.bigEndian v := by
  match v, hv with
  | [a, b, c, d], _ =>
    obtain ⟨ha, hb, hc, hd, -⟩ := h
    unfold be32 Extn.bigEndian
    rw [ha, hb, hc, hd]
    simp

theorem getCell_flat {l : Place FlatNode} (h : Lies f strs l.forest) (name : Str) :
    getCell f (placeOffset l) name = (l.label.data strs).cell name := by
  unfold getCell NodeData.cell
  rcases getprop_flat h name with ⟨hnone, hget⟩ | ⟨v, p, hv, hget, hat, -⟩
  · rw [hnone, hget]
    rfl
  · rw [hv, hget]
    dsimp only [Option.bind_some]
    by_cases h4 : v.length = 4
    · rw [if_pos (by omega), if_pos h4, be32_bigEndian hat h4]
    · rw [if_neg (by omega), if_neg h4]

theorem getPhandle_flat {l : Place FlatNode} (h : Lies f strs l.forest) :
    getPhandle f (placeOffset l) = (l.label.data strs).phandle := by
  unfold getPhandle NodeData.phandle
  rw [getCell_flat h, getCell_flat h]
  cases (l.label.data strs).cell PHANDLE with
  | some v => rfl
  | none => cases (l.label.data strs).cell LINUX_PHANDLE <;> rfl

/-! ## The search -/

theorem nodeOffsetByPhandle_flat {t : Forest FlatNode} (h : Lies f strs t)
    (hp : ¬(phandle = 0 ∨ phandle = 0xffffffff)) :
    nodeOffsetByPhandle f phandle = ((Place.places .top t).find? fun l => (l.label.data strs).phandle == phandle).elim
      (-FDT_ERR_NOTFOUND) fun l => (placeOffset l : Int) := by
  unfold nodeOffsetByPhandle
  rw [if_neg hp, if_neg (Int.not_lt.mpr h.strings.probe)]
  refine h.steps.search h Place.places_forest (fun o hend => ?_) (fun o l hl hnext => ?_) rfl
  · rw [phandleScan, hend]
    rfl
  · have hlies : Lies f strs l.forest := Place.places_forest l hl ▸ h
    rw [phandleScan, hnext, dif_neg (Int.not_lt.mpr (Int.natCast_nonneg _)), getPhandle_flat hlies]
    simp only [beq_iff_eq]

/-! ## The largest -/

/-- The scan of `fdt_find_max_phandle` that goes on from a token. -/
def maxScan (f : Blob) (max : Nat) (o : Int) : Except Int Nat :=
  let next := (nextNodeFrom f o none).1
  if next < 0 then if next = -FDT_ERR_NOTFOUND then .ok max else .error next
  else maxPhandleScan f (Nat.max max (getPhandle f next)) next

theorem maxPhandleScan_node (hf : StructFits f) {a : FlatNode} {subs : Forest FlatNode}
    (h : NodeStands f strs o a subs)
    (max : Nat) : maxPhandleScan f max o = maxScan f max ((o + a.opens.length : Nat) : Int) := by
  rw [maxPhandleScan, nextNode_flat hf h]
  rfl

theorem maxScan_flat {t : Forest FlatNode} (h : Lies f strs t) {ls : List (Place FlatNode)} {d : Int}
    (hs : Steps f false o d ls (flat t).length (-1)) (hls : ∀ l ∈ ls, l.forest = t) (max : Nat) :
    maxScan f max o = .ok (ls.foldl (fun max l => Nat.max max (l.label.data strs).phandle) max) := by
  induction ls generalizing o d max with
  | nil =>
    unfold maxScan
    rw [hs.next h]
    rfl
  | cons l ls ih =>
    have hl : Lies f strs l.forest := hls l List.mem_cons_self ▸ h
    have hrest := ih hs.2 fun l' hl' => hls l' (List.mem_cons_of_mem l hl')
    unfold maxScan
    rw [hs.next h, List.head?_cons, Option.elim_some]
    dsimp only
    rw [getPhandle_flat hl, maxPhandleScan_node h.fits hl.here, hrest, if_neg (Int.not_lt.mpr (Int.natCast_nonneg _)),
      List.foldl_cons]

theorem findMaxPhandle_flat {t : Forest FlatNode} (h : Lies f strs t) :
    findMaxPhandle f = .ok (maxPhandle (t.map (FlatNode.data strs))) := by
  have hscan := maxScan_flat h h.steps Place.places_forest 0
  have hmap : Place.places .top (t.map (FlatNode.data strs)) = (Place.places .top t).map
      (Place.map (FlatNode.data strs)) :=
    Place.places_map _ .top t
  unfold findMaxPhandle maxPhandle
  rw [hmap, List.foldl_map, maxPhandleScan]
  exact hscan

end

/-- The search by phandle finds what it finds in the tree. -/
theorem Carries.byPhandle {m : Mem} {p phandle : Nat} {t : Forest NodeData} (h : Carries m p t)
    (hp : ¬(phandle = 0 ∨ phandle = 0xffffffff)) :
    match withPhandle t phandle with
    | none => nodeOffsetByPhandle (blobAt m p) phandle = -FDT_ERR_NOTFOUND
    | some n => NodeAt m p (nodeOffsetByPhandle (blobAt m p) phandle) n := by
  obtain ⟨i, ft, hlaid, rfl⟩ := h
  have hflat := nodeOffsetByPhandle_flat hlaid.lies hp
  have hmap : withPhandle (ft.map (FlatNode.data i.strs)) phandle = ((Place.places .top ft).find?
      fun l => (l.label.data i.strs).phandle == phandle).map (Place.map (FlatNode.data i.strs)) := by
    have hplaces : Place.places .top (ft.map (FlatNode.data i.strs)) = (Place.places .top ft).map
      (Place.map (FlatNode.data i.strs)) := Place.places_map _ .top ft
    unfold withPhandle
    rw [hplaces, List.find?_map]
    rfl
  rw [hmap, hflat]
  cases hfind : (Place.places .top ft).find? fun l => (l.label.data i.strs).phandle == phandle with
  | none => rfl
  | some l =>
    have hforest : l.forest = ft := Place.places_forest l (List.mem_of_find?_eq_some hfind)
    exact ⟨i, l, hforest.symm ▸ hlaid, rfl, rfl⟩

end DTFramework.Fdt
