import DTFramework.Tree.Open

/-!
# Packing a blob

`fdt_pack` gives the room of a blob back: its blocks are moved together, in place,
and the blob ends behind them. It is the same tree (`pack_keeps`), where the
reserve map ends before the structure block, which the call does not check.

Results:

* `packblocks_inPlace`: the blocks are moved down, each over what stood before it;
* `pack_laid`, `pack_keeps`: the same tree and reserve map, in as many bytes as they
  take.
-/
namespace DTFramework.Fdt

open DTFramework.Lib

/-- A size that is negative as an `int` goes to `memmove` as a `size_t`.
mirrors libs/libfdt/fdt_rw.c:494-507 -/
def pack (m : Mem) (p : Nat) : Except Extn.Fault (Int × Mem) :=
  let probe := rwProbe m p
  if probe.1 ≠ 0 then .ok probe
  else
    let f := blobAt probe.2 p
    let memRsvSize := int32 ((numMemRsv f + 1) * 16)
    if memRsvSize < 0 ∨ INT_MAX < sizeDtStruct f ∨ INT_MAX < sizeDtStrings f then .error .outOfBounds
    else
      let packed := packblocks probe.2 p p memRsvSize.toNat (sizeDtStruct f) (sizeDtStrings f)
      .ok (0, setCell packed p 4 (dataSize (blobAt packed p)))

/-! ## In place -/

section
variable {m m' : Mem} {p R : Nat} {i : Image} {t : Forest FlatNode}

/-- A field of a header that stands at `p`. -/
theorem header_field {l : List Nat} {rest : Str} {k v : Nat} (h : At m p (l.flatMap cell ++ rest))
    (hk : l[k]? = some v)
    (hv : v < 2 ^ 32) : be32 (blobAt m p) (4 * k) = v := by
  have hcell := at_cells (at_append.mp (at_blob.mpr h)).1 hk
  rw [Nat.zero_add] at hcell
  exact be32_cell hcell hv

/-- The blocks are moved down, each over what stood before it. -/
theorem packblocks_inPlace (h : Holds m p i) (hR : i.offRsv + R ≤ i.offStruct) :
    ∃ r : Str, r.length = R ∧ At m (p + i.offRsv) r ∧
      At (packblocks m p p R i.struct.length i.strs.length) p
        ([FDT_MAGIC, i.total, 40 + R, 40 + R + i.struct.length, 40, i.version, i.lastComp, i.boot, i.strs.length,
          i.struct.length].flatMap cell ++ (r ++ (i.struct ++ i.strs))) ∧
      Kept p i.size m (packblocks m p p R i.struct.length i.strs.length) := by
  obtain ⟨hle, hstr, hsz, htot⟩ := h.sizes
  have hge := h.ok.rsv_ge
  obtain ⟨r, hr, hrsv⟩ := exists_at m (p + i.offRsv) R
  -- what is read last stands highest, over all that is written before
  have hread : BlocksRead m p p R i i.fields := by
    refine ⟨fun m1 hkept hstands => ?_, fun m1 hkept hstands => ?_, fun m1 hkept hstands => ?_⟩
    · obtain ⟨rest, hat⟩ := hstands
      exact ⟨header_field hat (k := 2) rfl (by omega), h.structText.congr fun a ha _ => hkept a (Or.inr (by omega))⟩
    · obtain ⟨rest, hat⟩ := hstands
      exact ⟨header_field hat (k := 3) rfl (by omega), h.stringsText.congr fun a ha _ => hkept a (Or.inr (by omega))⟩
    · obtain ⟨rest, hat⟩ := hstands
      exact header_field hat (k := 8) rfl (by omega)
  obtain ⟨hat, hkept⟩ := packblocks_text h (at_append.mp h.text).1 rfl hr hrsv hread
  exact ⟨r, hr, hrsv, hat, hkept.mono (by omega)⟩

/-- The text of a packed blob. -/
def Image.packed (i : Image) (r : Str) : Image :=
  ⟨40 + r.length + i.struct.length + i.strs.length, 40, i.version, i.lastComp, i.boot, r, i.struct, [], i.strs⟩

theorem packed_holds (h : Holds m p i) (hR : i.offRsv + R ≤ i.offStruct) (hmap : 16 ≤ R) : ∃ r : Str, r.length = R ∧
    At m (p + i.offRsv) r ∧ Holds (setCell (packblocks m p p R i.struct.length i.strs.length) p 4
      (dataSize (blobAt (packblocks m p p R i.struct.length i.strs.length) p))) p (i.packed r) ∧
    Kept p i.size m (setCell (packblocks m p p R i.struct.length i.strs.length) p 4
      (dataSize (blobAt (packblocks m p p R i.struct.length i.strs.length) p))) := by
  obtain ⟨hle, hstr, hsz, htot⟩ := h.sizes
  have hge := h.ok.rsv_ge
  obtain ⟨r, hr, hrsv, hat, hkept⟩ := packblocks_inPlace h hR
  have hstrings : offDtStrings (blobAt (packblocks m p p R i.struct.length i.strs.length) p) =
      40 + R + i.struct.length := header_field hat (k := 3) rfl (by omega)
  have hsize : sizeDtStrings (blobAt (packblocks m p p R i.struct.length i.strs.length) p) = i.strs.length :=
    header_field hat (k := 8) rfl (by omega)
  have hdata : dataSize (blobAt (packblocks m p p R i.struct.length i.strs.length) p) =
      40 + R + i.struct.length + i.strs.length := by
    unfold dataSize
    rw [hstrings, hsize]
    omega
  rw [hdata]
  have htotal := at_setField (v := 40 + R + i.struct.length + i.strs.length) hat (show 4 = 4 * 1 from rfl)
    (show 1 < 10 by decide)
  refine ⟨r, hr, hrsv, holds_of_at ⟨?_, ?_, h.ok.version, h.ok.version_lt, h.ok.lastComp, Nat.le_refl 40, ?_⟩ h.aligned
    ?_,
    hkept.trans (kept_setCell (by omega))⟩
  · change 40 + r.length + i.struct.length + i.strs.length < INT_MAX
    simp only [INT_MAX]
    omega
  · change 40 + r.length + i.struct.length + 0 + i.strs.length ≤ 40 + r.length + i.struct.length + i.strs.length
    omega
  · change 40 + 16 ≤ 40 + r.length
    omega
  · have hbytes : (i.packed r).bytes = [FDT_MAGIC, 40 + R + i.struct.length + i.strs.length, 40 + R,
        40 + R + i.struct.length, 40, i.version, i.lastComp, i.boot, i.strs.length, i.struct.length].flatMap cell ++
          (r ++ (i.struct ++ i.strs)) := by
      rw [← hr]
      rfl
    rw [hbytes]
    exact htotal

/-- The version alone is written. -/
theorem rwProbe_rd (m : Mem) (p : Nat) {o : Nat} (ho : 24 ≤ o) :
    (blobAt (rwProbe m p).2 p).rd o = (blobAt m p).rd o := by
  rw [blobAt_rd, blobAt_rd]
  unfold rwProbe
  dsimp only
  split_ifs
  · rfl
  · rfl
  · rfl
  · exact store_out (Or.inr (by rw [cell_length]; omega))
  · rfl

/-- `fdt_pack` gives back the room behind the blocks, and the gaps between them. -/
theorem pack_laid (h : Laid m p i t) {n : Nat} (hrsv : numMemRsv (blobAt m p) = n) (hin : InOrder (blobAt m p)) :
    ∃ m' i', pack m p = .ok (0, m') ∧ Laid m' p i' t ∧ i'.strs = i.strs ∧ i'.total = i'.size ∧
      (i'.total : Int) = packedSize (blobAt m p) ∧ i'.total ≤ i.size ∧ SameReserved (blobAt m p) (blobAt m' p) ∧
      Kept p i.total m m' := by
  obtain ⟨hle, hstr, hsz, htot⟩ := h.holds.sizes
  have hr := h.holds.reads
  obtain ⟨m0, hprobe, hholds0, hkept0⟩ := h.holds.rwProbe
  have hfits := hin.rsv_le h.holds hrsv
  have hmap : int32 (((n : Int) + 1) * 16) = (((n + 1) * 16 : Nat) : Int) := by
    rw [int32_of_lt (by omega) (by omega)]
    omega
  have hprobed : RsvMoved m m0 p p i.offRsv i.offRsv ((n + 1) * 16) := fun x _ => by
    have hrd := rwProbe_rd m p (o := i.offRsv + x) (by have := h.holds.ok.rsv_ge; omega)
    rwa [hprobe, blobAt_rd, blobAt_rd, ← Nat.add_assoc] at hrd
  have hnum : numMemRsv (blobAt m0 p) = n :=
    (h.holds.sameReserved hholds0 hrsv (show i.offRsv + (n + 1) * 16 ≤ i.total by omega) hprobed).count.trans hrsv
  obtain ⟨r, hlen, hmap0, hholds, hkept⟩ := packed_holds (i := i.probed) hholds0 hfits (by omega)
  have hroom : 40 + (n + 1) * 16 ≤ 40 + r.length + i.struct.length + i.strs.length := by omega
  have hsame := h.holds.sameReserved hholds hrsv hroom fun x hx => by
    have hmoved := (at_append.mp (at_append.mp hholds.text).2).1.agree hmap0 x (Nat.lt_of_lt_of_eq hx hlen.symm)
    exact hmoved.trans (hprobed x hx)
  refine ⟨_, _, ?_, ⟨hholds, h.struct, h.ok⟩, rfl, ?_, ?_, ?_, hsame, hkept0.trans (hkept.mono hsz)⟩
  · unfold pack
    rw [hprobe]
    dsimp only
    rw [if_neg (not_not.mpr rfl), hnum, hmap, hholds0.reads.sizeStruct, hholds0.reads.sizeStrings, if_neg ?_]
    · rw [Int.toNat_natCast]
    · have hlens : i.probed.struct.length = i.struct.length ∧ i.probed.strs.length = i.strs.length := ⟨rfl, rfl⟩
      simp only [INT_MAX]
      omega
  · rfl
  · unfold packedSize
    rw [hrsv, hr.sizeStruct, hr.sizeStrings]
    change ((40 + r.length + i.struct.length + i.strs.length : Nat) : Int) = _
    omega
  · change 40 + r.length + i.struct.length + i.strs.length ≤ i.size
    have hge := h.holds.ok.rsv_ge
    omega

/-- A packed blob is the same tree with the same reserve map, and ends with what it holds. -/
theorem pack_keeps {t : Forest NodeData} (h : Carries m p t) (hrsv : 0 ≤ numMemRsv (blobAt m p))
    (hin : InOrder (blobAt m p)) : ∃ m', pack m p = .ok (0, m') ∧ Carries m' p t ∧
      SameReserved (blobAt m p) (blobAt m' p) ∧ totalsize (blobAt m' p) = dataSize (blobAt m' p) ∧
      (totalsize (blobAt m' p) : Int) = packedSize (blobAt m p) ∧
      totalsize (blobAt m' p) ≤ dataSize (blobAt m p) ∧ Kept p (totalsize (blobAt m p)) m m' := by
  obtain ⟨i, ft, hlaid, rfl⟩ := h
  obtain ⟨m', i', hcode, hlaid', hstrs, htotal, hsize, hle, hsame, hkept⟩ :=
    pack_laid hlaid (Int.toNat_of_nonneg hrsv).symm hin
  refine ⟨m', hcode, ⟨i', ft, hlaid', by rw [hstrs]⟩, hsame, ?_⟩
  rw [hlaid'.holds.reads.total, hlaid'.holds.dataSize, hlaid.holds.dataSize, hlaid.holds.reads.total]
  exact ⟨htotal, hsize, hle, hkept⟩

end

/-- The small tree, without the room behind it. -/
theorem pack_small : ∃ m', pack smallMem 0 = .ok (0, m') ∧ Carries m' 0 smallNode.forest ∧
    SameReserved (blobAt smallMem 0) (blobAt m' 0) ∧ totalsize (blobAt m' 0) = dataSize (blobAt smallMem 0) := by
  have hin : InOrder (blobAt smallMem 0) := by
    unfold InOrder
    rw [small_rsv]
    decide +kernel
  have hsize : packedSize (blobAt smallMem 0) = dataSize (blobAt smallMem 0) := by
    unfold packedSize
    rw [small_rsv]
    decide +kernel
  obtain ⟨m', hcode, hcarries, hsame, -, htotal, -⟩ := pack_keeps small_nodeAt.carries (by rw [small_rsv]) hin
  exact ⟨m', hcode, hcarries, hsame, Int.ofNat_inj.mp (htotal.trans hsize)⟩

end DTFramework.Fdt
