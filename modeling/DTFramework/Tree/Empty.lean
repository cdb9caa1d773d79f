import DTFramework.Tree.Open

/-!
# Creating a tree

`fdt_create_empty_tree` writes a tree that is one node with the sequential writer
of `fdt_sw.c`, and opens it into the buffer it was written in. The writer keeps its
state in the header: the magic number says that the tree is not finished, and the
offset of the strings which part is being written.

Results:

* `Draft.grabSpace`, `Draft.write`: one part is written, or there is no space for it;
* `Draft.beginNode`, `Draft.token`, `Draft.finish`: the parts of the tree, in order;
* `createEmptyTree_bare`: eighty bytes are enough, and less are not.
-/
namespace DTFramework.Fdt

open DTFramework.Lib

/-! ## The code -/

abbrev FDT_ERR_BADFLAGS : Int := 18
abbrev FDT_CREATE_FLAGS_ALL : Nat := 1

/-- mirrors libs/libfdt/fdt_sw.c:13-23 (`fdt_sw_probe_`) -/
def swProbe (f : Blob) : Int :=
  if magic f = FDT_MAGIC then -FDT_ERR_BADSTATE else if magic f ≠ FDT_SW_MAGIC then -FDT_ERR_BADMAGIC else 0

/-- mirrors libs/libfdt/fdt_sw.c:38-47 (`fdt_sw_probe_memrsv_`) -/
def swProbeMemrsv (f : Blob) : Int :=
  if swProbe f ≠ 0 then swProbe f else if offDtStrings f ≠ 0 then -FDT_ERR_BADSTATE else 0

/-- mirrors libs/libfdt/fdt_sw.c:64-74 (`fdt_sw_probe_struct_`) -/
def swProbeStruct (f : Blob) : Int :=
  if swProbe f ≠ 0 then swProbe f else if offDtStrings f ≠ totalsize f then -FDT_ERR_BADSTATE else 0

/-- mirrors libs/libfdt/fdt_sw.c:94-107 (`fdt_grab_space_`): the position of the
space in the blob. -/
def grabSpace (m : Mem) (p len : Nat) : Option Nat × Mem :=
  let f := blobAt m p
  let spaceleft := (totalsize f + 0x200000000 - offDtStruct f - sizeDtStrings f) % 0x100000000
  if spaceleft < sizeDtStruct f + len then (none, m)
  else (some (offDtStruct f + sizeDtStruct f), setCell m p 36 (sizeDtStruct f + len))

/-- mirrors libs/libfdt/fdt_sw.c:109-141 -/
def createWithFlags (m : Mem) (buf : Nat) (bufsize : Int) (flags : Nat) : Int × Mem :=
  if bufsize < 48 then (-FDT_ERR_NOSPACE, m)
  else if FDT_CREATE_FLAGS_ALL < flags then (-FDT_ERR_BADFLAGS, m)
  else
    let m1 := setCell (store m buf (List.replicate bufsize.toNat 0)) buf 0 FDT_SW_MAGIC
    let m2 := setCell (setCell (setCell m1 buf 20 FDT_LAST_SUPPORTED_VERSION) buf 24 flags) buf 4 bufsize.toNat
    let m3 := setCell m2 buf 16 48
    (0, setCell (setCell m3 buf 8 (offMemRsvmap (blobAt m3 buf))) buf 12 0)

/-- mirrors libs/libfdt/fdt_sw.c:143-146 -/
def create (m : Mem) (buf : Nat) (bufsize : Int) : Int × Mem := createWithFlags m buf bufsize 0

/-- The address and the size are numbers of 64 bits.
mirrors libs/libfdt/fdt_sw.c:188-206 -/
def addReservemapEntry (m : Mem) (p addr size : Nat) : Int × Mem :=
  let f := blobAt m p
  if swProbeMemrsv f ≠ 0 then (swProbeMemrsv f, m)
  else
    let offset := int32 (offDtStruct f)
    if totalsize f < (offset + 16) % 0x10000000000000000 then (-FDT_ERR_NOSPACE, m)
    else
      let entry := cell (addr / 0x100000000) ++ (cell addr ++ (cell (size / 0x100000000) ++ cell size))
      (0, setCell (store m (p + offset).toNat entry) p 8 (offset + 16).toNat)

/-- mirrors libs/libfdt/fdt_sw.c:208-217 -/
def finishReservemap (m : Mem) (p : Nat) : Int × Mem :=
  let r := addReservemapEntry m p 0 0
  if r.1 ≠ 0 then r else (0, setCell r.2 p 12 (totalsize (blobAt r.2 p)))

/-- mirrors libs/libfdt/fdt_sw.c:219-234 -/
def beginNode (m : Mem) (p : Nat) (name : Str) : Int × Mem :=
  if swProbeStruct (blobAt m p) ≠ 0 then (swProbeStruct (blobAt m p), m)
  else
    match grabSpace m p (4 + tagAlign (name.length + 1)) with
    | (none, m1) => (-FDT_ERR_NOSPACE, m1)
    | (some nh, m1) => (0, store (setCell m1 p nh FDT_BEGIN_NODE) (p + (nh + 4)) (name ++ [0]))

/-- mirrors libs/libfdt/fdt_sw.c:236-248 -/
def endNode (m : Mem) (p : Nat) : Int × Mem :=
  if swProbeStruct (blobAt m p) ≠ 0 then (swProbeStruct (blobAt m p), m)
  else
    match grabSpace m p FDT_TAGSIZE with
    | (none, m1) => (-FDT_ERR_NOSPACE, m1)
    | (some en, m1) => (0, setCell m1 p en FDT_END_NODE)

/-- The walk of `fdt_finish` over the structure block: the string offsets are
corrected, and the last offset is answered.
mirrors libs/libfdt/fdt_sw.c:360-374 -/
def finishWalk (m : Mem) (p : Nat) (offset : Int) : Int × Mem :=
  if _h : (nextTag (blobAt m p) offset).1 = FDT_END then ((nextTag (blobAt m p) offset).2, m)
  else
    let f := blobAt m p
    let prop := offDtStruct f + offset.toNat
    let m1 := if (nextTag f offset).1 = FDT_PROP then setCell m p (prop + 8) (be32 f (prop + 8) + sizeDtStrings f)
      else m
    finishWalk m1 p (nextTag f offset).2
termination_by room offset
decreasing_by exact nextTag_room _h

/-- mirrors libs/libfdt/fdt_sw.c:337-384 -/
def finish (m : Mem) (p : Nat) : Int × Mem :=
  if swProbeStruct (blobAt m p) ≠ 0 then (swProbeStruct (blobAt m p), m)
  else
    match grabSpace m p 4 with
    | (none, m1) => (-FDT_ERR_NOSPACE, m1)
    | (some en, m1) =>
      let m2 := setCell m1 p en FDT_END
      let f := blobAt m2 p
      let oldstroffset := totalsize f - sizeDtStrings f
      let newstroffset := offDtStruct f + sizeDtStruct f
      let m3 := setCell (copy m2 (p + newstroffset) (p + oldstroffset) (sizeDtStrings f)) p 12 newstroffset
      let walk := finishWalk m3 p 0
      if walk.1 < 0 then walk
      else
        let m4 := setCell walk.2 p 4 (newstroffset + sizeDtStrings (blobAt walk.2 p))
        (0, setCell (setCell m4 p 24 16) p 0 FDT_MAGIC)

/-- mirrors libs/libfdt/fdt_empty_tree.c:13-38 -/
def createEmptyTree (m : Mem) (buf : Nat) (bufsize : Int) : Except Extn.Fault (Int × Mem) :=
  let created := create m buf bufsize
  if created.1 ≠ 0 then .ok created
  else
    let reserved := finishReservemap created.2 buf
    if reserved.1 ≠ 0 then .ok reserved
    else
      let begun := beginNode reserved.2 buf []
      if begun.1 ≠ 0 then .ok begun
      else
        let ended := endNode begun.2 buf
        if ended.1 ≠ 0 then .ok ended
        else
          let finished := finish ended.2 buf
          if finished.1 ≠ 0 then .ok finished else openInto finished.2 buf buf bufsize

/-! ## Drafts -/

section
variable {m m' : Mem} {p size k len : Nat} {l : List Nat} {rest text b c d : Str}

theorem at_field (h : At m p (l.flatMap cell ++ rest)) {o v : Nat} (ho : o = 4 * k) (hk : l[k]? = some v)
    (hv : v < 2 ^ 32) : be32 (blobAt m p) o = v := by
  subst ho
  exact be32_cell ((at_cells (at_append.mp h).1 hk).move fun _ _ => by rw [blobAt_rd, Nat.add_assoc]) hv

/-- A tree that is being written: the header, and the blocks so far. -/
def Draft (m : Mem) (p size k : Nat) (text : Str) : Prop :=
  ∃ rest, 40 + text.length + rest.length = size ∧
    At m p ([FDT_SW_MAGIC, size, 64, size, 48, 17, 0, 0, 0, k].flatMap cell ++ (text ++ rest))

theorem Draft.fields (h : Draft m p size k text) (hsize : size < INT_MAX) (hk : k < INT_MAX) :
    magic (blobAt m p) = FDT_SW_MAGIC ∧ totalsize (blobAt m p) = size ∧ offDtStruct (blobAt m p) = 64 ∧
      offDtStrings (blobAt m p) = size ∧ sizeDtStrings (blobAt m p) = 0 ∧ sizeDtStruct (blobAt m p) = k ∧
      version (blobAt m p) = 17 := by
  obtain ⟨rest, -, hat⟩ := h
  simp only [INT_MAX] at hsize hk
  exact ⟨at_field (k := 0) hat rfl rfl (by decide), at_field (k := 1) hat rfl rfl (by omega),
    at_field (k := 2) hat rfl rfl (by decide), at_field (k := 3) hat rfl rfl (by omega),
    at_field (k := 8) hat rfl rfl (by decide), at_field (k := 9) hat rfl rfl (by omega),
    at_field (k := 5) hat rfl rfl (by decide)⟩

theorem Draft.probe (h : Draft m p size k text) (hsize : size < INT_MAX) (hk : k < INT_MAX) :
    swProbeStruct (blobAt m p) = 0 := by
  obtain ⟨hmagic, htotal, -, hoff, -⟩ := h.fields hsize hk
  have hprobe : swProbe (blobAt m p) = 0 := by
    unfold swProbe
    rw [hmagic, if_neg (by decide)]
    exact if_neg (not_not.mpr rfl)
  unfold swProbeStruct
  rw [hprobe, if_neg (not_not.mpr rfl), hoff, htotal]
  exact if_neg (not_not.mpr rfl)

/-- Space behind the blocks. -/
theorem Draft.grabSpace (h : Draft m p size k text) (hsize : size < INT_MAX) (htext : text.length = 24 + k)
    (hlen : k + len < INT_MAX) :
    (64 + k + len ≤ size ∧ ∃ m' b, grabSpace m p len = (some (64 + k), m') ∧ b.length = len ∧
        Draft m' p size (k + len) (text ++ b) ∧ Kept p size m m') ∨
      (size < 64 + k + len ∧ Fdt.grabSpace m p len = (none, m)) := by
  obtain ⟨-, htotal, hstruct, -, hstrs, hsk, -⟩ := h.fields hsize (by omega)
  obtain ⟨rest, hrest, hat⟩ := h
  have hcode : Fdt.grabSpace m p len = if size - 64 < k + len then (none, m) else
    (some (64 + k), setCell m p 36 (k + len)) := by
    unfold Fdt.grabSpace
    dsimp only
    rw [htotal, hstruct, hstrs, hsk]
    simp only [INT_MAX] at hsize
    rw [show (size + 0x200000000 - 64 - 0) % 0x100000000 = size - 64 by omega]
  rw [hcode]
  by_cases hroom : 64 + k + len ≤ size
  · refine Or.inl ⟨hroom, setCell m p 36 (k + len), rest.take len, if_neg (by omega), ?_, ⟨rest.drop len, ?_, ?_⟩,
      kept_setCell (by omega)⟩
    · rw [List.length_take]
      omega
    · rw [List.length_append, List.length_take, List.length_drop]
      omega
    · rw [List.append_assoc, List.take_append_drop]
      exact at_setField hat (show 36 = 4 * 9 from rfl) (show 9 < 10 by decide)
  · exact Or.inr ⟨by omega, if_pos (by omega)⟩

/-- A part of the blocks is written. -/
theorem Draft.write (h : Draft m p size k (text ++ (b ++ c))) (hlen : d.length = b.length) {o : Nat}
    (ho : o = 40 + text.length) :
    Draft (store m (p + o) d) p size k (text ++ (d ++ c)) ∧ Kept p size m (store m (p + o) d) := by
  subst ho
  obtain ⟨rest, hrest, hat⟩ := h
  have hsplit : [FDT_SW_MAGIC, size, 64, size, 48, 17, 0, 0, 0, k].flatMap cell ++ (text ++ (b ++ c) ++ rest) =
      ([FDT_SW_MAGIC, size, 64, size, 48, 17, 0, 0, 0, k].flatMap cell ++ text) ++ (b ++ (c ++ rest)) := by
    simp only [List.append_assoc]
  rw [hsplit] at hat
  have hover := at_overwrite hat hlen
  have hheader : ([FDT_SW_MAGIC, size, 64, size, 48, 17, 0, 0, 0, k].flatMap cell).length = 40 := rfl
  rw [List.length_append, hheader] at hover
  simp only [List.length_append] at hrest
  refine ⟨⟨rest, by simp only [List.length_append]; omega, ?_⟩, kept_store (by omega)⟩
  simpa only [List.append_assoc] using hover

/-! ## The steps -/

/-- The header of a new draft, before the reserve map. -/
theorem create_fresh (h48 : 48 ≤ size) :
    ∃ rest, 40 + rest.length = size ∧
      At (create m p size).2 p ([FDT_SW_MAGIC, size, 48, 0, 48, 17, 0, 0, 0, 0].flatMap cell ++ rest) ∧
      (create m p size).1 = 0 ∧ Kept p size m (create m p size).2 := by
  have hzeros : List.replicate size 0 = (List.replicate 10 0).flatMap cell ++ List.replicate (size - 40)
      (0 : UInt8) := by
    have hcells : (List.replicate 10 0).flatMap cell = List.replicate 40 (0 : UInt8) := rfl
    rw [hcells, List.replicate_append_replicate]
    congr 1
    omega
  have hcode : create m p size = (0, setCell (setCell (setCell (setCell (setCell (setCell (setCell (store m p
      (List.replicate size 0)) p 0 FDT_SW_MAGIC) p 20 FDT_LAST_SUPPORTED_VERSION) p 24 0) p 4 size) p 16 48) p 8
        (offMemRsvmap (blobAt (setCell (setCell (setCell (setCell (setCell (store m p (List.replicate size 0)) p 0
          FDT_SW_MAGIC) p 20 FDT_LAST_SUPPORTED_VERSION) p 24 0) p 4 size) p 16 48) p))) p 12 0) := by
    unfold create createWithFlags
    rw [if_neg (by omega), if_neg (by decide), Int.toNat_natCast]
  have h0 := store_at m p (List.replicate size (0 : UInt8))
  have k0 : Kept p size m (store m (p + 0) (List.replicate size 0)) :=
    kept_store (by rw [List.length_replicate]; omega)
  rw [Nat.add_zero] at k0
  rw [hcode]
  generalize store m p (List.replicate size 0) = m0 at h0 k0 ⊢
  rw [hzeros] at h0
  have h1 := at_setField (v := FDT_SW_MAGIC) h0 (show 0 = 4 * 0 from rfl) (show 0 < 10 by decide)
  have h2 := at_setField (v := FDT_LAST_SUPPORTED_VERSION) h1 (show 20 = 4 * 5 from rfl) (show 5 < 10 by decide)
  have h3 := at_setField (v := 0) h2 (show 24 = 4 * 6 from rfl) (show 6 < 10 by decide)
  have h4 := at_setField (v := size) h3 (show 4 = 4 * 1 from rfl) (show 1 < 10 by decide)
  have h5 := at_setField (v := 48) h4 (show 16 = 4 * 4 from rfl) (show 4 < 10 by decide)
  have hoff : offMemRsvmap (blobAt (setCell (setCell (setCell (setCell (setCell m0 p 0 FDT_SW_MAGIC) p 20
      FDT_LAST_SUPPORTED_VERSION) p 24 0) p 4 size) p 16 48) p) = 48 :=
    at_field (k := 4) h5 rfl rfl (by decide)
  rw [hoff]
  have h6 := at_setField (v := 48) h5 (show 8 = 4 * 2 from rfl) (show 2 < 10 by decide)
  have h7 := at_setField (v := 0) h6 (show 12 = 4 * 3 from rfl) (show 3 < 10 by decide)
  have hset {m : Mem} {o v : Nat} (ho : o ≤ 28) : Kept p size m (setCell m p o v) := kept_setCell (by omega)
  refine ⟨List.replicate (size - 40) 0, by rw [List.length_replicate]; omega, h7, rfl, ?_⟩
  exact ((((((k0.trans (hset (by decide))).trans (hset (by decide))).trans (hset (by decide))).trans
    (hset (by decide))).trans (hset (by decide))).trans (hset (by decide))).trans (hset (by decide))

/-- The reserve map is its last entry. -/
theorem reserve_draft (hsize : size < INT_MAX)
    (h : At m p ([FDT_SW_MAGIC, size, 48, 0, 48, 17, 0, 0, 0, 0].flatMap cell ++ rest))
    (hrest : 40 + rest.length = size) :
    (64 ≤ size ∧ ∃ m' a, finishReservemap m p = (0, m') ∧ a.length = 8 ∧ Draft m' p size 0 (a ++ List.replicate 16 0) ∧
        Kept p size m m') ∨
      (size < 64 ∧ finishReservemap m p = (-FDT_ERR_NOSPACE, m)) := by
  simp only [INT_MAX] at hsize
  have hmagic : magic (blobAt m p) = FDT_SW_MAGIC := at_field (k := 0) h rfl rfl (by decide)
  have htotal : totalsize (blobAt m p) = size := at_field (k := 1) h rfl rfl (by omega)
  have hstruct : offDtStruct (blobAt m p) = 48 := at_field (k := 2) h rfl rfl (by decide)
  have hstrs : offDtStrings (blobAt m p) = 0 := at_field (k := 3) h rfl rfl (by decide)
  have hprobe : swProbeMemrsv (blobAt m p) = 0 := by
    unfold swProbeMemrsv swProbe
    rw [hmagic, hstrs, if_neg (by decide)]
    rfl
  have hadd : addReservemapEntry m p 0 0 = if size < 64 then (-FDT_ERR_NOSPACE, m) else
      (0, setCell (store m (p + 48) (List.replicate 16 0)) p 8 64) := by
    unfold addReservemapEntry
    dsimp only
    rw [hprobe, if_neg (not_not.mpr rfl), htotal, hstruct]
    by_cases h64 : size < 64
    · rw [if_pos h64]
      exact if_pos (by rw [show int32 (48 : Nat) = 48 from rfl]; omega)
    · rw [if_neg h64]
      exact if_neg (by rw [show int32 (48 : Nat) = 48 from rfl]; omega)
  unfold finishReservemap
  rw [hadd]
  by_cases h64 : size < 64
  · rw [if_pos h64]
    exact Or.inr ⟨h64, rfl⟩
  · rw [if_neg h64]
    have hsplit : rest = rest.take 8 ++ ((rest.drop 8).take 16 ++ (rest.drop 8).drop 16) := by
      rw [List.take_append_drop, List.take_append_drop]
    rw [hsplit, ← List.append_assoc] at h
    have hover := at_overwrite (d := List.replicate 16 0) h (by
      rw [List.length_replicate, List.length_take, List.length_drop]
      omega)
    have hlen : ([FDT_SW_MAGIC, size, 48, 0, 48, 17, 0, 0, 0, 0].flatMap cell ++ rest.take 8).length = 48 := by
      rw [List.length_append, List.length_take, Nat.min_eq_left (by omega)]
      rfl
    rw [hlen, List.append_assoc] at hover
    have h1 := at_setField (v := 64) hover (show 8 = 4 * 2 from rfl) (show 2 < 10 by decide)
    have htotal' : totalsize (blobAt (setCell (store m (p + 48) (List.replicate 16 0)) p 8 64) p) = size :=
      at_field (k := 1) h1 rfl rfl (by omega)
    have h2 := at_setField (v := size) h1 (show 12 = 4 * 3 from rfl) (show 3 < 10 by decide)
    refine Or.inl ⟨by omega, setCell (setCell (store m (p + 48) (List.replicate 16 0)) p 8 64) p 12 size,
      rest.take 8, ?_,
      ?_, ⟨(rest.drop 8).drop 16, ?_, ?_⟩, ?_⟩
    · dsimp only
      rw [htotal']
      exact if_neg (not_not.mpr rfl)
    · rw [List.length_take]
      omega
    · simp only [List.length_append, List.length_take, List.length_drop, List.length_replicate]
      omega
    · rw [List.append_assoc]
      exact h2
    · exact ((kept_store (by rw [List.length_replicate]; omega)).trans (kept_setCell (by omega))).trans
        (kept_setCell (by omega))

/-- The root is begun. -/
theorem Draft.beginNode (h : Draft m p size k text) (hsize : size < INT_MAX) (htext : text.length = 24 + k)
    (hk : k < 1000) :
    (64 + k + 8 ≤ size ∧ ∃ m' pad, beginNode m p [] = (0, m') ∧ pad.length = 3 ∧
        Draft m' p size (k + 8) (text ++ (cell FDT_BEGIN_NODE ++ 0 :: pad)) ∧ Kept p size m m') ∨
      (size < 64 + k + 8 ∧ Fdt.beginNode m p [] = (-FDT_ERR_NOSPACE, m)) := by
  unfold Fdt.beginNode
  rw [h.probe hsize (by simp only [INT_MAX]; omega), if_neg (not_not.mpr rfl)]
  rcases h.grabSpace hsize htext (show k + 8 < INT_MAX by simp only [INT_MAX]; omega) with
    ⟨hroom, m1, b, hgrab, hb, hdraft, hkept⟩ | ⟨hfull, hgrab⟩
  · have hgrab' : Fdt.grabSpace m p (4 + tagAlign (([] : Str).length + 1)) = (some (64 + k), m1) := hgrab
    rw [hgrab']
    have hb4 : b = b.take 4 ++ ((b.drop 4).take 1 ++ (b.drop 4).drop 1) := by
      rw [List.take_append_drop, List.take_append_drop]
    rw [hb4] at hdraft
    have hw1 := hdraft.write (d := cell FDT_BEGIN_NODE) (o := 64 + k) (by
      rw [List.length_take, cell_length]
      omega) (by omega)
    have hdraft1 : Draft (store m1 (p + (64 + k)) (cell FDT_BEGIN_NODE)) p size (k + 8)
        (text ++ cell FDT_BEGIN_NODE ++ ((b.drop 4).take 1 ++ (b.drop 4).drop 1)) := by
      rw [List.append_assoc]
      exact hw1.1
    have hw2 := (hdraft1.write (d := [0]) (o := 64 + k + 4) (by
      rw [List.length_take, List.length_drop, List.length_singleton]
      omega) (by
      rw [List.length_append, cell_length]
      omega))
    refine Or.inl ⟨hroom, _, (b.drop 4).drop 1, rfl, ?_, ?_, hkept.trans (hw1.2.trans hw2.2)⟩
    · rw [List.length_drop, List.length_drop]
      omega
    · have hdone := hw2.1
      rw [List.append_assoc] at hdone
      exact hdone
  · have hgrab' : Fdt.grabSpace m p (4 + tagAlign (([] : Str).length + 1)) = (none, m) := hgrab
    rw [hgrab']
    exact Or.inr ⟨hfull, rfl⟩

/-- A token is written. -/
theorem Draft.token (h : Draft m p size k text) (hsize : size < INT_MAX) (htext : text.length = 24 + k)
    (hk : k < 1000) (v : Nat) :
    (64 + k + 4 ≤ size ∧ ∃ m', Fdt.grabSpace m p 4 = (some (64 + k), m') ∧
        Draft (setCell m' p (64 + k) v) p size (k + 4) (text ++ cell v) ∧ Kept p size m (setCell m' p (64 + k) v)) ∨
      (size < 64 + k + 4 ∧ Fdt.grabSpace m p 4 = (none, m)) := by
  rcases h.grabSpace hsize htext (show k + 4 < INT_MAX by simp only [INT_MAX]; omega) with
    ⟨hroom, m1, b, hgrab, hb, hdraft, hkept⟩ | ⟨hfull, hgrab⟩
  · have hdraft' : Draft m1 p size (k + 4) (text ++ (b ++ [])) := by rwa [List.append_nil]
    have hw := hdraft'.write (d := cell v) (o := 64 + k) (by rw [hb, cell_length]) (by omega)
    rw [List.append_nil] at hw
    exact Or.inl ⟨hroom, m1, hgrab, hw.1, hkept.trans hw.2⟩
  · exact Or.inr ⟨hfull, hgrab⟩

theorem Draft.endNode (h : Draft m p size k text) (hsize : size < INT_MAX) (htext : text.length = 24 + k)
    (hk : k < 1000) :
    (64 + k + 4 ≤ size ∧ ∃ m', Fdt.endNode m p = (0, m') ∧ Draft m' p size (k + 4) (text ++ cell FDT_END_NODE) ∧
        Kept p size m m') ∨
      (size < 64 + k + 4 ∧ Fdt.endNode m p = (-FDT_ERR_NOSPACE, m)) := by
  unfold Fdt.endNode
  rw [h.probe hsize (by simp only [INT_MAX]; omega), if_neg (not_not.mpr rfl)]
  rcases h.token hsize htext hk FDT_END_NODE with ⟨hroom, m1, hgrab, hdraft, hkept⟩ | ⟨hfull, hgrab⟩
  · have hgrab' : Fdt.grabSpace m p FDT_TAGSIZE = (some (64 + k), m1) := hgrab
    rw [hgrab']
    exact Or.inl ⟨hroom, setCell m1 p (64 + k) FDT_END_NODE, rfl, hdraft, hkept⟩
  · have hgrab' : Fdt.grabSpace m p FDT_TAGSIZE = (none, m) := hgrab
    rw [hgrab']
    exact Or.inr ⟨hfull, rfl⟩

/-- The tree of one node, as it is written: what pads the empty name is what was there. -/
def bareRoot (pad : Str) : Forest FlatNode := .node ⟨[], pad, [], 0⟩ .nil .nil

/-- The walk over a tree without properties changes nothing. -/
theorem finishWalk_bare {pad : Str} (hf : StructFits (blobAt m p)) (hpad : pad.length = 3)
    (h : Stands (blobAt m p) 0 (flat (bareRoot pad) ++ cell FDT_END)) : finishWalk m p 0 = (16, m) := by
  have hok : (⟨[], pad, [], 0⟩ : FlatNode).Ok [] := by
    refine ⟨List.not_mem_nil, ?_, fun i hi => absurd hi List.not_mem_nil⟩
    unfold Padded
    change (0 + 1 + pad.length) % 4 = 0 ∧ pad.length < 4
    omega
  have hflat : flat (bareRoot pad) ++ cell FDT_END =
      (⟨[], pad, [], 0⟩ : FlatNode).header ++ (cell FDT_END_NODE ++ cell FDT_END) := by
    unfold bareRoot flat Forest.linear FlatNode.opens FlatNode.closes itemBytes nops
    simp [Forest.linear]
  have hlen : (⟨[], pad, [], 0⟩ : FlatNode).header.length = 8 := by
    rw [header_length, hpad]
    rfl
  rw [hflat, Stands.append, Stands.append, hlen, cell_length] at h
  have htag0 := nextTag_begin hf hok h.1.1 rfl h.1.2
  have htag1 := nextTag_plain hf (Or.inr (Or.inl rfl)) h.2.1.1 rfl h.2.1.2
  have htag2 := nextTag_plain hf (Or.inl rfl) h.2.2.1 rfl h.2.2.2
  rw [hlen] at htag0
  have hwalk {o : Nat} {tag e : Nat} (ht : nextTag (blobAt m p) o = (tag, (e : Int))) (hend : tag ≠ FDT_END)
      (hprop : tag ≠ FDT_PROP) : finishWalk m p o = finishWalk m p e := by
    rw [finishWalk]
    rw [dif_neg (by rw [ht]; exact hend)]
    dsimp only
    rw [ht, if_neg hprop]
  have h0 : finishWalk m p 0 = finishWalk m p ((0 + 8 : Nat) : Int) := hwalk (o := 0) htag0 (by decide) (by decide)
  rw [h0, hwalk htag1 (by decide) (by decide), finishWalk]
  rw [dif_pos (by rw [htag2]), htag2]
  rfl

theorem copy_zero (m : Mem) (dst src : Nat) : copy m dst src 0 = m := by
  funext a
  exact copy_out m (by omega)

/-- The image of a tree of one node. -/
def bareImage (reserved pad : Str) : Image where
  total := 80
  offRsv := 48
  version := 17
  lastComp := 16
  boot := 0
  reserved := reserved
  struct := flat (bareRoot pad) ++ cell FDT_END
  gap := []
  strs := []

theorem bareRoot_ok {pad : Str} (hpad : pad.length = 3) : (bareRoot pad).All (FlatNode.Ok []) := by
  refine ⟨⟨List.not_mem_nil, ?_, fun i hi => absurd hi List.not_mem_nil⟩, trivial, trivial⟩
  unfold Padded
  rw [hpad]
  change (0 + 1 + 3) % 4 = 0 ∧ 3 < 4
  decide

theorem bareRoot_length {pad : Str} (hpad : pad.length = 3) : (flat (bareRoot pad) ++ cell FDT_END).length = 16 := by
  have hflat : flat (bareRoot pad) ++ cell FDT_END =
      cell FDT_BEGIN_NODE ++ (0 :: pad ++ (cell FDT_END_NODE ++ cell FDT_END)) := by
    unfold bareRoot flat Forest.linear FlatNode.opens FlatNode.closes itemBytes nops
    simp [Forest.linear, FlatNode.header]
  rw [hflat]
  simp only [List.length_append, List.length_cons, cell_length, hpad]

theorem bareImage_fields {reserved pad : Str} (hres : reserved.length = 24) (hpad : pad.length = 3) :
    (bareImage reserved pad).fields = [FDT_MAGIC, 80, 64, 80, 48, 17, 16, 0, 0, 16] := by
  have hlen : (bareImage reserved pad).struct.length = 16 := bareRoot_length hpad
  have hoff : (bareImage reserved pad).offStruct = 64 := by
    change 40 + reserved.length = 64
    rw [hres]
  unfold Image.fields Image.offStrings
  rw [hlen, hoff]
  rfl

theorem bareImage_bytes {reserved pad : Str} (hres : reserved.length = 24) (hpad : pad.length = 3) :
    (bareImage reserved pad).bytes = [FDT_MAGIC, 80, 64, 80, 48, 17, 16, 0, 0, 16].flatMap cell ++
      (reserved ++ (flat (bareRoot pad) ++ cell FDT_END)) := by
  unfold Image.bytes
  rw [bareImage_fields hres hpad]
  unfold Image.blocks bareImage
  rw [List.append_nil, List.append_nil]

theorem bareImage_ok {reserved pad : Str} (hres : reserved.length = 24) (hpad : pad.length = 3) :
    (bareImage reserved pad).Ok := by
  refine ⟨(by decide : 80 < INT_MAX), ?_, Nat.le_refl 17, (by decide : 17 < 2 ^ 32), (by decide : 16 ≤ 17),
    (by decide : 40 ≤ 48), ?_⟩
  · rw [← bytes_length, bareImage_bytes hres hpad, List.length_append, List.length_append, hres, bareRoot_length hpad]
    exact Nat.le_refl 80
  · change 48 + 16 ≤ 40 + reserved.length
    omega

/-- The tree is finished: the header says what it says of other trees. -/
theorem Draft.finish {reserved pad : Str} (hsize : size < INT_MAX) (hres : reserved.length = 24)
    (hpad : pad.length = 3)
    (hp : p % 8 = 0) (h : Draft m p size 12 (reserved ++ flat (bareRoot pad))) :
    (80 ≤ size ∧ ∃ m', Fdt.finish m p = (0, m') ∧ Laid m' p (bareImage reserved pad) (bareRoot pad) ∧
      Kept p size m m') ∨
      (size < 80 ∧ Fdt.finish m p = (-FDT_ERR_NOSPACE, m)) := by
  have hlen := bareRoot_length hpad
  rw [List.length_append, cell_length] at hlen
  unfold Fdt.finish
  rw [h.probe hsize (by decide), if_neg (not_not.mpr rfl)]
  rcases h.token hsize (by rw [List.length_append]; omega) (by decide) FDT_END with
    ⟨hroom, m1, hgrab, hdraft, hkept⟩ | ⟨hfull, hgrab⟩
  · rw [hgrab]
    obtain ⟨-, htotal, hstruct, -, hstrs, hsk, -⟩ := hdraft.fields hsize (by decide)
    dsimp only
    rw [htotal, hstruct, hstrs, hsk, copy_zero]
    generalize setCell m1 p (64 + 12) FDT_END = m2 at hdraft hkept ⊢
    obtain ⟨rest, hrest, hat⟩ := hdraft
    rw [List.append_assoc, List.append_assoc] at hat
    have h1 := at_setField (v := 64 + (12 + 4)) hat (show 12 = 4 * 3 from rfl) (show 3 < 10 by decide)
    have k1 := hkept.trans (kept_setCell (m := m2) (o := 12) (v := 64 + (12 + 4)) (by omega))
    generalize setCell m2 p 12 (64 + (12 + 4)) = m3 at h1 k1 ⊢
    simp only [INT_MAX] at hsize
    have hstruct3 : offDtStruct (blobAt m3 p) = 64 := at_field (k := 2) h1 rfl rfl (by decide)
    have hsk3 : sizeDtStruct (blobAt m3 p) = 16 := at_field (k := 9) h1 rfl rfl (by decide)
    have htotal3 : totalsize (blobAt m3 p) = size := at_field (k := 1) h1 rfl rfl (by omega)
    have hversion3 : version (blobAt m3 p) = 17 := at_field (k := 5) h1 rfl rfl (by decide)
    have hstrs3 : sizeDtStrings (blobAt m3 p) = 0 := at_field (k := 8) h1 rfl rfl (by decide)
    have hblock : At m3 (p + 64) (flat (bareRoot pad) ++ cell FDT_END) := by
      have hall := h1
      rw [at_append, at_append, ← List.append_assoc, at_append] at hall
      exact hall.2.2.1.cast (by rw [hres]; exact Nat.add_assoc p 40 24)
    have hwalk := finishWalk_bare (m := m3) ⟨by rw [hversion3], by rw [hstruct3, hsk3, htotal3]; omega,
      htotal3.symm ▸ hsize⟩ hpad
      ⟨hblock.move fun k _ => by rw [blobAt_rd, hstruct3, Nat.add_zero, Nat.add_assoc], by
        rw [hsk3, List.length_append, cell_length]
        omega⟩
    rw [hwalk]
    dsimp only
    rw [hstrs3, if_neg (by decide)]
    have h2 := at_setField (v := 64 + (12 + 4) + 0) h1 (show 4 = 4 * 1 from rfl) (show 1 < 10 by decide)
    have h3 := at_setField (v := 16) h2 (show 24 = 4 * 6 from rfl) (show 6 < 10 by decide)
    have h4 := at_setField (v := FDT_MAGIC) h3 (show 0 = 4 * 0 from rfl) (show 0 < 10 by decide)
    refine Or.inl ⟨hroom, _, rfl, ⟨?_, ⟨[], by rw [List.append_nil]; rfl⟩, bareRoot_ok hpad⟩,
      ((k1.trans (kept_setCell (by omega))).trans (kept_setCell (by omega))).trans (kept_setCell (by omega))⟩
    refine holds_of_at (bareImage_ok hres hpad) hp ?_
    rw [bareImage_bytes hres hpad]
    have hdone := h4
    rw [← List.append_assoc (flat (bareRoot pad)), ← List.append_assoc reserved, ← List.append_assoc] at hdone
    exact (at_append.mp hdone).1
  · rw [hgrab]
    exact Or.inr ⟨hfull, rfl⟩

/-- The finished tree is opened into the buffer it is in. -/
theorem bare_opens {a pad : Str} (h : Laid m p (bareImage (a ++ List.replicate 16 0) pad) (bareRoot pad))
    (hp : p % 8 = 0)
    (hsize : size < INT_MAX) (hres : (a ++ List.replicate 16 (0 : UInt8)).length = 24) (hpad : pad.length = 3)
    (h80 : 80 ≤ size) :
    ∃ m' i', openInto m p p size = .ok (0, m') ∧ Laid m' p i' (bareRoot pad) ∧ i'.total = size ∧ i'.size = 80 ∧
      Kept p size m m' := by
  have hr := h.holds.reads
  have hoff : offMemRsvmap (blobAt m p) = 48 := hr.offRsv
  have htotal : totalsize (blobAt m p) = 80 := hr.total
  have hentry : memRsv (blobAt m p) 0 = some 48 := by
    unfold memRsv
    rw [hoff, htotal]
    rfl
  have hzeros : At m (p + 48) (List.replicate 16 0) := by
    have hat := h.holds.text
    rw [bareImage_bytes hres hpad, at_append, at_append, at_append] at hat
    rw [List.length_append, List.length_replicate] at hres
    exact hat.2.1.2.cast (by rw [show a.length = 8 by omega]; exact Nat.add_assoc p 40 8)
  have hrsv : numMemRsv (blobAt m p) = 0 := by
    have hcell {o : Nat} (ho : At m (p + o) (cell 0)) : be32 (blobAt m p) o = 0 :=
      be32_cell (ho.move fun _ _ => by rw [blobAt_rd, Nat.add_assoc]) (by decide)
    have hcells : List.replicate 16 (0 : UInt8) = cell 0 ++ (cell 0 ++ (cell 0 ++ cell 0)) := rfl
    rw [hcells, at_append, at_append, at_append] at hzeros
    obtain ⟨-, -, h8, h12⟩ := hzeros
    unfold numMemRsv
    rw [numMemRsvFrom]
    rw [dif_neg (by decide), hentry]
    exact if_pos ⟨hcell h8, hcell h12⟩
  have hin : InOrder (blobAt m p) := by
    have hstruct : sizeDtStruct (blobAt m p) = 16 := hr.sizeStruct.trans (bareRoot_length hpad)
    have hstrs : sizeDtStrings (blobAt m p) = 0 := hr.sizeStrings
    have hoffStruct : offDtStruct (blobAt m p) = 64 := hr.offStruct.trans (congrArg (40 + ·) hres)
    have hoffStrs : offDtStrings (blobAt m p) = 80 := by
      rw [hr.offStrings]
      unfold Image.offStrings
      rw [← hr.offStruct, hoffStruct]
      exact congrArg (64 + · + 0) (bareRoot_length hpad)
    unfold InOrder blocksMisordered
    rw [hrsv, hoff, htotal, hstruct, hstrs, hoffStruct, hoffStrs]
    rfl
  have hpacked : packedSize (blobAt m p) ≤ INT_MAX := by
    unfold packedSize
    rw [hrsv, hr.sizeStruct, hr.sizeStrings, show (bareImage (a ++ List.replicate 16 0) pad).struct.length = 16 from
      bareRoot_length hpad]
    change (40 + (0 + 1) * 16 + (16 : Nat) + (0 : Nat) : Int) ≤ 2147483647
    decide
  have hfits : Fits (blobAt m p) p p size := by
    unfold Fits
    rw [if_pos hin, htotal]
    exact h80
  rcases openInto_laid h hrsv hp hsize hpacked with ⟨-, m', i', hopen, hlaid, -, htotal', hsame, -, hkept⟩ | ⟨hno, -⟩
  · refine ⟨m', i', hopen, hlaid, htotal', (hsame hin).trans ?_, hkept⟩
    rw [← bytes_length, bareImage_bytes hres hpad, List.length_append, List.length_append, hres, bareRoot_length hpad]
    rfl
  · exact absurd hfits hno

/-! ## The whole -/

/-- A buffer of eighty bytes or more gets a tree of one node without a name, a
smaller one is refused. -/
theorem createEmptyTree_bare (m : Mem) (hp : p % 8 = 0) (hsize : size < INT_MAX) :
    (80 ≤ size ∧ ∃ m', createEmptyTree m p size = .ok (0, m') ∧ Carries m' p (.node ⟨[], []⟩ .nil .nil) ∧
        totalsize (blobAt m' p) = size ∧ dataSize (blobAt m' p) = 80 ∧ Kept p size m m') ∨
      (size < 80 ∧ ∃ m', createEmptyTree m p size = .ok (-FDT_ERR_NOSPACE, m') ∧ Kept p size m m') := by
  have hfull : (-FDT_ERR_NOSPACE : Int) ≠ 0 := by decide
  have hzero : ¬(0 : Int) ≠ 0 := not_not.mpr rfl
  unfold createEmptyTree
  dsimp only
  by_cases h48 : 48 ≤ size
  · obtain ⟨rest, hrest, hat, hcode, hkept⟩ := create_fresh (m := m) h48
    rw [hcode, if_neg hzero]
    generalize (create m p size).2 = m1 at hat hkept ⊢
    rcases reserve_draft hsize hat hrest with ⟨h64, m2, a, hcode2, ha, hdraft2, hkept2⟩ | ⟨h64, hcode2⟩
    · have hres : (a ++ List.replicate 16 0).length = 24 := by rw [List.length_append, ha, List.length_replicate]
      rw [hcode2, if_neg hzero]
      rcases hdraft2.beginNode hsize hres (by decide) with ⟨h72, m3, pad, hcode3, hpad, hdraft3, hkept3⟩
        | ⟨h72, hcode3⟩
      · rw [hcode3, if_neg hzero]
        have hlen3 : (a ++ List.replicate 16 0 ++ (cell FDT_BEGIN_NODE ++ 0 :: pad)).length = 24 + (0 + 8) := by
          rw [List.length_append, hres, List.length_append, cell_length, List.length_cons, hpad]
        rcases hdraft3.endNode hsize hlen3 (by decide) with ⟨h76, m4, hcode4, hdraft4, hkept4⟩ | ⟨h76, hcode4⟩
        · rw [hcode4, if_neg hzero]
          have hflat : a ++ List.replicate 16 0 ++ (cell FDT_BEGIN_NODE ++ 0 :: pad) ++ cell FDT_END_NODE =
              a ++ List.replicate 16 0 ++ flat (bareRoot pad) := by
            unfold bareRoot flat Forest.linear FlatNode.opens FlatNode.closes itemBytes nops
            simp [Forest.linear, FlatNode.header]
          rw [hflat] at hdraft4
          have hkept' := ((hkept.trans hkept2).trans hkept3).trans hkept4
          rcases hdraft4.finish hsize hres hpad hp with ⟨h80, m5, hcode5, hlaid, hkept5⟩ | ⟨h80, hcode5⟩
          · rw [hcode5, if_neg hzero]
            obtain ⟨m6, i', hopen, hlaid', htotal, hsame, hkept6⟩ := bare_opens hlaid hp hsize hres hpad h80
            refine Or.inl ⟨h80, m6, hopen, ⟨i', _, hlaid', rfl⟩, ?_, ?_, (hkept'.trans hkept5).trans hkept6⟩
            · rw [hlaid'.holds.reads.total, htotal]
            · rw [hlaid'.holds.dataSize, hsame]
          · rw [hcode5, if_pos hfull]
            exact Or.inr ⟨h80, m4, rfl, hkept'⟩
        · rw [hcode4, if_pos hfull]
          exact Or.inr ⟨by omega, m3, rfl, (hkept.trans hkept2).trans hkept3⟩
      · rw [hcode3, if_pos hfull]
        exact Or.inr ⟨by omega, m2, rfl, hkept.trans hkept2⟩
    · rw [hcode2, if_pos hfull]
      exact Or.inr ⟨by omega, m1, rfl, hkept⟩
  · have hcode : create m p size = (-FDT_ERR_NOSPACE, m) := if_pos (by omega)
    rw [hcode, if_pos hfull]
    exact Or.inr ⟨by omega, m, rfl, Kept.refl m⟩

end

end DTFramework.Fdt
