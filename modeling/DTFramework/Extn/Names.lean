import DTFramework.Extn.Packed
import DTFramework.Extn.Subnodes
import DTFramework.Select.Printing

/-!
# Size first, then names

A caller asks for the size of all names, allocates, and asks for the names. The
two passes are separate loops; the second one copies with a 16-bit index. Here
the fill loop has the caller's memory in it (`copyNames`), with the same statuses
as `fillNames` (`copyNames_status`), and `names_exact` says when the buffer is
just filled.

Results:

* `copyNames_fits`, `copyNames_small`, `copyNames_ok`: the fill loop, by the room it
  has;
* `names_exact`: the nodes whose names are sized and filled;
* `long_name_diverges`: a name of 65535 bytes is copied for ever.
-/
namespace DTFramework.Extn

open DTFramework.Fdt
open DTFramework.Select (namesLength_cons)

/-- The loop that copies names into a buffer: the status and the buffer. `small`
is the status for a name that is too long for what is left of the buffer.
mirrors libs/DTBExtnLib/DTBExtnLib_node.c:1439-1459 and 1713-1733 -/
def copyNames (d : DTBDefs) (small : Int) (size : Nat) (status : Int) :
    List Str → Nat → Buffer → Except Fault (Int × Buffer)
  | [], _, buf => .ok (status, buf)
  | name :: names, running_count, buf =>
    if INT_MAX ≤ name.length then .ok (-d.FDT_ERR_QC_OVERFLOW, buf)
    else if size - running_count < name.length + 1 then .ok (small, buf)
    else if 0xffff < name.length + 1 then .error .diverge
    else copyNames d small size status names (running_count + (name.length + 1))
      (buf.store running_count (name ++ [0]))

/-- The names of a node's properties, and the status of the iteration. -/
def propNames (d : DTBDefs) (f : Blob) (offset : Int) : Int × List Str :=
  propNameScan d f (firstPropertyOffset f offset)

/-- mirrors libs/DTBExtnLib/DTBExtnLib_node.c:1406-1471
(`fdt_get_prop_names_of_node`), with the buffer -/
def getPropNamesInto (d : DTBDefs) (f : Blob) (offset : Int) (size : Nat) (buf : Buffer) :
    Except Fault (Int × Buffer) :=
  match copyNames d d.FDT_ERR_QC_TRUNCATED size (propNames d f offset).1 (propNames d f offset).2 0 buf with
  | .error e => .error e
  | .ok (r, buf) => .ok (r, if r = FDT_ERR_QC_NOERROR ∧ 0 < size then buf.store (size - 1) [0] else buf)

/-- The names of subnodes up to the first that cannot be read, and the status. -/
def nameScan (d : DTBDefs) (f : Blob) : List Int → Int × List Str
  | [] => (FDT_ERR_QC_NOERROR, [])
  | subnode :: ss =>
    match getName f subnode with
    | .error len => (lenError d len, [])
    | .ok name => ((nameScan d f ss).1, name :: (nameScan d f ss).2)

/-- The names of a node's subnodes, and the status of the iteration. -/
def subnodeNames (d : DTBDefs) (f : Blob) (offset : Int) : Int × List Str := nameScan d f (subnodes f offset)

/-- mirrors libs/DTBExtnLib/DTBExtnLib_node.c:1684-1749 -/
def getSubnodeNames (d : DTBDefs) (f : Blob) (offset : Int) (size : Nat) (buf : Buffer) :
    Except Fault (Int × Buffer) :=
  copyNames d (-d.FDT_ERR_QC_BUF2SMALL) size (subnodeNames d f offset).1 (subnodeNames d f offset).2 0 buf

/-! ## Stores -/

theorem Buffer.store_append (buf : Buffer) (pos : Nat) (a b : List UInt8) :
    (buf.store pos a).store (pos + a.length) b = buf.store pos (a ++ b) := by
  have hstore (buf : Buffer) (pos : Nat) (bytes : List UInt8) :
      buf.store pos bytes = overlay buf pos (bytes.map some) := by
    rw [store_overlay buf pos 0, List.replicate_zero, List.append_nil]
  rw [hstore, hstore, hstore, List.map_append, ← overlay_append, List.length_map]

theorem Buffer.store_nil (buf : Buffer) (pos : Nat) : buf.store pos [] = buf := by
  funext i
  simp [Buffer.store]

theorem Buffer.store_out {buf : Buffer} {pos i : Nat} {bytes : List UInt8} (h : pos + bytes.length ≤ i) :
    buf.store pos bytes i = buf i := by
  unfold Buffer.store
  rw [List.getElem?_eq_none (by omega)]
  exact ite_self _

/-- The same bytes stored again. -/
theorem Buffer.store_again (buf : Buffer) (pos : Nat) (bytes : List UInt8) :
    (buf.store pos bytes).store pos bytes = buf.store pos bytes := by
  funext i
  unfold Buffer.store
  split
  · cases bytes[i - pos]? <;> rfl
  · rfl

theorem copiedNames_length (names : List Str) : (Select.nameBytes names).length = namesLength names := by
  induction names with
  | nil => rfl
  | cons name names ih =>
    rw [namesLength_cons, ← ih]
    simp [Select.nameBytes]
    omega

theorem copiedNames_cons (name : Str) (names : List Str) :
    Select.nameBytes (name :: names) = (name ++ [0]) ++ Select.nameBytes names := by
  simp [Select.nameBytes]

/-- Names end in a NUL. -/
theorem copiedNames_snoc {names : List Str} (h : names ≠ []) : ∃ bytes, Select.nameBytes names = bytes ++ [0] := by
  refine ⟨Select.nameBytes names.dropLast ++ names.getLast h, ?_⟩
  conv_lhs => rw [← List.dropLast_append_getLast h]
  simp [Select.nameBytes]

/-! ## The fill loop -/

/-- A name that a 16-bit index comes to the end of. -/
abbrev Short (names : List Str) : Prop := ∀ name ∈ names, name.length < 0xffff

section
variable {d : DTBDefs} {small status : Int} {size : Nat}

/-- Names that fit are copied. -/
theorem copyNames_fits (names : List Str) : ∀ (count : Nat) (buf : Buffer), Short names →
    count + namesLength names ≤ size →
    copyNames d small size status names count buf = .ok (status, buf.store count (Select.nameBytes names)) := by
  induction names with
  | nil =>
    intro count buf _ _
    exact congrArg (fun b => Except.ok (status, b)) (buf.store_nil count).symm
  | cons name names ih =>
    intro count buf hshort hfit
    obtain ⟨hname, hshort⟩ := List.forall_mem_cons.mp hshort
    rw [namesLength_cons] at hfit
    rw [copyNames, if_neg (by simp only [INT_MAX]; omega), if_neg (by omega), if_neg (by omega),
      ih _ _ hshort (by omega), copiedNames_cons]
    have happend := Buffer.store_append buf count (name ++ [0]) (Select.nameBytes names)
    rw [List.length_append, List.length_singleton] at happend
    rw [happend]

/-- Names that do not fit end the loop inside the buffer. -/
theorem copyNames_small (d : DTBDefs) (small status : Int) (names : List Str) :
    ∀ (count : Nat) (buf : Buffer), Short names → count ≤ size →
    size < count + namesLength names →
    ∃ b, copyNames d small size status names count buf = .ok (small, b) ∧ ∀ i, size ≤ i → b i = buf i := by
  induction names with
  | nil =>
    intro count buf _ hle hlt
    exact absurd hlt (by simp only [namesLength, List.map_nil, List.sum_nil]; omega)
  | cons name names ih =>
    intro count buf hshort hle hlt
    obtain ⟨hname, hshort⟩ := List.forall_mem_cons.mp hshort
    rw [namesLength_cons] at hlt
    rw [copyNames, if_neg (by simp only [INT_MAX]; omega)]
    by_cases hroom : size - count < name.length + 1
    · rw [if_pos hroom]
      exact ⟨buf, rfl, fun _ _ => rfl⟩
    · rw [if_neg hroom, if_neg (by omega)]
      obtain ⟨b, hb, hout⟩ := ih (count + (name.length + 1)) (buf.store count (name ++ [0])) hshort (by omega)
        (by omega)
      refine ⟨b, hb, fun i hi => (hout i hi).trans (Buffer.store_out ?_)⟩
      rw [List.length_append, List.length_singleton]
      omega

/-- The loop has the statuses of `fillNames`. -/
theorem copyNames_status (names : List Str) : ∀ (count : Nat) (buf : Buffer), count ≤ size →
    (copyNames d d.FDT_ERR_QC_TRUNCATED size status names count buf).map Prod.fst =
      (fillNames d ((size - count : Nat) : Int) status names).map Prod.fst := by
  induction names with
  | nil => exact fun _ _ _ => rfl
  | cons name names ih =>
    intro count buf hle
    rw [copyNames, fillNames]
    by_cases hmax : INT_MAX ≤ name.length
    · rw [if_pos hmax, if_pos hmax]
      rfl
    · rw [if_neg hmax, if_neg hmax]
      by_cases hroom : size - count < name.length + 1
      · have hroom' : ((size - count : Nat) : Int) < name.length + 1 := by omega
        rw [if_pos hroom, if_pos hroom']
        rfl
      · have hroom' : ¬((size - count : Nat) : Int) < name.length + 1 := by omega
        rw [if_neg hroom, if_neg hroom']
        by_cases hlong : 0xffff < name.length + 1
        · rw [if_pos hlong, if_pos hlong]
          rfl
        · rw [if_neg hlong, if_neg hlong, ih _ _ (by omega),
            show ((size - (count + (name.length + 1)) : Nat) : Int) =
              (size - count : Nat) - (name.length + 1) by omega]
          cases fillNames d ((size - count : Nat) - (name.length + 1)) status names <;> rfl

/-- Names that were copied fit, and are short. -/
theorem copyNames_ok (hsmall : small ≠ FDT_ERR_QC_NOERROR) (names : List Str) :
    ∀ (count : Nat) (buf b : Buffer), count ≤ size →
    copyNames d small size status names count buf = .ok (FDT_ERR_QC_NOERROR, b) →
    Short names ∧ count + namesLength names ≤ size := by
  have hover : -d.FDT_ERR_QC_OVERFLOW ≠ FDT_ERR_QC_NOERROR := (libraryCode_ne (d.extends_std _ (by simp))).2
  induction names with
  | nil => exact fun count buf b hle _ => ⟨nofun, hle⟩
  | cons name names ih =>
    intro count buf b hle h
    rw [copyNames] at h
    split at h
    · exact absurd (congrArg Prod.fst (Except.ok.inj h)) hover
    · split at h
      · exact absurd (congrArg Prod.fst (Except.ok.inj h)) hsmall
      · split at h
        · cases h
        · obtain ⟨h1, h2⟩ := ih _ _ b (by omega) h
          rw [namesLength_cons]
          exact ⟨List.forall_mem_cons.mpr ⟨by omega, h1⟩, by omega⟩

end

/-! ## Size first -/

/-- A getter fills a buffer of the given size, and refuses smaller ones. -/
structure Fills (run : Nat → Buffer → Except Fault (Int × Buffer)) (size : Nat) (bytes : List UInt8) : Prop where
  whole : bytes.length = size
  fill : ∀ buf, run size buf = .ok (FDT_ERR_QC_NOERROR, buf.store 0 bytes)
  refuse : ∀ small < size, ∀ buf, ∃ r b, run small buf = .ok (r, b) ∧ r ≠ FDT_ERR_QC_NOERROR ∧ ∀ i, small ≤ i →
  b i = buf i

/-- Every name of the node can be read. -/
structure NamesReadable (d : DTBDefs) (f : Blob) (o : Int) : Prop where
  props : (propNames d f o).1 = FDT_ERR_QC_NOERROR
  subnodes : Named f (subnodes f o)

/-- The two size-then-fill protocols. The size for the subnodes is the caller's
sum, a `uint32_t`. -/
structure SizeThenFill (d : DTBDefs) (f : Blob) (o : Int) : Prop where
  sized : (getPropNamesSize d f o).1 = FDT_ERR_QC_NOERROR
  props : Fills (getPropNamesInto d f o) (getPropNamesSize d f o).2 (Select.nameBytes (propNames d f o).2)
  subnodes : Fills (getSubnodeNames d f o) (namesLength (subnodeNames d f o).2 % 0x100000000)
    (Select.nameBytes (subnodeNames d f o).2)

theorem nameScan_named (d : DTBDefs) {f : Blob} (ss : List Int) (h : Named f ss) :
    (nameScan d f ss).1 = FDT_ERR_QC_NOERROR := by
  induction ss with
  | nil => rfl
  | cons s ss ih =>
    obtain ⟨name, hs⟩ := h s List.mem_cons_self
    rw [nameScan, hs]
    exact ih fun x hx => h x (List.mem_cons_of_mem s hx)

theorem truncated_ne (d : DTBDefs) : d.FDT_ERR_QC_TRUNCATED ≠ FDT_ERR_QC_NOERROR :=
  (libraryCode_ne (d.extends_std _ (by simp))).1

theorem buf2small_ne (d : DTBDefs) : -d.FDT_ERR_QC_BUF2SMALL ≠ FDT_ERR_QC_NOERROR :=
  (libraryCode_ne (d.extends_std _ (by simp))).2

section
variable {d : DTBDefs} {f : Blob} {o : Int}

/-- The NUL at the end of a full buffer is there already. -/
theorem getPropNamesInto_fits {size : Nat} (hst : (propNames d f o).1 = FDT_ERR_QC_NOERROR)
    (hshort : Short (propNames d f o).2)
    (hsize : namesLength (propNames d f o).2 = size) (buf : Buffer) :
    getPropNamesInto d f o size buf = .ok (FDT_ERR_QC_NOERROR,
        buf.store 0 (Select.nameBytes (propNames d f o).2)) := by
  unfold getPropNamesInto
  rw [copyNames_fits _ 0 buf hshort (by omega), hst]
  dsimp only
  by_cases hpos : 0 < size
  · rw [if_pos ⟨rfl, hpos⟩]
    have hne : (propNames d f o).2 ≠ [] := by
      intro hnil
      rw [hnil] at hsize
      simp only [namesLength, List.map_nil, List.sum_nil] at hsize
      omega
    obtain ⟨bytes, hbytes⟩ := copiedNames_snoc hne
    have hlen : size - 1 = 0 + bytes.length := by
      have := copiedNames_length (propNames d f o).2
      rw [hbytes, List.length_append, List.length_singleton] at this
      omega
    rw [hbytes, hlen, ← Buffer.store_append, Buffer.store_again]
  · rw [if_neg fun h => hpos h.2]

theorem getPropNamesInto_small {size : Nat} (hshort : Short (propNames d f o).2)
    (hsize : size < namesLength (propNames d f o).2) (buf : Buffer) :
    ∃ r b, getPropNamesInto d f o size buf = .ok (r, b) ∧ r ≠ FDT_ERR_QC_NOERROR ∧ ∀ i, size ≤ i → b i = buf i := by
  obtain ⟨b, hb, hout⟩ := copyNames_small d d.FDT_ERR_QC_TRUNCATED (propNames d f o).1
    (propNames d f o).2 0 buf hshort (Nat.zero_le size) (by omega)
  refine ⟨d.FDT_ERR_QC_TRUNCATED, b, ?_, truncated_ne d, hout⟩
  unfold getPropNamesInto
  rw [hb]
  dsimp only
  rw [if_neg fun h => truncated_ne d h.1]

theorem getPropNamesInto_ok {size : Nat} {buf b : Buffer}
    (h : getPropNamesInto d f o size buf = .ok (FDT_ERR_QC_NOERROR, b)) :
    Short (propNames d f o).2 ∧ namesLength (propNames d f o).2 ≤ size := by
  unfold getPropNamesInto at h
  split at h
  · cases h
  · rename_i r b' hcopy
    obtain rfl : r = FDT_ERR_QC_NOERROR := congrArg Prod.fst (Except.ok.inj h)
    have := copyNames_ok (truncated_ne d) _ 0 buf b' (Nat.zero_le size) hcopy
    rwa [Nat.zero_add] at this

/-- Names that are filled are short and take less than 4 GiB. -/
theorem SizeThenFill.short (h : SizeThenFill d f o) : Short ((propNames d f o).2 ++ (subnodeNames d f o).2) ∧
    namesLength (propNames d f o).2 < 0x100000000 ∧ namesLength (subnodeNames d f o).2 < 0x100000000 := by
  obtain ⟨hp, hplen⟩ := getPropNamesInto_ok (h.props.fill fun _ => 0)
  have hs := copyNames_ok (buf2small_ne d) _ 0 _ _ (Nat.zero_le _) (h.subnodes.fill fun _ => 0)
  have hsize : (getPropNamesSize d f o).2 = namesLength (propNames d f o).2 % 0x100000000 := rfl
  refine ⟨fun name hname => ?_, by omega, by omega⟩
  rcases List.mem_append.mp hname with hname | hname
  · exact hp name hname
  · exact hs.1 name hname

end

/-- The buffer of the reported size is filled just when every name is shorter
than 65535 bytes and the sizes do not wrap. -/
theorem names_exact (d : DTBDefs) (f : Blob) (o : Int) (h : NamesReadable d f o) : SizeThenFill d f o ↔
    Short ((propNames d f o).2 ++ (subnodeNames d f o).2) ∧ namesLength (propNames d f o).2 < 0x100000000 ∧
      namesLength (subnodeNames d f o).2 < 0x100000000 := by
  refine ⟨SizeThenFill.short, ?_⟩
  rintro ⟨hshort, hp32, hs32⟩
  have hp : Short (propNames d f o).2 := fun name hname => hshort name (List.mem_append_left _ hname)
  have hs : Short (subnodeNames d f o).2 := fun name hname => hshort name (List.mem_append_right _ hname)
  have hsize : (getPropNamesSize d f o).2 = namesLength (propNames d f o).2 := Nat.mod_eq_of_lt hp32
  refine ⟨h.props, ⟨?_, ?_, ?_⟩, ⟨?_, ?_, ?_⟩⟩
  · rw [copiedNames_length, hsize]
  · exact getPropNamesInto_fits h.props hp hsize.symm
  · exact fun small hsmall => getPropNamesInto_small hp (by omega)
  · rw [copiedNames_length, Nat.mod_eq_of_lt hs32]
  · intro buf
    unfold getSubnodeNames
    rw [copyNames_fits _ 0 buf hs (by omega)]
    exact congrArg (fun st => Except.ok (st, _)) (nameScan_named d _ h.subnodes)
  · intro small hsmall buf
    obtain ⟨b, hb, hout⟩ := copyNames_small d (-d.FDT_ERR_QC_BUF2SMALL) (subnodeNames d f o).1
      (subnodeNames d f o).2 0 buf hs (Nat.zero_le small) (by omega)
    exact ⟨_, b, hb, buf2small_ne d, hout⟩

/-- A root with the properties "p" and "qq" and the subnode "a". -/
def namesBlob : Blob := ⟨0, memOf 0 (assemble
    [.beginNode [], .prop [112] [1], .prop [113, 113] [], .beginNode [97], .endNode,
  .endNode] 0)⟩

theorem names_exact_nest : (propNames Select.imageDefs namesBlob 0).2 = [[112], [113, 113]] ∧
    (subnodeNames Select.imageDefs namesBlob 0).2 = [[97]] ∧ SizeThenFill Select.imageDefs namesBlob 0 := by
  have hprops : (propNames Select.imageDefs namesBlob 0).2 = [[112], [113, 113]] := by decide +kernel
  have hsubs : (subnodeNames Select.imageDefs namesBlob 0).2 = [[97]] := by decide +kernel
  have hnodes : subnodes namesBlob 0 = [36] := by decide +kernel
  have hnamed : Named namesBlob (subnodes namesBlob 0) := by
    rw [hnodes]
    intro s hs
    rw [List.mem_singleton.mp hs]
    exact ⟨[97], by decide +kernel⟩
  refine ⟨hprops, hsubs, (names_exact _ _ _ ⟨by decide +kernel, hnamed⟩).mpr ?_⟩
  rw [hprops, hsubs]
  exact ⟨by decide, by decide, by decide⟩

/-- A root with one property, whose name is 65535 bytes long. -/
def longBlob : Blob where
  addr := 0
  rd := fun i =>
    let head := cell FDT_MAGIC ++ cell 65620 ++ cell 56 ++ cell 84 ++ cell 40 ++ cell 17 ++ cell 16 ++ cell 0 ++
      cell 65536 ++ cell 28 ++ List.replicate 16 0 ++ structBlock 0 [.beginNode [], .prop [] [], .endNode]
    if i < 84 then head.getD i 0 else if i < 65619 then 97 else 0

theorem cstr_repeat {rd : Nat → UInt8} {c : UInt8} (hc : c ≠ 0) (k : Nat) : ∀ p n : Nat, (∀ i < k, rd (p + i) = c) →
    rd (p + k) = 0 → k < n → cstr rd p n = List.replicate k c := by
  induction k with
  | zero =>
    intro p n _ hend hn
    obtain ⟨n, rfl⟩ : ∃ m, n = m + 1 := ⟨n - 1, by omega⟩
    have hp : rd p = 0 := hend
    rw [cstr, if_pos hp]
    rfl
  | succ k ih =>
    intro p n hall hend hn
    obtain ⟨n, rfl⟩ : ∃ m, n = m + 1 := ⟨n - 1, by omega⟩
    have hp : rd p = c := hall 0 (by omega)
    rw [cstr, if_neg (by rw [hp]; exact hc), hp, List.replicate_succ,
      ih (p + 1) n (fun i hi => by rw [Nat.add_right_comm]; exact hall (i + 1) (by omega))
        (by rw [Nat.add_right_comm]; exact hend) (by omega)]

theorem longBlob_inside {i : Nat} (h : i < 65535) : longBlob.rd (84 + i) = 97 := by
  show (if 84 + i < 84 then _ else if 84 + i < 65619 then (97 : UInt8) else 0) = 97
  rw [if_neg (by omega), if_pos (by omega)]

theorem longBlob_end : longBlob.rd (84 + 65535) = 0 := rfl

theorem longBlob_length : (cstr longBlob.rd 84 65536).length = 65535 := by
  rw [cstr_repeat (c := 97) (by decide) 65535 84 65536 (fun i hi => longBlob_inside hi) longBlob_end (by decide),
    List.length_replicate]

theorem cstrWithin_some (rd : Nat → UInt8) (p n : Nat) (h : (cstr rd p n).length < n) :
    cstrWithin rd p n = some (cstr rd p n) := if_pos h

theorem longBlob_string : getString longBlob 0 = .ok (cstr longBlob.rd 84 65536) := by
  have hprobe : roProbe longBlob = 65620 := by decide +kernel
  have htotal : totalsize longBlob = 65620 := by decide +kernel
  have hoff : offDtStrings longBlob = 84 := by decide +kernel
  have hmagic : magic longBlob = FDT_MAGIC := by decide +kernel
  have hversion : version longBlob = 17 := by decide +kernel
  have hsize : sizeDtStrings longBlob = 65536 := by decide +kernel
  have habs : (((0 : Int) + (84 : Nat)) % 0x100000000).toNat = 84 := by decide
  have hroom : min (65620 - 84) (65536 - (0 : Int).toNat) = 65536 := by decide
  have hwithin := cstrWithin_some longBlob.rd 84 65536 (by rw [longBlob_length]; decide)
  unfold getString
  rw [hprobe, if_neg (by decide)]
  simp only [htotal, hoff, hmagic, hversion, hsize, habs]
  rw [if_neg (by decide), if_pos True.intro, if_neg (by decide), if_pos (by decide), if_neg (by decide), hroom,
    hwithin]

theorem longBlob_name : ∃ name, name.length = 65535 ∧ getString longBlob 0 = .ok name :=
  ⟨_, longBlob_length, longBlob_string⟩

/-- The names of a node with one property, which is empty. -/
theorem propNames_single {d : DTBDefs} {f : Blob} {o p : Int} {name : Str} (hfirst : firstPropertyOffset f o = p)
    (hp : 0 ≤ p)
    (hlen : getPropertyByOffset f p = .ok 0) (hname : getString f (propNameoff f p) = .ok name)
    (hnext : nextPropertyOffset f p < 0) : propNames d f o = (FDT_ERR_QC_NOERROR, [name]) := by
  have hprop : getpropByOffset f p = .ok (name, 0) := by
    unfold getpropByOffset
    rw [hlen, hname]
  unfold propNames
  rw [hfirst, propNameScan, if_neg (Int.not_lt.mpr hp), hprop]
  dsimp only
  rw [if_neg (by decide), dif_pos hnext]

theorem longBlob_names : ∃ name, name.length = 65535 ∧
    propNames Select.imageDefs longBlob 0 = (FDT_ERR_QC_NOERROR, [name]) := by
  obtain ⟨name, hlen, hname⟩ := longBlob_name
  have hoff : propNameoff longBlob 8 = 0 := by decide +kernel
  exact ⟨name, hlen, propNames_single (p := 8) (by decide +kernel) (by decide) (by decide +kernel)
    (by rw [hoff]; exact hname)
    (by decide +kernel)⟩

/-- A name of 65535 bytes is copied for ever. -/
theorem long_name_diverges : ¬∀ (d : DTBDefs) (f : Blob) (o : Int), NamesReadable d f o → SizeThenFill d f o := by
  intro h
  obtain ⟨name, hlen, hnames⟩ := longBlob_names
  have hsub : subnodes longBlob 0 = [] := by decide +kernel
  have hread : NamesReadable Select.imageDefs longBlob 0 :=
    ⟨by rw [hnames], by rw [hsub]; exact nofun⟩
  have hshort := (h _ _ _ hread).short.1 name (by rw [hnames]; exact List.mem_cons_self)
  rw [hlen] at hshort
  exact absurd hshort (by decide)

end DTFramework.Extn
