import DTFramework.Extn.Slice
import DTFramework.Select.Open
import DTFramework.Select.WalkSound
import DTFramework.Select.Image

/-!
# The order of tuples

The filter keeps one tuple of a blob's chip-info and one of its board-info, the
first of the device's family and of its platform type, and the ranking sees only
these. So the order of the tuples matters (`tuple_order_matters`), but only as
far as it decides which of them are first (`tuple_order`).

Two images are compared blob by blob (`SameTree`): the trees are the same but
for the values of the two lists, in which the tuples are in another order.

Results:

* `selected_blobs`: what a walk selects is in the image;
* `getPropertyValues_same`: lists in another order have the same elements;
* `tuple_order`: both images have the same blobs selected;
* `tuple_order_matters`: the second tuple of a blob is not looked at.
-/
namespace DTFramework.Select

open DTFramework.Fdt DTFramework.Extn DTFramework.Lib

/-! ## Trees that differ in the order of tuples -/

/-- The blobs of an image: each header that is accepted leads to the next. -/
inductive ImageBlob (m : Mem) (start : Nat) : Nat → Prop
  | first : ImageBlob m start start
  | next {p : Nat} (h : ImageBlob m start p) (hc : checkHeader (blobAt m p) = 0) :
      ImageBlob m start (p + totalsize (blobAt m p))

/-- The same groups of `c` bytes in another order. -/
def Reordered (c : Nat) (v v' : List UInt8) : Prop :=
  v' = v ∨ ∃ l l' : List (List UInt8), v = l.flatten ∧ v' = l'.flatten ∧ (∀ g ∈ l, g.length = c) ∧ l'.Perm l

/-- The properties that are lists of tuples. -/
def isTupleList (name : Str) : Prop := name = CHIPINFO_PROP_NAME ∨ name = PLATFORMINFO_PROP_NAME

/-- Two nodes at the same offset: the same properties, of the same lengths at the
same positions, with the same values but for the order of the tuples. -/
structure SameNode (d : DTBDefs) (f f' : Blob) (o : Int) : Prop where
  names : propNameScan d f' (firstPropertyOffset f' o) = propNameScan d f (firstPropertyOffset f o)
  position : ∀ name, getprop f' o name = getprop f o name
  raw : ∀ name, getProperty f' o name = getProperty f o name
  value : ∀ name p len, ¬isTupleList name → getprop f o name = .ok (p, len) →
  bytesAt f' p len.toNat = bytesAt f p len.toNat
  chipinfo : ∀ p len, getprop f o CHIPINFO_PROP_NAME = .ok (p, len) →
    Reordered SINGLE_CHIPINFO_SIZE_IN_BYTES (bytesAt f p len.toNat) (bytesAt f' p len.toNat)
  platforminfo : ∀ p len, getprop f o PLATFORMINFO_PROP_NAME = .ok (p, len) →
    Reordered SINGLE_PLATFORMINFO_SIZE_IN_BYTES (bytesAt f p len.toNat) (bytesAt f' p len.toNat)

/-- Two blobs with the same header and the same board-id node but for the order
of the tuples. -/
structure SameTree (d : DTBDefs) (f f' : Blob) : Prop where
  header : checkHeader f' = checkHeader f
  size : totalsize f' = totalsize f
  path : checkHeader f = 0 → pathOffset f' ROOT_NODE = pathOffset f ROOT_NODE
  node : checkHeader f = 0 → SameNode d f f' (pathOffset f ROOT_NODE)

/-- The first tuples for the device are the same. -/
structure SameFirst (prop : ChipPlatInfo) (f f' : Blob) (o : Int) : Prop where
  chipinfo : ∀ p len, getprop f o CHIPINFO_PROP_NAME = .ok (p, len) →
    (chipinfoEntries (elements 2 (bytesAt f' p len.toNat))).find? (·.family == prop.chip_family) =
      (chipinfoEntries (elements 2 (bytesAt f p len.toNat))).find? (·.family == prop.chip_family)
  platforminfo : ∀ p len, getprop f o PLATFORMINFO_PROP_NAME = .ok (p, len) →
    (platforminfoEntries (elements 1 (bytesAt f' p len.toNat))).find? (·.type == prop.platform_type) =
      (platforminfoEntries (elements 1 (bytesAt f p len.toNat))).find? (·.type == prop.platform_type)

/-- Tuples keep the elements of a list together. -/
theorem Reordered.mem_elements {c w : Nat} {v v' : List UInt8} (h : Reordered c v v') (hw : 0 < w) (hc : w ∣ c)
    (x : Nat) :
    x ∈ elements w v' ↔ x ∈ elements w v := by
  have hflat (l : List (List UInt8)) (hl : ∀ g ∈ l, g.length = c) : elements w l.flatten = l.flatMap (elements w) := by
    induction l with
    | nil => simp [elements, Nat.div_eq_of_lt hw]
    | cons g l ih =>
      rw [List.forall_mem_cons] at hl
      rw [List.flatten_cons, List.flatMap_cons, elements_append hw (hl.1 ▸ hc), ih hl.2]
  rcases h with rfl | ⟨l, l', rfl, rfl, hl, hperm⟩
  · exact Iff.rfl
  · rw [hflat l hl, hflat l' fun g hg => hl g (hperm.subset hg)]
    exact (hperm.flatMap_right _).mem_iff

/-! ## The getters -/

section
variable {d : DTBDefs} {f f' : Blob} {o : Int} {name : Str} {p : Nat} {len : Int}

theorem SameNode.propSize (h : SameNode d f f' o) (name : Str) (n : Nat) :
    getPropSize d f' o name n = getPropSize d f o name n := by
  unfold getPropSize
  rw [h.position]

/-- A property whose size can be read. -/
theorem propertyAt_of_size (h : (getPropSize d f o name 0).1 = FDT_ERR_QC_NOERROR) :
    ∃ p len, PropertyAt f o name p len ∧ (getPropSize d f o name 0).2 = len.toNat := by
  unfold getPropSize at h ⊢
  cases hget : getprop f o name with
  | error e =>
    rw [hget] at h
    exact absurd h (lenError_ne d e)
  | ok r =>
    obtain ⟨p, len⟩ := r
    rw [hget] at h
    simp only at h ⊢
    by_cases hneg : len < 0
    · rw [if_pos hneg] at h
      exact absurd h (lenError_ne d len)
    · rw [if_neg hneg]
      have hle := getprop_len_le hget
      refine ⟨p, len, ⟨hget, Int.not_lt.mp hneg, hle⟩, ?_⟩
      simp only [INT_MAX] at hle
      simp only [u32]
      omega

theorem SameNode.propertyAt (h : SameNode d f f' o) (hp : PropertyAt f o name p len) : PropertyAt f' o name p len :=
  ⟨(h.position name).trans hp.getprop, hp.len_nonneg, hp.len_le⟩

/-- A list of the size of the property is its elements. -/
theorem getUintXPropList_elements (hp : PropertyAt f o name p len) {t : DataType} (ht : t ≠ .boolean) :
    getUintXPropList d f o name len.toNat 0 0 t =
        .ok (FDT_ERR_QC_NOERROR, elements t.width (bytesAt f p len.toNat)) := by
  have hle := hp.len_le
  simp only [INT_MAX] at hle
  rw [getUintXPropList_whole hp ht (by omega) (Nat.lt_irrefl _), elements_bytesAt,
    int32_ofNat (hp.data_count t.width).2, Int.toNat_natCast]

theorem SameNode.boolProp (h : SameNode d f f' o) (name : Str) : getBoolProp d f' o name = getBoolProp d f o name := by
  unfold getBoolProp getUintXPropList
  rw [h.position]
  cases getprop f o name with
  | error e => rfl
  | ok r => simp

/-- From version 16 on the raw value is the value. -/
theorem getprop_of_getProperty (h : getProperty f o name = .ok (p, len)) : getprop f o name = .ok (p, len) := by
  unfold getProperty at h
  unfold getprop
  split at h
  · cases h
  · rename_i hv
    split at h
    · cases h
    · simp only [Except.ok.injEq, Prod.mk.injEq] at h ⊢
      refine ⟨?_, h.2⟩
      unfold propValue
      rw [if_neg (fun hc => hv hc.1), h.1]

theorem SameNode.stringPropList (h : SameNode d f f' o) (hname : ¬isTupleList name) (size : Nat) :
    getStringPropList d f' o name size = getStringPropList d f o name size := by
  unfold getStringPropList
  rw [h.raw]
  cases hraw : getProperty f o name with
  | error e => rfl
  | ok r =>
    obtain ⟨p, len⟩ := r
    have hval := h.value name p len hname (getprop_of_getProperty hraw)
    unfold bytesAt at hval
    simp only
    rw [hval]

/-- Lists of another property are the same. -/
theorem SameNode.list (h : SameNode d f f' o) (hname : ¬isTupleList name) (hp : PropertyAt f o name p len)
    {t : DataType}
    (ht : t ≠ .boolean) :
    getUintXPropList d f' o name len.toNat 0 0 t = getUintXPropList d f o name len.toNat 0 0 t := by
  rw [getUintXPropList_elements hp ht, getUintXPropList_elements (h.propertyAt hp) ht,
    h.value name p len hname hp.getprop]

/-- The lists of a property have the same elements, except of 8 bytes of
board-info. -/
theorem SameNode.mem_elements (h : SameNode d f f' o) (hp : PropertyAt f o name p len) {w : Nat} (hw : w ∣ 8) 
    (hunit : name = PLATFORMINFO_PROP_NAME → w ≠ 8) (x : Nat) :
    x ∈ elements w (bytesAt f' p len.toNat) ↔ x ∈ elements w (bytesAt f p len.toNat) := by
  have hpos : 0 < w := Nat.pos_of_dvd_of_pos hw (by decide)
  by_cases hname : isTupleList name
  · rcases hname with rfl | rfl
    · exact (h.chipinfo p len hp.getprop).mem_elements hpos hw x
    · have hle := Nat.le_of_dvd (by decide) hw
      have hne := hunit rfl
      refine (h.platforminfo p len hp.getprop).mem_elements hpos ?_ x
      have : w = 1 ∨ w = 2 ∨ w = 3 ∨ w = 4 ∨ w = 5 ∨ w = 6 ∨ w = 7 := by omega
      rcases this with rfl | rfl | rfl | rfl | rfl | rfl | rfl <;> revert hw <;> decide
  · rw [h.value name p len hname hp.getprop]

end

/-! ## The filter -/

section
variable {env : Env} {m' : Mem} {inp : HandleInput} {e : HandleEntry} {props : List PropertyEntry} {p : Nat} {o : Int}

/-- The environment with another image in the same place. -/
def Env.withMem (env : Env) (m' : Mem) : Env := { env with mem := m' }

@[simp] theorem Env.withMem_defs (env : Env) (m' : Mem) : (env.withMem m').defs = env.defs := rfl
@[simp] theorem Env.withMem_logging (env : Env) (m' : Mem) : (env.withMem m').logging = env.logging := rfl
@[simp] theorem Env.withMem_malloc (env : Env) (m' : Mem) : malloc (env.withMem m') = malloc env := rfl

/-- The node of an entry in both images. -/
structure EntrySame (env : Env) (m' : Mem) (inp : HandleInput) (e : HandleEntry) : Prop where
  node : SameNode env.defs (e.fdt env) (e.fdt (env.withMem m')) e.node.offset
  first : SameFirst inp.prop (e.fdt env) (e.fdt (env.withMem m')) e.node.offset

theorem EntrySame.of_node {e' : HandleEntry} (h : EntrySame env m' inp e) (hnode : e'.node = e.node) :
    EntrySame env m' inp e' := by
  constructor
  · rw [HandleEntry.fdt, HandleEntry.fdt, hnode]
    exact h.node
  · rw [HandleEntry.fdt, HandleEntry.fdt, hnode]
    exact h.first

theorem isChipinfoFamilyMatch_same (h : EntrySame env m' inp e) :
    (isChipinfoFamilyMatch (env.withMem m') inp e).val = (isChipinfoFamilyMatch env inp e).val := by
  unfold isChipinfoFamilyMatch
  simp only [Env.withMem_defs, Env.withMem_malloc, INVALID_CANDIDATE_node, h.node.propSize]
  refine Traced.val_ite_congr (fun _ => rfl) fun hs => ?_
  obtain ⟨p, len, hp, hsize⟩ := propertyAt_of_size (not_not.mp hs)
  simp only [hsize]
  refine Traced.val_ite_congr (fun _ => rfl) fun _ => Traced.val_bind_congr rfl fun ptr _ =>
    Traced.val_ite_congr (fun _ => rfl) fun _ => ?_
  unfold getUint16PropList
  rw [getUintXPropList_elements hp DataType.noConfusion,
    getUintXPropList_elements (h.node.propertyAt hp) DataType.noConfusion]
  simp only [Traced.val_bind, val_ofExcept]
  unfold matchChipinfo
  rw [show DataType.uint16.width = 2 from rfl, h.first.chipinfo p len hp.getprop]

theorem identifyBlobType_same (h : EntrySame env m' inp e) :
    (identifyBlobTypeAndGetPlatforminfo (env.withMem m') inp e).val =
    (identifyBlobTypeAndGetPlatforminfo env inp e).val := by
  unfold identifyBlobTypeAndGetPlatforminfo
  simp only [Env.withMem_defs, Env.withMem_malloc, INVALID_CANDIDATE_node, h.node.propSize, h.node.boolProp]
  refine Traced.val_bind_congr rfl fun status _ => Traced.val_ite_congr (fun _ => rfl) fun _ => ?_
  refine Traced.val_ite_congr (fun _ => rfl) fun hs => Traced.val_ite_congr (fun _ => rfl) fun hfound => ?_
  have hok : (getPropSize env.defs (e.fdt env) e.node.offset PLATFORMINFO_PROP_NAME 0).1 = FDT_ERR_QC_NOERROR :=
    not_not.mp fun hc => hs ⟨hc, hfound⟩
  obtain ⟨p, len, hp, hsize⟩ := propertyAt_of_size hok
  simp only [hsize]
  refine Traced.val_ite_congr (fun _ => rfl) fun _ => Traced.val_bind_congr rfl fun ptr _ =>
    Traced.val_ite_congr (fun _ => rfl) fun _ => ?_
  unfold getUint8PropList
  rw [getUintXPropList_elements hp DataType.noConfusion,
    getUintXPropList_elements (h.node.propertyAt hp) DataType.noConfusion]
  simp only [Traced.val_bind, val_ofExcept]
  unfold matchPlatforminfo
  rw [show DataType.uint8.width = 1 from rfl, h.first.platforminfo p len hp.getprop]

theorem not_tupleList {name : Str} (h1 : name ≠ CHIPINFO_PROP_NAME) (h2 : name ≠ PLATFORMINFO_PROP_NAME) :
    ¬isTupleList name := not_or.mpr ⟨h1, h2⟩

theorem validateCompatibleString_same (h : SameNode env.defs (e.fdt env) (e.fdt (env.withMem m')) e.node.offset) :
    (validateCompatibleString (env.withMem m') inp e).val = (validateCompatibleString env inp e).val := by
  have hname : ¬isTupleList COMPATIBLE_PROP_NAME := not_tupleList (by decide) (by decide)
  unfold validateCompatibleString
  simp only [Env.withMem_defs, Env.withMem_malloc, INVALID_CANDIDATE_node, h.propSize, h.stringPropList hname]
  rfl

theorem isCompatibleStringMatch_same (h : EntrySame env m' inp e) :
    (isCompatibleStringMatch (env.withMem m') inp e).val = (isCompatibleStringMatch env inp e).val := by
  have hinv : EntrySame env m' inp (INVALID_CANDIDATE e) := h.of_node rfl
  unfold isCompatibleStringMatch
  refine Traced.val_bind_congr (identifyBlobType_same hinv) fun r hr => Traced.val_ite_congr (fun _ => rfl) fun _ => ?_
  have hframe := identifyBlobType_frame (env.withMem m') inp (INVALID_CANDIDATE e) r hr
  have hnode : EntrySame env m' inp (INVALID_CANDIDATE r.2) := h.of_node hframe.node
  exact validateCompatibleString_same hnode.node

/-- The client's properties, but 8-byte elements of board-info. -/
def UnitsKeepTuples (props : List PropertyEntry) : Prop :=
  ∀ q ∈ props, q.prop_name = PLATFORMINFO_PROP_NAME → q.prop_size_bytes ≠ 8

/-- The values of a client property are the same but for their order. -/
theorem getPropertyValues_same (h : SameNode env.defs (e.fdt env) (e.fdt (env.withMem m')) e.node.offset)
    {q : PropertyEntry}
    {p : Nat} {len : Int} (hp : PropertyAt (e.fdt env) e.node.offset q.prop_name p len)
    (hunit : q.prop_name = PLATFORMINFO_PROP_NAME → q.prop_size_bytes ≠ 8) :
    ∃ status l l', getPropertyValues env e q len.toNat = .ok (status, l) ∧
      getPropertyValues (env.withMem m') e q len.toNat = .ok (status, l') ∧
      l.length ≤ len.toNat / q.prop_size_bytes ∧ l'.length ≤ len.toNat / q.prop_size_bytes ∧ ∀ x, x ∈ l' ↔ x ∈ l := by
  have hread (t : DataType) (ht : t ≠ .boolean) (hw : t.width = q.prop_size_bytes) (hdvd : t.width ∣ 8) :
      ∃ status l l', getUintXPropList env.defs (e.fdt env) e.node.offset q.prop_name len.toNat 0 0 t =
        .ok (status, l) ∧
        getUintXPropList env.defs (e.fdt (env.withMem m')) e.node.offset q.prop_name len.toNat 0 0 t =
          .ok (status, l') ∧
        l.length ≤ len.toNat / q.prop_size_bytes ∧ l'.length ≤ len.toNat / q.prop_size_bytes ∧ ∀ x, x ∈ l' ↔
            x ∈ l := by
    refine ⟨_, _, _, getUintXPropList_elements hp ht, getUintXPropList_elements (h.propertyAt hp) ht, ?_, ?_,
      h.mem_elements hp hdvd (hw ▸ hunit)⟩
    · simp [elements, hw]
    · simp [elements, hw]
  unfold getPropertyValues
  split
  · exact hread .uint8 DataType.noConfusion (by simp [DataType.width, *]) (by decide)
  · exact hread .uint16 DataType.noConfusion (by simp [DataType.width, *]) (by decide)
  · exact hread .uint32 DataType.noConfusion (by simp [DataType.width, *]) (by decide)
  · exact hread .uint64 DataType.noConfusion (by simp [DataType.width, *]) (by decide)
  · exact ⟨-1, [], [], rfl, rfl, Nat.zero_le _, Nat.zero_le _, fun _ => Iff.rfl⟩

theorem contains_congr {l l' : List Nat} (h : ∀ x, x ∈ l' ↔ x ∈ l) (x : Nat) : l'.contains x = l.contains x := by
  rw [Bool.eq_iff_iff, List.contains_iff_mem, List.contains_iff_mem, h]

theorem propertyLoop_same (ps : List PropertyEntry) (hps : UnitsKeepTuples ps) :
    ∀ e index, SameNode env.defs (e.fdt env) (e.fdt (env.withMem m')) e.node.offset →
      (propertyLoop (env.withMem m') e index ps).val = (propertyLoop env e index ps).val := by
  induction ps with
  | nil => exact fun _ _ _ => rfl
  | cons q ps ih =>
    intro e index h
    have hunit := hps q List.mem_cons_self
    have ih := ih fun r hr => hps r (List.mem_cons_of_mem _ hr)
    unfold propertyLoop
    have hsize (n : Nat) : getPropSize env.defs
      ((INVALID_CANDIDATE e).fdt (env.withMem m')) e.node.offset q.prop_name n =
        getPropSize env.defs ((INVALID_CANDIDATE e).fdt env) e.node.offset q.prop_name n := h.propSize q.prop_name n
    simp only [Env.withMem_defs, Env.withMem_malloc, INVALID_CANDIDATE_node, hsize]
    refine Traced.val_ite_congr (fun _ => rfl) fun hs => ?_
    obtain ⟨p, len, hp, hlen⟩ := propertyAt_of_size (not_not.mp hs)
    obtain ⟨status, l, l', hl, hl', hle, hle', hmem⟩ := getPropertyValues_same (e := INVALID_CANDIDATE e) h hp hunit
    simp only [hlen, hl, hl']
    refine Traced.val_ite_congr (fun _ => rfl) fun _ => Traced.val_ite_congr (fun _ => rfl) fun _ => ?_
    refine Traced.val_bind_congr rfl fun ptr _ => Traced.val_ite_congr (fun _ => rfl) fun _ => ?_
    simp only [Traced.val_bind, val_ofExcept]
    refine Traced.val_ite_congr (fun _ => rfl) fun _ => Traced.val_ite_congr (fun _ => rfl) fun _ => ?_
    simp only [Traced.val_bind, val_free]
    rw [List.take_of_length_le hle, List.take_of_length_le hle', contains_congr hmem]
    exact Traced.val_ite_congr (fun _ => ih _ _ h) fun _ => rfl

theorem isPropertyListValid_same (hps : UnitsKeepTuples inp.prop_list)
    (h : SameNode env.defs (e.fdt env) (e.fdt (env.withMem m')) e.node.offset) :
    (isPropertyListValid (env.withMem m') inp e).val = (isPropertyListValid env inp e).val :=
  Traced.val_ite_congr (fun _ => rfl) fun _ => propertyLoop_same _ hps _ _ h

theorem isItDtbDtboCandidate_same (hps : UnitsKeepTuples inp.prop_list) (h : EntrySame env m' inp e) :
    (isItDtbDtboCandidate (env.withMem m') inp e).val = (isItDtbDtboCandidate env inp e).val := by
  unfold isItDtbDtboCandidate
  refine Traced.val_bind_congr (isChipinfoFamilyMatch_same h) fun r hr => Traced.val_ite_congr (fun _ => rfl) fun _ =>
    ?_
  have h1 := h.of_node (isChipinfoFamilyMatch_frame (env.withMem m') inp e r hr).node
  refine Traced.val_bind_congr (isCompatibleStringMatch_same h1) fun s hs =>
    Traced.val_ite_congr (fun _ => rfl) fun _ => ?_
  exact isPropertyListValid_same hps (h1.of_node
    (isCompatibleStringMatch_frame (env.withMem m') inp r.2 s hs).node).node

end

/-! ## Printing -/

section
variable {env : Env} {m' : Mem} {inp : HandleInput} {props : List PropertyEntry} {f f' : Blob} {o : Int} {name : Str}

theorem cstr_congr {rd rd' : Nat → UInt8} {p n : Nat} (h : ∀ i < n, rd' (p + i) = rd (p + i)) :
    cstr rd' p n = cstr rd p n := by
  induction n generalizing p with
  | zero => rfl
  | succ n ih =>
    have h0 := h 0 (Nat.zero_lt_succ n)
    have hrest := ih (p := p + 1) fun i hi => by
      have := h (i + 1) (Nat.succ_lt_succ hi)
      rwa [Nat.add_comm i, ← Nat.add_assoc] at this
    rw [Nat.add_zero] at h0
    unfold cstr
    rw [h0, hrest]

/-- The strings of a value are printed alike when its bytes are the same. -/
theorem printStrings_congr {n : Nat} : ∀ {ptr pos : Nat}, (∀ i < n, f'.rd (pos + i) = f.rd (pos + i)) →
    printStrings f' ptr pos n = printStrings f ptr pos n := by
  induction n using Nat.strong_induction_on with
  | _ n ih =>
    intro ptr pos h
    rw [printStrings, printStrings]
    have hstr : cstrWithin f'.rd pos n = cstrWithin f.rd pos n := by
      unfold cstrWithin
      rw [cstr_congr h]
    rw [hstr]
    by_cases hz : n = 0
    · rw [if_pos hz, if_pos hz]
    · rw [if_neg hz, if_neg hz]
      cases cstrWithin f.rd pos n with
      | none => rfl
      | some s =>
        simp only
        rw [ih (n - (s.length + 1)) (by omega) fun i hi => by
          have := h (s.length + 1 + i) (by omega)
          rwa [← Nat.add_assoc] at this]

/-- The lists of tuples are not printed as strings. -/
theorem datatypeSize_tuples (h : isTupleList name) : datatypeSize props name ≠ STRING_DATATYPE := by
  unfold datatypeSize
  rcases h with rfl | rfl
  · rw [if_pos (by decide)]
    decide
  · rw [if_neg (by decide), if_pos (by decide)]
    decide

theorem bytesAt_inj {p n : Nat} (h : bytesAt f' p n = bytesAt f p n) : ∀ i < n, f'.rd (p + i) = f.rd (p + i) := by
  intro i hi
  have := List.map_inj_left.mp h i (List.mem_range.mpr hi)
  exact this

theorem printProperty_same (haddr : f'.addr = f.addr) (h : SameNode env.defs f f' o) (site : Site) (name : Str) :
    (printProperty (env.withMem m') props f' o site name).val = (printProperty env props f o site name).val := by
  unfold printProperty
  simp only [Env.withMem_defs, Env.withMem_malloc, h.propSize]
  refine Traced.val_ite_congr (fun _ => rfl) fun hs => Traced.val_ite_congr (fun _ => rfl) fun _ => ?_
  obtain ⟨p, len, hp, -⟩ := propertyAt_of_size (not_not.mp hs)
  have hvalue : printPropertyValue f' o name (datatypeSize props name) = printPropertyValue f o name
      (datatypeSize props name) := by
    unfold printPropertyValue
    rw [h.position, hp.getprop]
    simp only
    by_cases hstr : datatypeSize props name = STRING_DATATYPE
    · have hname : ¬isTupleList name := fun hc => datatypeSize_tuples hc hstr
      have hlen : u32 len = len.toNat := by
        have h0 := hp.len_nonneg
        have hle := hp.len_le
        simp only [INT_MAX] at hle
        unfold u32
        omega
      rw [if_pos hstr, if_pos hstr, hlen, haddr,
        printStrings_congr (bytesAt_inj (h.value name p len hname hp.getprop))]
    · rw [if_neg hstr, if_neg hstr]
  rw [hvalue]

theorem printNames_same (haddr : f'.addr = f.addr) (h : SameNode env.defs f f' o) (phase : Phase) (n : Nat) :
    ∀ ptr index bytes, (printNames (env.withMem m') props phase f' o ptr index bytes n).val =
      (printNames env props phase f o ptr index bytes n).val := by
  induction n using Nat.strong_induction_on with
  | _ n ih =>
    intro ptr index bytes
    rw [printNames, printNames, haddr]
    refine Traced.val_ite_congr (fun _ => rfl) fun hn => Traced.val_ite_congr (fun _ => rfl) fun _ => ?_
    refine Traced.val_bind_congr (printProperty_same haddr h _ _) fun status _ =>
      Traced.val_ite_congr (fun _ => rfl) fun _ => ?_
    exact Traced.val_ite_congr (fun _ => rfl) fun _ => ih _ (by omega) _ _ _

theorem printBoardId_same {p : Nat} (hpath : pathOffset (blobAt m' p) ROOT_NODE = pathOffset
    (blobAt env.mem p) ROOT_NODE)
    (h : SameNode env.defs (blobAt env.mem p) (blobAt m' p) (pathOffset (blobAt env.mem p) ROOT_NODE))
    (phase : Phase) :
    (printBoardId (env.withMem m') props phase p).val = (printBoardId env props phase p).val := by
  have hsize : getPropNamesSize env.defs (blobAt m' p) (pathOffset (blobAt env.mem p) ROOT_NODE) =
      getPropNamesSize env.defs (blobAt env.mem p) (pathOffset (blobAt env.mem p) ROOT_NODE) := by
    unfold getPropNamesSize
    rw [h.names]
  have hnames (n : Nat) : getPropNames env.defs (blobAt m' p) (pathOffset (blobAt env.mem p) ROOT_NODE) n =
      getPropNames env.defs (blobAt env.mem p) (pathOffset (blobAt env.mem p) ROOT_NODE) n := by
    unfold getPropNames
    rw [h.names]
  unfold printBoardId
  simp only [Env.withMem_defs, Env.withMem_malloc, show (env.withMem m').mem = m' from rfl, hpath, hsize, hnames]
  refine Traced.val_ite_congr (fun _ => rfl) fun _ => Traced.val_ite_congr (fun _ => rfl) fun _ =>
    Traced.val_ite_congr (fun _ => rfl) fun _ => ?_
  refine Traced.val_bind_congr rfl fun names _ => Traced.val_ite_congr (fun _ => rfl) fun _ => ?_
  refine Traced.val_bind_congr rfl fun r _ => Traced.val_ite_congr (fun _ => rfl) fun _ => ?_
  refine Traced.val_bind_congr rfl fun buffer _ => Traced.val_ite_congr (fun _ => rfl) fun _ => ?_
  exact Traced.val_bind_congr (printNames_same (by rfl) h phase _ _ _ _) fun _ _ => rfl

end

/-! ## The walk -/

section
variable {env : Env} {m' : Mem} {inp : HandleInput} {w : WalkState} {e : HandleEntry} {start p : Nat}

theorem validateOemVariant_same (h : SameNode env.defs (e.fdt env) (e.fdt (env.withMem m')) e.node.offset) :
    (validateOemVariant (env.withMem m') inp e).val = (validateOemVariant env inp e).val := by
  have hname : ¬isTupleList OEM_VAR_PROP_NAME := not_tupleList (by decide) (by decide)
  unfold validateOemVariant
  simp only [Env.withMem_defs, Env.withMem_malloc, INVALID_CANDIDATE_node, h.propSize]
  refine Traced.val_ite_congr (fun _ => rfl) fun hs => Traced.val_ite_congr (fun _ => rfl) fun _ => ?_
  obtain ⟨p, len, hp, hlen⟩ := propertyAt_of_size (not_not.mp (not_or.mp hs).1)
  simp only [hlen]
  refine Traced.val_bind_congr rfl fun ptr _ => Traced.val_ite_congr (fun _ => rfl) fun _ => ?_
  unfold getUint32PropList
  rw [h.list hname hp DataType.noConfusion]

theorem validateAndSelectPlatformDtbo_same (plat : SelectedDtbo)
    (h : SameNode env.defs (e.fdt env) (e.fdt (env.withMem m')) e.node.offset) :
    (validateAndSelectPlatformDtbo (env.withMem m') inp plat e).val =
    (validateAndSelectPlatformDtbo env inp plat e).val := by
  unfold validateAndSelectPlatformDtbo
  refine Traced.val_ite_congr (fun _ => rfl) fun _ => ?_
  exact Traced.val_bind_congr (validateOemVariant_same (e := INVALID_CANDIDATE e) h) fun _ _ => rfl

theorem selectEntry_same (w : WalkState) (h : SameNode env.defs (e.fdt env) (e.fdt (env.withMem m')) e.node.offset) :
    (selectEntry (env.withMem m') inp w e).val = (selectEntry env inp w e).val := by
  unfold selectEntry
  split
  · rfl
  · rfl
  · exact Traced.val_bind_congr (validateAndSelectPlatformDtbo_same _ h) fun _ _ => rfl

theorem examineEntry_same (hps : UnitsKeepTuples inp.prop_list) (w : WalkState) (h : EntrySame env m' inp e) :
    (examineEntry (env.withMem m') inp w e).val = (examineEntry env inp w e).val := by
  unfold examineEntry
  refine Traced.val_bind_congr (isItDtbDtboCandidate_same hps h) fun r hr =>
    Traced.val_ite_congr (fun _ => rfl) fun _ => ?_
  refine Traced.val_ite_congr (fun _ => rfl) fun _ => ?_
  have hnode : EntrySame env m' inp (INVALID_CANDIDATE r.2) :=
    h.of_node (isItDtbDtboCandidate_frame (env.withMem m') inp e r hr).node
  exact Traced.val_bind_congr (selectEntry_same w hnode.node) fun _ _ => rfl

/-- The two images at the blobs of the first. -/
structure ImageSame (env : Env) (m' : Mem) (prop : ChipPlatInfo) (start : Nat) : Prop where
  tree : ∀ p, ImageBlob env.mem start p → SameTree env.defs (blobAt env.mem p) (blobAt m' p)
  first : ∀ p, ImageBlob env.mem start p → checkHeader (blobAt env.mem p) = 0 →
    SameFirst prop (blobAt env.mem p) (blobAt m' p) (pathOffset (blobAt env.mem p) ROOT_NODE)

theorem examineBlob_same (hps : UnitsKeepTuples inp.prop_list) (himg : ImageSame env m' inp.prop start)
    (hp : ImageBlob env.mem start p) (hc : checkHeader (blobAt env.mem p) = 0) (hw : w.fdtheader = p)
    (he : e.node.blob = p) :
    (examineBlob (env.withMem m') inp w e).val = (examineBlob env inp w e).val := by
  subst he
  have htree := himg.tree _ hp
  have hpath := htree.path hc
  unfold examineBlob
  rw [show e.fdt (env.withMem m') = blobAt m' e.node.blob from rfl,
    show e.fdt env = blobAt env.mem e.node.blob from rfl, hpath]
  refine Traced.val_ite_congr (fun _ => rfl) fun _ => Traced.val_bind_congr ?_ fun status _ =>
    Traced.val_ite_congr (fun _ => rfl) fun _ => ?_
  · unfold logEntry
    rw [hw]
    exact Traced.val_ite_congr (fun _ => printBoardId_same hpath (htree.node hc) _) fun _ => rfl
  · exact examineEntry_same hps w ⟨htree.node hc, himg.first _ hp hc⟩

/-- The end test looks at the header only. -/
theorem isFdtheaderAtEndOfImage_same (h : SameTree env.defs (blobAt env.mem p) (blobAt m' p)) :
    isFdtheaderAtEndOfImage (env.withMem m') inp start p initHandleEntry =
      isFdtheaderAtEndOfImage env inp start p initHandleEntry := by
  have hheader := h.header
  have hsize := h.size
  unfold isFdtheaderAtEndOfImage endOfSizedImage endOfUnsizedImage getBlobSize
  simp only [HandleEntry.fdt, show (env.withMem m').mem = m' from rfl, Env.withMem_defs, hheader, hsize]
  rfl

/-- What the walk has come by: blobs of the image with an accepted header. -/
structure WalkBlobs (env : Env) (start : Nat) (w : WalkState) : Prop where
  header : ImageBlob env.mem start w.fdtheader
  visited : ∀ s ∈ w.visited, ImageBlob env.mem start s.addr ∧ checkHeader (blobAt env.mem s.addr) = 0

theorem walkStep_blobs {w' : WalkState} (hw : WalkBlobs env start w) (h : (walkStep env inp w).val = .ok (.inl w')) :
    WalkBlobs env start w' := by
  obtain ⟨w1, hend, hx, rfl⟩ := walkStep_next h
  obtain ⟨-, -, hc, -, -⟩ := accepted_entry hend
  have hadv := walkStep_advance h
  have hf := examineBlob_frame _ _ _ _ _ hx
  have hheader : w1.fdtheader = w.fdtheader := hf.fdtheader
  have hvisited : w1.visited = w.visited ++ [⟨w.fdtheader, totalsize (blobAt env.mem w.fdtheader)⟩] := hf.visited
  have hlt := totalsize_lt (blobAt env.mem w.fdtheader)
  constructor
  · have hnext : (w1.advance (totalsize (blobAt env.mem w.fdtheader))).fdtheader =
        w.fdtheader + totalsize (blobAt env.mem w.fdtheader) := by
      simp only [WalkState.advance, hheader] at hadv ⊢
      omega
    rw [hnext]
    exact .next hw.header hc
  · intro s hs
    change s ∈ w1.visited at hs
    rw [hvisited, List.mem_append] at hs
    rcases hs with hs | hs
    · exact hw.visited s hs
    · rw [List.mem_singleton.mp hs]
      exact ⟨hw.header, hc⟩

theorem walkStep_same (hps : UnitsKeepTuples inp.prop_list) (himg : ImageSame env m' inp.prop start)
    (hw : WalkBlobs env start w) : (walkStep (env.withMem m') inp w).val = (walkStep env inp w).val := by
  rw [walkStep_eq, walkStep_eq, isFdtheaderAtEndOfImage_same (himg.tree _ hw.header)]
  generalize hend : isFdtheaderAtEndOfImage env inp _ w.fdtheader initHandleEntry = r
  obtain ⟨status, e, at_end⟩ := r
  simp only
  by_cases hs : status = SUCCESS
  · subst hs
    cases at_end with
    | true => simp only [if_true]
    | false =>
      obtain ⟨-, -, hc, rfl, -⟩ := accepted_entry hend
      have hblob := examineBlob_same (w := w.visit (totalsize (blobAt env.mem w.fdtheader)))
        (e := acceptedEntry w.fdtheader (totalsize (blobAt env.mem w.fdtheader))) hps himg hw.header hc rfl rfl
      simp only [acceptedEntry_size]
      rw [hblob]
  · rw [if_pos hs, if_pos hs]

theorem selectDtbAndDtbos_same (hps : UnitsKeepTuples inp.prop_list) (himg : ImageSame env m' inp.prop start) :
    (selectDtbAndDtbos (env.withMem m') inp (initHandleData start)).val =
      (selectDtbAndDtbos env inp (initHandleData start)).val := by
  unfold selectDtbAndDtbos
  refine Traced.val_ite_congr (fun _ => rfl) fun _ => ?_
  exact Traced.loop_congr (WalkBlobs env start) (fun w hw => walkStep_same hps himg hw)
    (fun w w' hw hs => walkStep_blobs hw hs) _ ⟨.first, fun s hs => (nomatch hs)⟩

/-- The selected blobs of a walk that succeeds are blobs of the image. -/
theorem selected_blobs {w : WalkState} (h : (selectDtbAndDtbos env inp (initHandleData start)).val =
    .ok (SUCCESS, w)) :
    ∀ s ∈ w.handle.pairs, s = ⟨0, 0⟩ ∨ (ImageBlob env.mem start s.addr ∧ checkHeader (blobAt env.mem s.addr) = 0) := by
  obtain ⟨-, hinv, hblobs, -⟩ := walk_end (WalkBlobs env start) (fun w w' _ hw hs => walkStep_blobs hw hs)
    ⟨.first, fun s hs => (nomatch hs)⟩ h
  exact fun s hs => (hinv.pairs s hs).imp_right fun hv => hblobs.visited s hv

/-! ## The whole call -/

theorem printSelected_same (himg : ImageSame env m' inp.prop start) (type : BlobType) {ptr size : Nat} (status : Int)
    (h : (⟨ptr, size⟩ : Segment) = ⟨0, 0⟩ ∨ (ImageBlob env.mem start ptr ∧ checkHeader (blobAt env.mem ptr) = 0)) :
    (printSelected (env.withMem m') inp type ptr size status).val =
    (printSelected env inp type ptr size status).val := by
  unfold printSelected
  refine Traced.val_ite_congr (fun hsel => ?_) fun _ => rfl
  rcases h with h | ⟨hp, hc⟩
  · cases h
    exact absurd rfl hsel.1
  · exact printBoardId_same ((himg.tree ptr hp).path hc) ((himg.tree ptr hp).node hc) _

theorem openHandle_same (hps : UnitsKeepTuples inp.prop_list) (himg : ImageSame env m' inp.prop start) :
    (openHandle (env.withMem m') inp start).val = (openHandle env inp start).val := by
  unfold openHandle
  refine Traced.val_bind_congr rfl fun status _ => Traced.val_ite_congr (fun _ => rfl) fun _ => ?_
  refine Traced.val_bind_congr (selectDtbAndDtbos_same hps himg) fun r hr =>
    Traced.val_ite_congr (fun _ => rfl) fun hs => ?_
  obtain ⟨status, w⟩ := r
  rw [not_not] at hs
  simp only at hs
  subst hs
  rw [selectDtbAndDtbos_same hps himg] at hr
  have hsel := selected_blobs hr
  refine Traced.val_bind_congr ?_ fun _ _ => rfl
  unfold printSelectedDtbDtbos
  refine Traced.val_bind_congr (printSelected_same himg _ _ (hsel _ (by simp [HandleData.pairs]))) fun s1 _ => ?_
  refine Traced.val_ite_congr (fun _ => rfl) fun _ => ?_
  refine Traced.val_bind_congr (printSelected_same himg _ _ (hsel _ (by simp [HandleData.pairs]))) fun s2 _ => ?_
  exact Traced.val_ite_congr (fun _ => rfl) fun _ => printSelected_same himg _ _ (hsel _ (by simp [HandleData.pairs]))

/-- The order of the tuples does not matter but for which of them are the first
of the device's family and of its platform type. -/
theorem tuple_order (env : Env) (m' : Mem) (a : OpenArgs) (prop : ChipPlatInfo)
    (hprop : a.Input_chip_plat_info_prop = some prop)
    (hps : UnitsKeepTuples (a.input prop).prop_list)
    (himg : ImageSame env m' prop a.dtbs_image_start_address) :
    (dtSelectOpen (env.withMem m') a).val = (dtSelectOpen env a).val := by
  have hopen : (openHandle (env.withMem m') (a.input prop) a.dtbs_image_start_address).val =
      (openHandle env (a.input prop) a.dtbs_image_start_address).val := openHandle_same hps himg
  unfold dtSelectOpen
  rw [hprop]
  simp only
  refine Traced.val_ite_congr (fun _ => rfl) fun _ => Traced.val_bind_congr rfl fun ptr _ => ?_
  refine Traced.val_ite_congr (fun _ => rfl) fun _ => ?_
  exact Traced.val_bind_congr hopen fun _ _ => rfl

end

/-! ## An overlay with two tuples -/

/-- A chip-info tuple of version 1.0. -/
def chipTuple (family id : UInt8) : List UInt8 := [0, family, 0, id, 0, 1, 0, 0]

/-- An overlay whose chip-info has two tuples. -/
def tupleBlob (x y : List UInt8) : List UInt8 :=
  boardIdBlob [(CHIPINFO_PROP_NAME, x ++ y), (IS_OVERLAY_PROP_NAME, [])] 7

def tupleMem (x y : List UInt8) : Mem := memOf 0x1000 (tupleBlob x y)

/-- Two tuples of the device's family, of which the second is for every chip; and
one of another family. -/
def samplePairs : List (List UInt8 × List UInt8) :=
  [(chipTuple 1 5, chipTuple 1 0), (chipTuple 1 0, chipTuple 1 5), (chipTuple 9 0, chipTuple 1 0),
  (chipTuple 1 0, chipTuple 9 0)]

/-- The blob, and the header after it. -/
theorem sample_blobs : ∀ q ∈ samplePairs,
    (checkHeader (blobAt (tupleMem q.1 q.2) 0x1000) = 0 ∧ totalsize (blobAt (tupleMem q.1 q.2) 0x1000) = 160 ∧
      pathOffset (blobAt (tupleMem q.1 q.2) 0x1000) ROOT_NODE = 8) ∧
    checkHeader (blobAt (tupleMem q.1 q.2) 0x10a0) = -FDT_ERR_BADMAGIC ∧
    totalsize (blobAt (tupleMem q.1 q.2) 0x10a0) = 0 := by
  decide +kernel

/-- The board-id node of the blob. -/
theorem sample_nodes : ∀ q ∈ samplePairs,
    (propNameScan imageDefs (blobAt (tupleMem q.1 q.2) 0x1000)
    (firstPropertyOffset (blobAt (tupleMem q.1 q.2) 0x1000) 8) =
        (FDT_ERR_QC_NOERROR, [CHIPINFO_PROP_NAME, IS_OVERLAY_PROP_NAME]) ∧
      Fdt.version (blobAt (tupleMem q.1 q.2) 0x1000) = 17 ∧
      firstPropertyOffset (blobAt (tupleMem q.1 q.2) 0x1000) 8 = 24) ∧
    (getPropertyByOffset (blobAt (tupleMem q.1 q.2) 0x1000) 24 = .ok 16 ∧
      getString (blobAt (tupleMem q.1 q.2) 0x1000) (propNameoff (blobAt (tupleMem q.1 q.2) 0x1000) 24) =
        .ok CHIPINFO_PROP_NAME ∧
      nextPropertyOffset (blobAt (tupleMem q.1 q.2) 0x1000) 24 = 52) ∧
    (getPropertyByOffset (blobAt (tupleMem q.1 q.2) 0x1000) 52 = .ok 0 ∧
      getString (blobAt (tupleMem q.1 q.2) 0x1000) (propNameoff (blobAt (tupleMem q.1 q.2) 0x1000) 52) =
        .ok IS_OVERLAY_PROP_NAME ∧
      nextPropertyOffset (blobAt (tupleMem q.1 q.2) 0x1000) 52 = -FDT_ERR_NOTFOUND) ∧
    (propValue (blobAt (tupleMem q.1 q.2) 0x1000) 24 = 92 ∧ propLen (blobAt (tupleMem q.1 q.2) 0x1000) 24 = 16 ∧
      propData (blobAt (tupleMem q.1 q.2) 0x1000) 24 = 92) ∧
    (propValue (blobAt (tupleMem q.1 q.2) 0x1000) 52 = 120 ∧ propLen (blobAt (tupleMem q.1 q.2) 0x1000) 52 = 0 ∧
      propData (blobAt (tupleMem q.1 q.2) 0x1000) 52 = 120) ∧
    bytesAt (blobAt (tupleMem q.1 q.2) 0x1000) 92 16 = q.1 ++ q.2 := by
  decide +kernel

/-- One turn of the search for a property. -/
theorem propertyScan_turn {f : Blob} {off n l : Int} {s : Str} (name : Str) (h0 : 0 ≤ off)
    (hprop : getPropertyByOffset f off = .ok l) (hname : getString f (propNameoff f off) = .ok s)
    (hnext : nextPropertyOffset f off = n) :
    propertyScan f name off = if name = s then .ok off else if n < 0 then .error n else propertyScan f name n := by
  subst hnext
  rw [propertyScan, if_neg (Int.not_lt.mpr h0), hprop, stringEq, hname]
  simp only [beq_iff_eq, eq_comm (a := s), dite_eq_ite]

/-- What a name finds among the properties of the node. -/
def sampleGetprop (name : Str) : Except Int (Nat × Int) :=
  if name = CHIPINFO_PROP_NAME then .ok (92, 16) else if name = IS_OVERLAY_PROP_NAME then .ok (120, 0)
  else .error (-FDT_ERR_NOTFOUND)

theorem sample_getprop {q : List UInt8 × List UInt8} (hq : q ∈ samplePairs) (name : Str) :
    getprop (blobAt (tupleMem q.1 q.2) 0x1000) 8 name = sampleGetprop name ∧
      getProperty (blobAt (tupleMem q.1 q.2) 0x1000) 8 name = sampleGetprop name := by
  obtain ⟨⟨-, hv, h0⟩, ⟨h1, h2, h3⟩, ⟨h4, h5, h6⟩, ⟨h7, h8, h9⟩, ⟨h10, h11, h12⟩, -⟩ := sample_nodes q hq
  generalize blobAt (tupleMem q.1 q.2) 0x1000 = f at *
  have hlen : getPropertyNamelen f 8 name = if name = CHIPINFO_PROP_NAME then .ok 24
      else if name = IS_OVERLAY_PROP_NAME then .ok 52 else .error (-FDT_ERR_NOTFOUND) := by
    have hpos : ¬(52 : Int) < 0 := by decide
    have hneg : -FDT_ERR_NOTFOUND < 0 := by decide
    unfold getPropertyNamelen
    rw [h0, propertyScan_turn name (by decide) h1 h2 h3, propertyScan_turn name (by decide) h4 h5 h6, if_neg hpos,
      if_pos hneg]
  have hnew : ¬Fdt.version f < 0x10 := by
    rw [hv]
    decide
  unfold getprop getProperty sampleGetprop
  rw [hlen, if_neg hnew]
  by_cases hc : name = CHIPINFO_PROP_NAME
  · simp only [if_pos hc, h7, h8, h9]
    exact ⟨rfl, rfl⟩
  · by_cases hi : name = IS_OVERLAY_PROP_NAME
    · simp only [if_neg hc, if_pos hi, h10, h11, h12]
      exact ⟨rfl, rfl⟩
    · simp only [if_neg hc, if_neg hi]
      exact ⟨trivial, trivial⟩

/-- The blob is the only one of the image. -/
theorem sample_where {x y : List UInt8} (hq : (x, y) ∈ samplePairs) {p : Nat}
    (hp : ImageBlob (tupleMem x y) 0x1000 p) :
    p = 0x1000 ∨ p = 0x10a0 := by
  obtain ⟨⟨-, hs, -⟩, hc, -⟩ := sample_blobs _ hq
  simp only at hs hc
  induction hp with
  | first => exact Or.inl rfl
  | next _ hok ih =>
    rcases ih with rfl | rfl
    · rw [hs]
      exact Or.inr rfl
    · rw [hc] at hok
      cases hok

/-- Blobs with the same two tuples are the same but for their order. -/
theorem sample_same {x y : List UInt8} (hq : (x, y) ∈ samplePairs) (hq' : (y, x) ∈ samplePairs)
    (hx : x.length = 8) (hy : y.length = 8) {p : Nat} (hp : ImageBlob (tupleMem x y) 0x1000 p) :
    SameTree imageDefs (blobAt (tupleMem x y) p) (blobAt (tupleMem y x) p) := by
  obtain ⟨⟨hc, hs, ho⟩, hc2, hs2⟩ := sample_blobs _ hq
  obtain ⟨⟨hc', hs', ho'⟩, hc2', hs2'⟩ := sample_blobs _ hq'
  simp only at hc hs ho hc2 hs2 hc' hs' ho' hc2' hs2'
  rcases sample_where hq hp with rfl | rfl
  · have hnode : SameNode imageDefs (blobAt (tupleMem x y) 0x1000) (blobAt (tupleMem y x) 0x1000) 8 := by
      have hget := fun name => (sample_getprop hq name).1
      refine ⟨?_, fun name => ?_, fun name => ?_, fun name p len hname hp => ?_, fun p len hp => ?_, fun p len hp =>
        ?_⟩
      · exact (sample_nodes _ hq').1.1.trans (sample_nodes _ hq).1.1.symm
      · exact (sample_getprop hq' name).1.trans (hget name).symm
      · exact (sample_getprop hq' name).2.trans (sample_getprop hq name).2.symm
      · -- the other property has no value
        have hp := (hget name).symm.trans hp
        unfold sampleGetprop at hp
        rw [if_neg fun hc => hname (Or.inl hc)] at hp
        split at hp <;> cases hp
        simp [bytesAt]
      · cases (hget CHIPINFO_PROP_NAME).symm.trans hp
        rw [show (16 : Int).toNat = 16 from rfl, (sample_nodes _ hq).2.2.2.2.2, (sample_nodes _ hq').2.2.2.2.2]
        exact Or.inr ⟨[x, y], [y, x], by simp, by simp, by simp [hx, hy], .swap x y []⟩
      · cases (hget PLATFORMINFO_PROP_NAME).symm.trans hp
    exact ⟨by rw [hc, hc'], by rw [hs, hs'], fun _ => by rw [ho, ho'], fun _ => ho.symm ▸ hnode⟩
  · exact ⟨by rw [hc2, hc2'], by rw [hs2, hs2'], fun hok => absurd (hc2.symm.trans hok) (by decide),
      fun hok => absurd (hc2.symm.trans hok) (by decide)⟩

def tupleArgs : OpenArgs where
  dtbs_image_start_address := 0x1000
  dtbs_image_size := 0
  Input_chip_plat_info_prop := some imageProp
  Input_prop_list := none
  prop_num_entries := 0

def tupleEnv (x y : List UInt8) : Env := imageEnv 0x1000 [tupleBlob x y] false

theorem tupleEnv_mem (x y : List UInt8) : (tupleEnv x y).mem = tupleMem x y := by
  unfold tupleEnv imageEnv tupleMem
  rw [List.flatten_singleton]

/-- An overlay for another chip of the family that is for every chip too: its
second tuple is not looked at. -/
theorem tuple_order_matters : ¬∀ (env : Env) (m' : Mem) (a : OpenArgs) (prop : ChipPlatInfo),
    a.Input_chip_plat_info_prop = some prop → UnitsKeepTuples (a.input prop).prop_list →
    (∀ p, ImageBlob env.mem a.dtbs_image_start_address p → SameTree env.defs (blobAt env.mem p) (blobAt m' p)) →
      (dtSelectOpen (env.withMem m') a).val = (dtSelectOpen env a).val := by
  intro h
  have hsame := h (tupleEnv (chipTuple 1 5) (chipTuple 1 0))
    (tupleMem (chipTuple 1 0) (chipTuple 1 5)) tupleArgs imageProp
    rfl (fun q hq => (nomatch hq)) fun p hp => by
      rw [tupleEnv_mem] at hp ⊢
      exact sample_same (by simp [samplePairs]) (by simp [samplePairs]) rfl rfl hp
  have hfirst : (dtSelectOpen (tupleEnv (chipTuple 1 5) (chipTuple 1 0)) tupleArgs).val =
      .ok (INVALID_PARAMETER, none) := by
    decide +kernel
  have hsecond : (dtSelectOpen ((tupleEnv (chipTuple 1 5) (chipTuple 1 0)).withMem
      (tupleMem (chipTuple 1 0) (chipTuple 1 5))) tupleArgs).val.map Prod.fst = .ok SUCCESS := by
    decide +kernel
  rw [hsame, hfirst] at hsecond
  cases hsecond

/-- A tuple of another family may stand before or after. -/
theorem tuple_order_other :
    (dtSelectOpen ((tupleEnv (chipTuple 9 0) (chipTuple 1 0)).withMem (tupleMem (chipTuple 1 0) (chipTuple 9 0)))
      tupleArgs).val =
      (dtSelectOpen (tupleEnv (chipTuple 9 0) (chipTuple 1 0)) tupleArgs).val := by
  have hq : (chipTuple 9 0, chipTuple 1 0) ∈ samplePairs := by simp [samplePairs]
  have hq' : (chipTuple 1 0, chipTuple 9 0) ∈ samplePairs := by simp [samplePairs]
  refine tuple_order _ _ tupleArgs imageProp rfl (fun q hq => (nomatch hq)) ⟨fun p hp => ?_, fun p hp hc => ?_⟩
  · rw [tupleEnv_mem] at hp ⊢
    exact sample_same hq hq' rfl rfl hp
  · rw [tupleEnv_mem] at hp hc ⊢
    obtain ⟨⟨-, -, ho⟩, hc2, -⟩ := sample_blobs _ hq
    simp only at ho hc2
    rcases sample_where hq hp with rfl | rfl
    · rw [ho]
      refine ⟨fun p len hp => ?_, fun p len hp => ?_⟩
      · cases (sample_getprop hq CHIPINFO_PROP_NAME).1.symm.trans hp
        rw [show (16 : Int).toNat = 16 from rfl, (sample_nodes _ hq).2.2.2.2.2, (sample_nodes _ hq').2.2.2.2.2]
        decide
      · cases (sample_getprop hq PLATFORMINFO_PROP_NAME).1.symm.trans hp
    · exact absurd (hc2.symm.trans hc) (by decide)

end DTFramework.Select
