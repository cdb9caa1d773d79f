import DTFramework.Fdt.PropArea
import DTFramework.Extn.Prop

/-!
# What the getters read

In a well-formed node every getter is a function of the value's bytes
(`propertyBytes`): the size is their number, the lists of integers are the
big-endian values of their groups, a list of strings is the bytes with the last
one made NUL. A property that is not there is `-FDT_ERR_NOTFOUND`.

Results:

* `getUintXPropList_some`: a whole list of integers is the values of the groups;
* `getBoolProp_none`: the boolean getter asks whether the property is there;
* `getStringPropList_some`: a list of strings is copied as it is.
-/
namespace DTFramework.Extn

open DTFramework.Fdt

/-- The big-endian value of bytes. -/
def bigEndian (v : List UInt8) : Nat := v.foldl (fun n b => n * 256 + b.toNat) 0

theorem bigEndian_snoc (v : List UInt8) (b : UInt8) : bigEndian (v ++ [b]) = bigEndian v * 256 + b.toNat := by
  simp [bigEndian]

/-- The values of the groups of `w` bytes. -/
def elements (w : Nat) (v : List UInt8) : List Nat :=
  (List.range (v.length / w)).map fun i => bigEndian ((v.drop (i * w)).take w)

/-- The bytes of the blob at `p`. -/
def bytesAt (f : Blob) (p n : Nat) : List UInt8 := (List.range n).map fun i => f.rd (p + i)

@[simp] theorem bytesAt_length (f : Blob) (p n : Nat) : (bytesAt f p n).length = n := by simp [bytesAt]

theorem bytesAt_succ (f : Blob) (p n : Nat) : bytesAt f p (n + 1) = bytesAt f p n ++ [f.rd (p + n)] := by
  simp [bytesAt, List.range_succ]

theorem beValue_bytesAt (f : Blob) (p n : Nat) : beValue f p n = bigEndian (bytesAt f p n) := by
  induction n with
  | zero => rfl
  | succ n ih =>
    rw [bytesAt_succ, bigEndian_snoc, ← ih]
    rfl

/-- A group of a value is the value of its bytes. -/
theorem bytesAt_group (f : Blob) {p n k w : Nat} (h : k + w ≤ n) :
    ((bytesAt f p n).drop k).take w = bytesAt f (p + k) w := by
  refine List.ext_getElem (by simp; omega) fun i h1 h2 => ?_
  simp [bytesAt]
  congr 1
  omega

/-- The getter's loop over the elements. -/
theorem elements_bytesAt (f : Blob) (p n w : Nat) :
    elements w (bytesAt f p n) = (List.range (n / w)).map fun i => beValue f (p + i * w) w := by
  unfold elements
  rw [bytesAt_length]
  refine List.map_congr_left fun i hi => ?_
  have hi := List.mem_range.mp hi
  have hle : i * w + w ≤ n := by
    have h1 : (i + 1) * w ≤ n / w * w := Nat.mul_le_mul_right w hi
    have h2 := Nat.div_mul_le_self n w
    rw [Nat.add_mul] at h1
    omega
  rw [bytesAt_group f hle, beValue_bytesAt]

/-! ## The getters in a well-formed node -/

section
variable {d : DTBDefs} {f : Blob} {o : Int} {name : Str} {v : List UInt8}

theorem int32_ofNat {n : Nat} (h : n < 0x80000000) : int32 n = n := int32_of_lt (by omega) (by omega)

theorem u32_ofNat {n : Nat} (h : n < 0x100000000) : u32 (n : Int) = n := by
  unfold u32
  omega

/-- A lookup finds a value of the blob, or answers `-FDT_ERR_NOTFOUND`. -/
theorem getprop_ok (h : NodeOk f o) (name : Str) :
    (getprop f o name = .error (-FDT_ERR_NOTFOUND) ∧ propertyBytes f o name = none) ∨
      ∃ off, getPropertyNamelen f o name = .ok off ∧ propLen f off < INT_MAX ∧
        getprop f o name = .ok (propValue f off, (propLen f off : Int)) ∧
        propertyBytes f o name = some (bytesAt f (propValue f off) (propLen f off)) := by
  rcases h.namelen name with hn | ⟨off, hn, hlt⟩
  · refine Or.inl ⟨?_, ?_⟩
    · unfold getprop
      rw [hn]
    · unfold propertyBytes getprop
      rw [hn]
  · have hint : int32 (propLen f off) = propLen f off := int32_ofNat (by simp only [INT_MAX] at hlt; omega)
    have hget : getprop f o name = .ok (propValue f off, (propLen f off : Int)) := by
      unfold getprop
      rw [hn, ← hint]
    refine Or.inr ⟨off, hn, hlt, hget, ?_⟩
    unfold propertyBytes
    rw [hget]
    rfl

theorem propertyBytes_length (h : NodeOk f o) (hv : propertyBytes f o name = some v) : v.length < INT_MAX := by
  rcases getprop_ok h name with ⟨-, hn⟩ | ⟨off, -, hlt, -, hb⟩
  · rw [hn] at hv; cases hv
  · rw [hb] at hv
    cases hv
    rw [bytesAt_length]
    exact hlt

theorem getPropSize_none (h : NodeOk f o) (hv : propertyBytes f o name = none) :
    getPropSize d f o name 0 = (-FDT_ERR_NOTFOUND, 0) := by
  rcases getprop_ok h name with ⟨hg, -⟩ | ⟨off, -, -, -, hb⟩
  · unfold getPropSize
    rw [hg]
    rfl
  · rw [hb] at hv; cases hv

theorem getPropSize_some (h : NodeOk f o) (hv : propertyBytes f o name = some v) :
    getPropSize d f o name 0 = (FDT_ERR_QC_NOERROR, v.length) := by
  rcases getprop_ok h name with ⟨-, hn⟩ | ⟨off, -, hlt, hg, hb⟩
  · rw [hn] at hv; cases hv
  · rw [hb] at hv
    cases hv
    simp only [INT_MAX] at hlt
    unfold getPropSize
    rw [hg]
    simp only [bytesAt_length]
    rw [if_neg (by omega), u32_ofNat (by omega)]

/-- A whole list of integers, into a buffer of the property's size. -/
theorem getUintXPropList_some (h : NodeOk f o) (hv : propertyBytes f o name = some v) {t : DataType}
    (ht : t ≠ .boolean) :
    getUintXPropList d f o name v.length 0 0 t = .ok (FDT_ERR_QC_NOERROR, elements t.width v) := by
  rcases getprop_ok h name with ⟨-, hn⟩ | ⟨off, -, hlt, hg, hb⟩
  · rw [hn] at hv; cases hv
  · rw [hb] at hv
    cases hv
    simp only [INT_MAX] at hlt
    have hdiv : propLen f off / t.width ≤ propLen f off := Nat.div_le_self _ _
    have hint : int32 ((propLen f off : Int) / (t.width : Int)) = (propLen f off / t.width : Nat) := by
      rw [← Int.natCast_ediv]
      exact int32_ofNat (by omega)
    unfold getUintXPropList
    rw [hg]
    simp only [bytesAt_length]
    rw [if_neg (by omega), if_neg (fun hc => ht hc.2), if_neg ht, u32_ofNat (by omega), hint,
      u32_ofNat (by omega), elements_bytesAt, Int.toNat_natCast]
    simp only [gt_iff_lt, Nat.not_lt_zero, Nat.sub_zero, Nat.lt_irrefl, and_false, if_false]
    refine congrArg (fun l => Except.ok (FDT_ERR_QC_NOERROR, l)) (List.map_congr_left fun i hi => ?_)
    have hi := List.mem_range.mp hi
    rw [Nat.add_zero, Nat.mod_eq_of_lt (by omega)]

/-- The boolean getter: present and empty, or not there. -/
theorem getBoolProp_none (h : NodeOk f o) (hv : propertyBytes f o name = none) :
    getBoolProp d f o name = .ok (-FDT_ERR_NOTFOUND) := by
  rcases getprop_ok h name with ⟨hg, -⟩ | ⟨off, -, -, -, hb⟩
  · unfold getBoolProp getUintXPropList
    rw [hg]
    rfl
  · rw [hb] at hv; cases hv

theorem getBoolProp_nil (h : NodeOk f o) (hv : propertyBytes f o name = some []) :
    getBoolProp d f o name = .ok FDT_ERR_QC_NOERROR := by
  rcases getprop_ok h name with ⟨-, hn⟩ | ⟨off, -, -, hg, hb⟩
  · rw [hn] at hv; cases hv
  · have hlen : propLen f off = 0 := by
      rw [hb] at hv
      have := congrArg List.length (Option.some.inj hv)
      simpa using this
    unfold getBoolProp getUintXPropList
    rw [hg, hlen]
    rfl

/-- A list of strings; libfdt has it from version 16 on only. -/
theorem getStringPropList_some (h : NodeOk f o) (hv : propertyBytes f o name = some v) :
    getStringPropList d f o name v.length =
      if version f < 0x10 then (-FDT_ERR_BADVERSION, []) else (FDT_ERR_QC_NOERROR, terminated v) := by
  rcases getprop_ok h name with ⟨-, hn⟩ | ⟨off, hn, hlt, -, hb⟩
  · rw [hn] at hv; cases hv
  · rw [hb] at hv
    cases hv
    simp only [INT_MAX] at hlt
    unfold getStringPropList getProperty
    by_cases hver : version f < 0x10
    · rw [if_pos hver, if_pos hver]
      rfl
    · rw [if_neg hver, if_neg hver]
      have hvalue : propValue f off = propData f off := by
        unfold propValue
        rw [if_neg fun hc => hver hc.1]
      have hint : int32 (propLen f off) = propLen f off := int32_ofNat (by omega)
      rw [hn]
      simp only [bytesAt_length]
      rw [hint, if_neg (by omega), u32_ofNat (by omega), if_neg (by omega), Int.toNat_natCast, hvalue]
      rfl

end

end DTFramework.Extn
