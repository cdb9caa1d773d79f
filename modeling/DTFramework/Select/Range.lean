import DTFramework.Select.Image

/-!
# The extent of an image

The end test of the walk asks whether an address is in the image. The sum of
start and size is checked for overflow with the low 32 bits of the size only
(`range_check_exact`), and an address in the image is followed by a read of a
whole header, wherever the image ends (`header_reads_inside`).

Results:

* `range_check_exact`: when the end test is right about an address;
  `range_check_wraps` shows an image that it takes for empty;
* `header_reads_inside`: when the header check stays in the image;
  `header_reads_past_end` shows an image of one byte.
-/
namespace DTFramework.Select

open DTFramework.Fdt DTFramework.Extn DTFramework.Lib

/-! ## The range check -/

/-- What the range check promises, on natural numbers. -/
def RangeExact (address start size : Nat) : Prop :=
  addressWithinImageRange address start size =
    if 2 ^ 64 ≤ start + size then (POINTER_ARITHMETIC_OVERFLOW, false)
    else (SUCCESS, decide (start ≤ address ∧ address < start + size))

/-- A run over an image whose extent does not fit the address space does not
succeed without having seen a blob. -/
def NoSilentWrap (start size : Nat) : Prop :=
  ∀ (env : Env) (inp : HandleInput) (h : HandleData) (w : WalkState), h.dtbs_image_start_address = start →
    inp.dtbs_image_size = size → 2 ^ 64 ≤ start + size →
    (selectDtbAndDtbos env inp h).val = .ok (SUCCESS, w) → w.visited ≠ []

theorem isSafeToAddPointer_low {start size : Nat} (hs : start < 2 ^ 64) :
    isSafeToAddPointer start size = true ↔ start + size % 0x100000000 < 2 ^ 64 := by
  unfold isSafeToAddPointer
  simp only [Bool.not_eq_true', decide_eq_false_iff_not]
  omega

/-- An error of the end test ends the walk. -/
theorem walkStep_error {env : Env} {inp : HandleInput} {w : WalkState} {status : Int} {e : HandleEntry} {at_end : Bool}
    (h : isFdtheaderAtEndOfImage env inp w.handle.dtbs_image_start_address w.fdtheader initHandleEntry =
    (status, e, at_end))
    (hs : status ≠ SUCCESS) : (walkStep env inp w).val = .ok (.inr (status, w)) := by
  rw [walkStep_eq, h]
  exact if_pos hs

theorem endOfImage_overflow (env : Env) {inp : HandleInput} {start : Nat} (hstart : start ≠ 0)
    (hsize : inp.dtbs_image_size ≠ 0) (hover32 : isSafeToAddPointer start inp.dtbs_image_size = false) :
    isFdtheaderAtEndOfImage env inp start start initHandleEntry =
        (POINTER_ARITHMETIC_OVERFLOW, entryAt start, true) := by
  have hrange : addressWithinImageRange start start inp.dtbs_image_size = (POINTER_ARITHMETIC_OVERFLOW, false) := by
    unfold addressWithinImageRange
    rw [hover32]
    rfl
  rw [isFdtheaderAtEndOfImage_eq hstart hstart, if_pos hsize]
  unfold endOfSizedImage
  simp only [entryAt_blob, hrange]
  rfl

/-- An overflow that the check sees ends the run with an error. -/
theorem selectDtbAndDtbos_overflow {env : Env} {inp : HandleInput} {h : HandleData} {r : Int × WalkState}
    (hsize : inp.dtbs_image_size ≠ 0) (hover32 : isSafeToAddPointer h.dtbs_image_start_address inp.dtbs_image_size =
      false)
    (hr : (selectDtbAndDtbos env inp h).val = .ok r) : r.1 ≠ SUCCESS := by
  unfold selectDtbAndDtbos at hr
  split at hr
  · cases hr
    simp [INVALID_PARAMETER, SUCCESS]
  · rename_i hstart
    have hstep := walkStep_error (w := initWalkState h) (endOfImage_overflow env hstart hsize hover32)
      (by simp [POINTER_ARITHMETIC_OVERFLOW, SUCCESS])
    unfold walk at hr
    rw [Traced.loop_eq, hstep] at hr
    cases hr
    simp [POINTER_ARITHMETIC_OVERFLOW, SUCCESS]

/-- The range check is right unless the sum overflows and the sum with the low 32
bits of the size does not; then it takes any address for one outside the image,
and the walk ends before its first blob. -/
theorem range_check_exact (address start size : Nat) (hs : start < 2 ^ 64) (hn : size < 2 ^ 64) :
    RangeExact address start size ∧ NoSilentWrap start size ↔
      ¬(start + size % 0x100000000 < 2 ^ 64 ∧ 2 ^ 64 ≤ start + size) := by
  constructor
  · rintro ⟨hexact, -⟩ ⟨hlow, hover⟩
    unfold RangeExact addressWithinImageRange at hexact
    rw [(isSafeToAddPointer_low hs).mpr hlow, if_pos hover] at hexact
    exact absurd (congrArg Prod.fst hexact) (by simp [POINTER_ARITHMETIC_OVERFLOW, SUCCESS])
  · intro hband
    constructor
    · unfold RangeExact addressWithinImageRange
      by_cases hover : 2 ^ 64 ≤ start + size
      · have hover32 : isSafeToAddPointer start size = false := by
          rw [← Bool.not_eq_true, isSafeToAddPointer_low hs]
          exact fun hlow => hband ⟨hlow, hover⟩
        rw [hover32, if_pos hover]
        rfl
      · rw [isSafeToAddPointer_of_lt (by omega), if_neg hover, Nat.mod_eq_of_lt (by omega)]
        rfl
    · rintro env inp h w rfl rfl hover hrun
      have hover32 : isSafeToAddPointer h.dtbs_image_start_address inp.dtbs_image_size = false := by
        rw [← Bool.not_eq_true, isSafeToAddPointer_low hs]
        exact fun hlow => hband ⟨hlow, hover⟩
      exact absurd rfl (selectDtbAndDtbos_overflow (by omega) hover32 hrun)

/-- An image of 8 GiB at the end of the address space is taken for empty. -/
theorem range_check_wraps : ¬∀ address start size : Nat, start < 2 ^ 64 → size < 2 ^ 64 →
    RangeExact address start size ∧ NoSilentWrap start size := by
  intro h
  have hexact := (h 0xfffffffe00000000 0xfffffffe00000000 0x200000000 (by decide) (by decide)).1
  unfold RangeExact at hexact
  exact absurd (congrArg Prod.fst hexact) (by decide)

theorem range_check_exact_sample : RangeExact 0x1004 0x1000 0x80 ∧ NoSilentWrap 0x1000 0x80 ↔
    ¬(0x1000 + 0x80 % 0x100000000 < 2 ^ 64 ∧ 2 ^ 64 ≤ 0x1000 + 0x80) :=
  range_check_exact 0x1004 0x1000 0x80 (by decide) (by decide)

/-! ## What the end test reads -/

/-- The bytes of a 32-bit header field. -/
def fieldBytes (o : Nat) : List Nat := [o, o + 1, o + 2, o + 3]

/-- The header bytes `fdt_check_header` reads, each field where it is first read.
mirrors libs/libfdt/fdt.c:89-138 -/
def checkHeaderReads (f : Blob) : List Nat :=
  if f.addr % 8 ≠ 0 then []
  else fieldBytes 0 ++
    if magic f ≠ FDT_MAGIC then []
    else fieldBytes 20 ++
      if version f < FDT_FIRST_SUPPORTED_VERSION then []
      else fieldBytes 24 ++
        if lastCompVersion f > FDT_LAST_SUPPORTED_VERSION ∨ version f < lastCompVersion f then []
        else fieldBytes 4 ++
          if totalsize f < headerSize (version f) ∨ totalsize f > INT_MAX then []
          else fieldBytes 16 ++
            if !checkOff (headerSize (version f)) (totalsize f) (offMemRsvmap f) then []
            else fieldBytes 8 ++ (if version f < 17 then [] else fieldBytes 36) ++
              if !checkStruct f then [] else fieldBytes 12 ++ fieldBytes 32

/-- The addresses the end test reads when the client gives the size of the image:
the header, and the total size of an accepted one.
mirrors libs/DTSelectLib/dt_select.c:1609-1673 -/
def endOfSizedImageReads (env : Env) (image_size start p : Nat) : List Nat :=
  let (status, in_range) := addressWithinImageRange p start image_size
  if status ≠ SUCCESS ∨ !in_range then []
  else
    let f := blobAt env.mem p
    (checkHeaderReads f ++ if checkHeader f = 0 then fieldBytes 4 else []).map (p + ·)

/-- How many bytes of a header the check looks at: it stops at the first field
that is wrong, and the size of the structure block is in version 17 only. -/
def headerBytes (f : Blob) : Nat :=
  if f.addr % 8 ≠ 0 then 0
  else if magic f ≠ FDT_MAGIC then 4
  else if version f < FDT_FIRST_SUPPORTED_VERSION then 24
  else if lastCompVersion f > FDT_LAST_SUPPORTED_VERSION ∨ version f < lastCompVersion f ∨
      totalsize f < headerSize (version f) ∨ totalsize f > INT_MAX ∨
      checkOff (headerSize (version f)) (totalsize f) (offMemRsvmap f) = false then 28
  else if 17 ≤ version f then 40
  else if checkStruct f = false then 28
  else 36

theorem fieldBytes_inside {o n : Nat} : (∀ i ∈ fieldBytes o, i < n) ↔ o + 4 ≤ n := by
  unfold fieldBytes
  simp only [List.mem_cons, List.not_mem_nil, or_false, forall_eq_or_imp, forall_eq]
  omega

theorem forall_mem_append_iff {l l' : List Nat} {P : Nat → Prop} :
    (∀ i ∈ l ++ l', P i) ↔ (∀ i ∈ l, P i) ∧ ∀ i ∈ l', P i := by
  simp only [List.mem_append, or_imp, forall_and]

/-- The reads of the check stay within `n` bytes when those it looks at do. -/
theorem checkHeaderReads_inside (f : Blob) (n : Nat) : (∀ i ∈ checkHeaderReads f, i < n) ↔ headerBytes f ≤ n := by
  unfold checkHeaderReads headerBytes
  by_cases haddr : f.addr % 8 ≠ 0
  · simp [haddr]
  rw [if_neg haddr, if_neg haddr, forall_mem_append_iff, fieldBytes_inside]
  by_cases hmagic : magic f ≠ FDT_MAGIC
  · simp [hmagic]
  rw [if_neg hmagic, if_neg hmagic, forall_mem_append_iff, fieldBytes_inside]
  by_cases hfirst : version f < FDT_FIRST_SUPPORTED_VERSION
  · rw [if_pos hfirst, if_pos hfirst]
    simp
    omega
  rw [if_neg hfirst, if_neg hfirst, forall_mem_append_iff, fieldBytes_inside]
  by_cases hlast : lastCompVersion f > FDT_LAST_SUPPORTED_VERSION ∨ version f < lastCompVersion f
  · rw [if_pos hlast, if_pos (hlast.elim Or.inl fun h => Or.inr (Or.inl h))]
    simp
    omega
  rw [if_neg hlast, forall_mem_append_iff, fieldBytes_inside]
  by_cases hsize : totalsize f < headerSize (version f) ∨ totalsize f > INT_MAX
  · rw [if_pos hsize, if_pos (Or.inr (Or.inr (hsize.elim Or.inl fun h => Or.inr (Or.inl h))))]
    simp
    omega
  rw [if_neg hsize, forall_mem_append_iff, fieldBytes_inside]
  by_cases hrsv : checkOff (headerSize (version f)) (totalsize f) (offMemRsvmap f) = false
  · rw [if_pos (by rw [hrsv]; rfl), if_pos (Or.inr (Or.inr (Or.inr (Or.inr hrsv))))]
    simp
    omega
  have hgood : ¬(lastCompVersion f > FDT_LAST_SUPPORTED_VERSION ∨ version f < lastCompVersion f ∨
      totalsize f < headerSize (version f) ∨ totalsize f > INT_MAX ∨
      checkOff (headerSize (version f)) (totalsize f) (offMemRsvmap f) = false) := by
    rintro (h | h | h | h | h)
    · exact hlast (Or.inl h)
    · exact hlast (Or.inr h)
    · exact hsize (Or.inl h)
    · exact hsize (Or.inr h)
    · exact hrsv h
  rw [if_neg (by simpa using hrsv), if_neg hgood, forall_mem_append_iff, forall_mem_append_iff, fieldBytes_inside]
  by_cases hver : version f < 17
  · rw [if_pos hver, if_neg (Nat.not_le.mpr hver)]
    cases hstruct : checkStruct f with
    | false =>
      simp
      omega
    | true =>
      simp only [Bool.not_true, Bool.false_eq_true, if_false, forall_mem_append_iff, fieldBytes_inside]
      simp
      omega
  · rw [if_neg hver, if_pos (Nat.not_lt.mp hver), fieldBytes_inside]
    cases hstruct : checkStruct f with
    | false =>
      simp
      omega
    | true =>
      simp only [Bool.not_true, Bool.false_eq_true, if_false, forall_mem_append_iff, fieldBytes_inside]
      omega

/-- An accepted header was looked at to its end. -/
theorem headerBytes_ok {f : Blob} (h : checkHeader f = 0) : 28 ≤ headerBytes f := by
  have hok := (checkHeader_eq_zero f).mp h
  unfold headerBytes
  rw [if_neg (not_not.mpr hok.aligned), if_neg (not_not.mpr hok.magic), if_neg (Nat.not_lt.mpr hok.first)]
  repeat' split
  all_goals decide

/-- The states at whose header the walk makes the end test. -/
def Walked (env : Env) (inp : HandleInput) (h : HandleData) (w : WalkState) : Prop :=
  h.dtbs_image_start_address ≠ 0 ∧ Traced.Reaches (walkStep env inp) (initWalkState h) w

/-- The walk faults where a turn that it comes to does. -/
theorem selectDtbAndDtbos_fault (env : Env) (inp : HandleInput) (h : HandleData) (x : Fault) :
    (selectDtbAndDtbos env inp h).val = .error x ↔ ∃ w, Walked env inp h w ∧ (walkStep env inp w).val = .error x := by
  unfold selectDtbAndDtbos
  by_cases hstart : h.dtbs_image_start_address = 0
  · rw [if_pos hstart]
    refine ⟨fun h => (by cases h), ?_⟩
    rintro ⟨w, hw, -⟩
    exact absurd hstart hw.1
  · rw [if_neg hstart]
    unfold walk Walked
    rw [Traced.loop_error_iff]
    simp only [ne_eq, hstart, not_false_eq_true, true_and]

/-- The header at `p` ends in the image as far as the check looks at it. -/
def HeaderInside (env : Env) (image_size start p : Nat) : Prop :=
  start ≤ p → p < start + image_size → headerBytes (blobAt env.mem p) ≤ start + image_size - p

theorem endOfSizedImageReads_inside (env : Env) {size start : Nat} (p : Nat) (hn : start + size < 2 ^ 64) :
    (∀ a ∈ endOfSizedImageReads env size start p, start ≤ a ∧ a < start + size) ↔ HeaderInside env size start p := by
  unfold endOfSizedImageReads HeaderInside
  rw [addressWithinImageRange_eq hn]
  by_cases hin : start ≤ p ∧ p < start + size
  · have hcond : ¬(SUCCESS ≠ SUCCESS ∨ (!decide (start ≤ p ∧ p < start + size)) = true) := by simp [hin]
    simp only
    rw [if_neg hcond]
    simp only [List.mem_map, forall_exists_index, and_imp, forall_apply_eq_imp_iff₂]
    -- the total size is read after the whole header
    have hreads : (∀ i ∈ checkHeaderReads (blobAt env.mem p) ++
        (if checkHeader (blobAt env.mem p) = 0 then fieldBytes 4 else []), i < start + size - p) ↔
        headerBytes (blobAt env.mem p) ≤ start + size - p := by
      rw [forall_mem_append_iff, checkHeaderReads_inside]
      refine and_iff_left_of_imp fun hle => ?_
      by_cases hc : checkHeader (blobAt env.mem p) = 0
      · rw [if_pos hc, fieldBytes_inside]
        have := headerBytes_ok hc
        omega
      · rw [if_neg hc]
        exact fun i hi => (nomatch hi)
    constructor
    · intro h _ _
      exact hreads.mp fun i hi => by
        have := (h i hi).2
        omega
    · intro h i hi
      have := hreads.mpr (h hin.1 hin.2) i hi
      omega
  · have hcond : SUCCESS ≠ SUCCESS ∨ (!decide (start ≤ p ∧ p < start + size)) = true := by simp [hin]
    simp only
    rw [if_pos hcond]
    exact ⟨fun _ h1 h2 => absurd ⟨h1, h2⟩ hin, fun _ a ha => (nomatch ha)⟩

/-- The end test stays in the image, wherever the walk makes it, exactly when no
header that the walk comes to in the image ends after it. -/
theorem header_reads_inside (env : Env) (inp : HandleInput) (h : HandleData)
    (hn : h.dtbs_image_start_address + inp.dtbs_image_size < 2 ^ 64) :
    (∀ w, Walked env inp h w →
      ∀ a ∈ endOfSizedImageReads env inp.dtbs_image_size h.dtbs_image_start_address w.fdtheader,
        h.dtbs_image_start_address ≤ a ∧ a < h.dtbs_image_start_address + inp.dtbs_image_size) ↔
    ∀ w, Walked env inp h w → HeaderInside env inp.dtbs_image_size h.dtbs_image_start_address w.fdtheader :=
  forall_congr' fun w => imp_congr_right fun _ => endOfSizedImageReads_inside env w.fdtheader hn

/-- An image of one byte. -/
def byteInput : HandleInput where
  dtbs_image_size := 1
  prop := imageProp
  prop_list := []
  chipinfo_version_calc := 0
  platforminfo_version_calc := 0

/-- Four bytes are read for the magic of an image of one. -/
theorem header_reads_past_end : ¬∀ (env : Env) (inp : HandleInput) (h : HandleData), 0 < inp.dtbs_image_size →
    h.dtbs_image_start_address + inp.dtbs_image_size < 2 ^ 64 → ∀ w, Walked env inp h w →
      ∀ a ∈ endOfSizedImageReads env inp.dtbs_image_size h.dtbs_image_start_address w.fdtheader,
        h.dtbs_image_start_address ≤ a ∧ a < h.dtbs_image_start_address + inp.dtbs_image_size := by
  intro h
  have hread := h (imageEnv 0x1000 [] false) byteInput (initHandleData 0x1000) (by decide) (by decide)
    (initWalkState (initHandleData 0x1000)) ⟨by decide, .start⟩ 0x1003 (by decide +kernel)
  exact absurd hread.2 (by decide)

theorem header_reads_inside_byte :
    (∀ w, Walked (imageEnv 0x1000 [] false) byteInput (initHandleData 0x1000) w →
      ∀ a ∈ endOfSizedImageReads (imageEnv 0x1000 [] false) 1 0x1000 w.fdtheader, 0x1000 ≤ a ∧ a < 0x1000 + 1) ↔
    ∀ w, Walked (imageEnv 0x1000 [] false) byteInput (initHandleData 0x1000) w →
      HeaderInside (imageEnv 0x1000 [] false) 1 0x1000 w.fdtheader :=
  header_reads_inside (imageEnv 0x1000 [] false) byteInput (initHandleData 0x1000) (by decide)

end DTFramework.Select
