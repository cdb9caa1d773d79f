import DTFramework.Lib.Tiles
import DTFramework.Extn.Blob
import DTFramework.Select.Rank
import DTFramework.Select.Print

/-!
# The walk over an image

`_select_dtb_and_dtbos` goes from header to header: it validates the entry,
examines the blob, keeps it if it is the best one of its type, and advances by
the blob's total size. One turn of the loop is `walkStep`; `visited` is ghost
state, the blobs whose header was accepted, in order.

The next header is past the last one whatever the image holds
(`walkStep_advance`), so the walk is a `loop` without a bound on its turns.

Results:

* `walkStep_eq`: one turn, as the end test, the examination and the advance;
* `walkStep_advance`: the next header is past this one;
* `walkStep_fault`: a turn faults as the examination of the blob at its header does.
-/
namespace DTFramework.Select

open DTFramework.Fdt DTFramework.Extn DTFramework.Lib

/-- mirrors libs/DTSelectLib/dt_select.c:1723-1749: the status and
`*is_within_range`. -/
def addressWithinImageRange (address start size : Nat) : Int × Bool :=
  if !isSafeToAddPointer start size then (POINTER_ARITHMETIC_OVERFLOW, false)
  else (SUCCESS, decide (start ≤ address ∧ address < (start + size) % 2 ^ 64))

/-- Case #1 of the end test, when the client gives the size of the image.
mirrors libs/DTSelectLib/dt_select.c:1609-1673 -/
def endOfSizedImage (env : Env) (image_size start : Nat) (e : HandleEntry) : Int × HandleEntry × Bool :=
  let p := e.node.blob
  let (status, in_range) := addressWithinImageRange p start image_size
  if status ≠ SUCCESS then (status, e, true)
  else if !in_range then (SUCCESS, e, true)
  else if checkHeader (e.fdt env) ≠ 0 then (checkHeader (e.fdt env), e, true)
  else
    let (status, size) := getBlobSize env.defs env.mem e.node
    let e := { e with device_tree_blob_size := size }
    if status ≠ FDT_ERR_QC_NOERROR then (status, e, true)
    else if size = 0 then (INVALID_BLOB_ENTRY, e, true)
    else if !isSafeToAddPointer p size then (POINTER_ARITHMETIC_OVERFLOW, e, true)
    else
      let (status, in_range) := addressWithinImageRange ((p + size) % 2 ^ 64 - 1) start image_size
      if status ≠ SUCCESS then (status, e, true)
      else if !in_range then (INVALID_BLOB_ENTRY, e, true)
      else (SUCCESS, VALID_CANDIDATE e, false)

/-- Case #2 of the end test, when only the headers tell where the image ends.
mirrors libs/DTSelectLib/dt_select.c:1675-1704 -/
def endOfUnsizedImage (env : Env) (e : HandleEntry) : Int × HandleEntry × Bool :=
  if checkHeader (e.fdt env) ≠ 0 then
    if checkHeader (e.fdt env) = -FDT_ERR_BADMAGIC then (SUCCESS, e, true)
    else (checkHeader (e.fdt env), e, true)
  else
    let (status, size) := getBlobSize env.defs env.mem e.node
    let e := { e with device_tree_blob_size := size }
    if status ≠ FDT_ERR_QC_NOERROR ∨ size = 0 then (INVALID_BLOB_ENTRY, e, true)
    else if !isSafeToAddPointer e.node.blob size then (POINTER_ARITHMETIC_OVERFLOW, e, true)
    else (SUCCESS, VALID_CANDIDATE e, false)

/-- mirrors libs/DTSelectLib/dt_select.c:1581-1711: the status, the entry and
`*end_of_dtb_dtbo_file`. -/
def isFdtheaderAtEndOfImage (env : Env) (inp : HandleInput) (start fdtheader : Nat) (e : HandleEntry) :
    Int × HandleEntry × Bool :=
  if fdtheader = 0 ∨ start = 0 then (INVALID_PARAMETER, e, true)
  else
    let e := { INVALID_CANDIDATE e with node := { e.node with blob := fdtheader } }
    if inp.dtbs_image_size ≠ 0 then endOfSizedImage env inp.dtbs_image_size start e
    else endOfUnsizedImage env e

structure WalkState where
  fdtheader : Nat
  handle : HandleData
  soc_dtbo_selected : SelectedDtbo
  platform_dtbo_selected : SelectedDtbo
  /-- The blobs whose header was accepted so far. -/
  visited : List Segment
deriving DecidableEq, Repr

/-- What the walk keeps of an entry. -/
def WalkState.keepBase (w : WalkState) (e : HandleEntry) : WalkState :=
  { w with handle := { w.handle with
      base_dtb_ptr := e.node.blob, base_dtb_size := e.device_tree_blob_size } }

def WalkState.keepSoc (w : WalkState) (e : HandleEntry) : WalkState :=
  { w with
    handle := { w.handle with soc_dtbo_ptr := e.node.blob, soc_dtbo_size := e.device_tree_blob_size }
    soc_dtbo_selected := { w.soc_dtbo_selected with
      rank := e.rank, device_tree_blob_size := e.device_tree_blob_size
      chipinfo_version_calc := e.chipinfo_version_calc } }

def WalkState.keepPlatform (w : WalkState) (e : HandleEntry) : WalkState :=
  { w with
    handle := { w.handle with plat_dtbo_ptr := e.node.blob, plat_dtbo_size := e.device_tree_blob_size }
    platform_dtbo_selected :=
      ⟨e.rank, e.device_tree_blob_size, e.chipinfo_version_calc, e.platforminfo_version_calc⟩ }

/-- The `switch` over the type of an accepted entry; the status of the selector
is not looked at.
mirrors libs/DTSelectLib/dt_select.c:1867-1922 -/
def selectEntry (env : Env) (inp : HandleInput) (w : WalkState) (e : HandleEntry) : Prog WalkState :=
  match e.device_tree_type with
  | .BASE_DTB =>
    let (_, e) := validateAndSelectBaseDtb w.handle e
    return if e.candidacy_status then w.keepBase e else w
  | .SOC_DTBO =>
    let (_, e) := validateAndSelectSocDtbo inp w.soc_dtbo_selected e
    return if e.candidacy_status then w.keepSoc e else w
  | .PLATFORM_DTBO => do
    let (_, e) ← validateAndSelectPlatformDtbo env inp w.platform_dtbo_selected e
    return if e.candidacy_status then w.keepPlatform e else w

/-- Print the board-id node of every visited blob, when logging is built in.
mirrors libs/DTSelectLib/dt_select.c:1826-1838 -/
def logEntry (env : Env) (inp : HandleInput) (fdtheader : Nat) : Prog Int :=
  if env.logging then printBoardId env inp.prop_list .walk fdtheader else return SUCCESS

/-- Filter an entry and select it.
mirrors libs/DTSelectLib/dt_select.c:1840-1922 -/
def examineEntry (env : Env) (inp : HandleInput) (w : WalkState) (e : HandleEntry) : Prog (Int × WalkState) := do
  let (status, e) ← isItDtbDtboCandidate env inp e
  if status ≠ SUCCESS then return (status, w)
  else if !e.candidacy_status then return (SUCCESS, w)
  else do
    let w ← selectEntry env inp w (INVALID_CANDIDATE e)
    return (SUCCESS, w)

/-- The entry with the board-id node of its blob. -/
def HandleEntry.atNode (e : HandleEntry) (offset : Int) : HandleEntry :=
  { e with node := { e.node with offset := offset } }

/-- What is done with a blob whose header was accepted: the status and the state.
mirrors libs/DTSelectLib/dt_select.c:1817-1922 -/
def examineBlob (env : Env) (inp : HandleInput) (w : WalkState) (e : HandleEntry) : Prog (Int × WalkState) := do
  let offset := pathOffset (e.fdt env) ROOT_NODE
  if offset < 0 then return (GET_ROOT_NODE_FAILED, w)
  else do
    let status ← logEntry env inp w.fdtheader
    if status ≠ SUCCESS then return (status, w)
    else examineEntry env inp w (e.atNode offset)

def WalkState.visit (w : WalkState) (size : Nat) : WalkState :=
  { w with visited := w.visited ++ [⟨w.fdtheader, size⟩] }

def WalkState.advance (w : WalkState) (size : Nat) : WalkState :=
  { w with fdtheader := (w.fdtheader + size) % 2 ^ 64 }

/-- One turn of the loop: on the right when the function returns.
mirrors libs/DTSelectLib/dt_select.c:1795-1926 -/
def walkStep (env : Env) (inp : HandleInput) (w : WalkState) : Prog (WalkState ⊕ (Int × WalkState)) := do
  let (status, e, at_end) :=
    isFdtheaderAtEndOfImage env inp w.handle.dtbs_image_start_address w.fdtheader initHandleEntry
  if status ≠ SUCCESS then return .inr (status, w)
  else if at_end then return .inr (SUCCESS, w)
  else do
    let (status, w) ← examineBlob env inp (w.visit e.device_tree_blob_size) e
    if status ≠ SUCCESS then return .inr (status, w)
    else return .inl (w.advance e.device_tree_blob_size)

/-! ## The end test -/

/-- The entry the end test looks at. -/
def entryAt (fdtheader : Nat) : HandleEntry := { initHandleEntry with node := ⟨fdtheader, 0⟩ }

/-- The entry of a blob whose header was accepted. -/
def acceptedEntry (fdtheader size : Nat) : HandleEntry :=
  VALID_CANDIDATE { entryAt fdtheader with device_tree_blob_size := size }

@[simp] theorem entryAt_blob (p : Nat) : (entryAt p).node.blob = p := rfl
@[simp] theorem entryAt_fdt (env : Env) (p : Nat) : (entryAt p).fdt env = blobAt env.mem p := rfl
@[simp] theorem acceptedEntry_blob (p n : Nat) : (acceptedEntry p n).node.blob = p := rfl
@[simp] theorem acceptedEntry_fdt (env : Env) (p n : Nat) :
    (acceptedEntry p n).fdt env = blobAt env.mem p := rfl
@[simp] theorem acceptedEntry_size (p n : Nat) : (acceptedEntry p n).device_tree_blob_size = n := rfl

theorem getBlobSize_eq (d : DTBDefs) (m : Mem) (node : NodeHandle) (h : node.blob ≠ 0) :
    getBlobSize d m node = (FDT_ERR_QC_NOERROR, totalsize (blobAt m node.blob)) := by
  unfold getBlobSize; rw [if_neg h]

theorem isFdtheaderAtEndOfImage_eq {env : Env} {inp : HandleInput} {start p : Nat} (hp : p ≠ 0) (hs : start ≠ 0) :
    isFdtheaderAtEndOfImage env inp start p initHandleEntry =
      if inp.dtbs_image_size ≠ 0 then endOfSizedImage env inp.dtbs_image_size start (entryAt p)
      else endOfUnsizedImage env (entryAt p) := by
  unfold isFdtheaderAtEndOfImage
  rw [if_neg (not_or.mpr ⟨hp, hs⟩)]
  rfl

theorem addressWithinImageRange_eq {start n : Nat} (h : start + n < 2 ^ 64) (a : Nat) :
    addressWithinImageRange a start n = (SUCCESS, decide (start ≤ a ∧ a < start + n)) := by
  unfold addressWithinImageRange
  rw [isSafeToAddPointer_of_lt h, Nat.mod_eq_of_lt h]
  rfl

theorem isSafeToAddPointer_iff {p n : Nat} (hp : p < 2 ^ 64) (hn : n < 2 ^ 32) :
    isSafeToAddPointer p n = true ↔ p + n < 2 ^ 64 := by
  unfold isSafeToAddPointer
  simp only [Bool.not_eq_true', decide_eq_false_iff_not]
  omega

theorem totalsize_lt (f : Blob) : totalsize f < 2 ^ 32 := be32_lt f 4

theorem totalsize_pos_of_check {f : Blob} (h : checkHeader f = 0) : 0 < totalsize f :=
  ((checkHeader_eq_zero f).mp h).totalsize_pos

/-- The end test when the size is given, for a range that does not wrap. -/
theorem endOfSizedImage_eq {env : Env} {n start p : Nat} (hp : p ≠ 0) (hn : start + n < 2 ^ 64) (hsp : start ≤ p) :
    endOfSizedImage env n start (entryAt p) =
      let size := totalsize (blobAt env.mem p)
      if start + n ≤ p then (SUCCESS, entryAt p, true)
      else if checkHeader (blobAt env.mem p) ≠ 0 then (checkHeader (blobAt env.mem p), entryAt p, true)
      else if start + n < p + size then
        (if p + size < 2 ^ 64 then INVALID_BLOB_ENTRY else POINTER_ARITHMETIC_OVERFLOW,
          { entryAt p with device_tree_blob_size := size }, true)
      else (SUCCESS, acceptedEntry p size, false) := by
  unfold endOfSizedImage
  simp only [entryAt_blob, entryAt_fdt, addressWithinImageRange_eq hn,
    getBlobSize_eq env.defs env.mem (entryAt p).node hp]
  by_cases h1 : start + n ≤ p
  · simp [h1, Nat.not_lt.mpr h1]
  · have hin : start ≤ p ∧ p < start + n := ⟨hsp, Nat.lt_of_not_le h1⟩
    by_cases h2 : checkHeader (blobAt env.mem p) = 0
    · have hpos := totalsize_pos_of_check h2
      have hsafe := isSafeToAddPointer_iff (p := p) (by omega) (totalsize_lt (blobAt env.mem p))
      by_cases h3 : p + totalsize (blobAt env.mem p) < 2 ^ 64
      · rw [Nat.mod_eq_of_lt h3]
        by_cases h4 : start + n < p + totalsize (blobAt env.mem p)
        · have hout : ¬(start ≤ p + totalsize (blobAt env.mem p) - 1 ∧
              p + totalsize (blobAt env.mem p) - 1 < start + n) := by omega
          simp [-Nat.reducePow, h1, h2, h3, h4, hin, Nat.ne_of_gt hpos, hsafe.mpr h3, hout]
        · have hlast : start ≤ p + totalsize (blobAt env.mem p) - 1 ∧
              p + totalsize (blobAt env.mem p) - 1 < start + n := by omega
          simp [h1, h2, h4, hin, Nat.ne_of_gt hpos, hsafe.mpr h3, hlast, acceptedEntry]
      · have hover : isSafeToAddPointer p (totalsize (blobAt env.mem p)) = false := by
          rw [← Bool.not_eq_true, hsafe]; exact h3
        have h4 : start + n < p + totalsize (blobAt env.mem p) := by omega
        simp [-Nat.reducePow, h1, h2, h3, h4, hin, Nat.ne_of_gt hpos, hover]
    · simp [h1, h2, hin]

/-- The end test when no size is given. -/
theorem endOfUnsizedImage_eq {env : Env} {p : Nat} (hp : p ≠ 0) (hlt : p < 2 ^ 64) :
    endOfUnsizedImage env (entryAt p) =
      let size := totalsize (blobAt env.mem p)
      if checkHeader (blobAt env.mem p) = -FDT_ERR_BADMAGIC then (SUCCESS, entryAt p, true)
      else if checkHeader (blobAt env.mem p) ≠ 0 then (checkHeader (blobAt env.mem p), entryAt p, true)
      else if p + size < 2 ^ 64 then (SUCCESS, acceptedEntry p size, false)
      else (POINTER_ARITHMETIC_OVERFLOW, { entryAt p with device_tree_blob_size := size }, true) := by
  unfold endOfUnsizedImage
  simp only [entryAt_blob, entryAt_fdt, getBlobSize_eq env.defs env.mem (entryAt p).node hp]
  by_cases h2 : checkHeader (blobAt env.mem p) = 0
  · have hpos := totalsize_pos_of_check h2
    have hsafe := isSafeToAddPointer_iff hlt (totalsize_lt (blobAt env.mem p))
    by_cases h3 : p + totalsize (blobAt env.mem p) < 2 ^ 64
    · simp [-Nat.reducePow, FDT_ERR_BADMAGIC, h2, h3, Nat.ne_of_gt hpos, hsafe.mpr h3, acceptedEntry]
    · have hover : isSafeToAddPointer p (totalsize (blobAt env.mem p)) = false := by
        rw [← Bool.not_eq_true, hsafe]; exact h3
      simp [-Nat.reducePow, FDT_ERR_BADMAGIC, h2, h3, Nat.ne_of_gt hpos, hover]
  · by_cases h3 : checkHeader (blobAt env.mem p) = -9
    · simp [h3]
    · simp [h2, h3]

/-- Whatever the image holds, an accepted header is at an address, passes the
check, and the next one is past it. -/
theorem accepted_entry {env : Env} {inp : HandleInput} {start p : Nat} {e : HandleEntry}
    (h : isFdtheaderAtEndOfImage env inp start p initHandleEntry = (SUCCESS, e, false)) :
    p ≠ 0 ∧ start ≠ 0 ∧ checkHeader (blobAt env.mem p) = 0 ∧
      e = acceptedEntry p (totalsize (blobAt env.mem p)) ∧
      isSafeToAddPointer p (totalsize (blobAt env.mem p)) = true := by
  have h0 : p ≠ 0 ∧ start ≠ 0 := by
    by_contra hc
    unfold isFdtheaderAtEndOfImage at h
    rw [if_pos (by omega)] at h
    simp at h
  have hsize := getBlobSize_eq env.defs env.mem (entryAt p).node h0.1
  rw [isFdtheaderAtEndOfImage_eq h0.1 h0.2] at h
  refine ⟨h0.1, h0.2, ?_⟩
  split at h
  · unfold endOfSizedImage at h
    simp only [hsize] at h
    repeat' split at h
    all_goals simp_all [acceptedEntry]
  · unfold endOfUnsizedImage at h
    simp only [hsize] at h
    repeat' split at h
    all_goals simp_all [acceptedEntry]

/-! ## Frames -/

/-- What selecting an entry leaves as it was. -/
structure WalkState.Frame (w w' : WalkState) : Prop where
  fdtheader : w'.fdtheader = w.fdtheader
  visited : w'.visited = w.visited
  start : w'.handle.dtbs_image_start_address = w.handle.dtbs_image_start_address

theorem WalkState.Frame.refl (w : WalkState) : w.Frame w := ⟨rfl, rfl, rfl⟩

theorem selectEntry_frame {env : Env} {inp : HandleInput} {w w' : WalkState} {e : HandleEntry}
    (h : (selectEntry env inp w e).val = .ok w') : w.Frame w' := by
  unfold selectEntry at h
  split at h
  · simp only [Traced.val_pure, Except.ok.injEq] at h
    split at h <;> subst h <;> exact ⟨rfl, rfl, rfl⟩
  · simp only [Traced.val_pure, Except.ok.injEq] at h
    split at h <;> subst h <;> exact ⟨rfl, rfl, rfl⟩
  · obtain ⟨⟨s, e'⟩, -, h⟩ := Traced.val_bind_ok.mp h
    simp only [Traced.val_pure, Except.ok.injEq] at h
    split at h <;> subst h <;> exact ⟨rfl, rfl, rfl⟩

theorem examineEntry_frame (env : Env) (inp : HandleInput) (w : WalkState) (e : HandleEntry) :
    (examineEntry env inp w e).Ensures fun r => w.Frame r.2 := by
  unfold examineEntry
  simp only [Traced.ensures_ite, Traced.ensures_pure, Traced.ensures_bind]
  exact fun r _ => ⟨fun _ => .refl w, fun _ => ⟨fun _ => .refl w, fun _ w' h => selectEntry_frame h⟩⟩

theorem examineBlob_frame (env : Env) (inp : HandleInput) (w : WalkState) (e : HandleEntry) :
    (examineBlob env inp w e).Ensures fun r => w.Frame r.2 := by
  unfold examineBlob
  simp only [Traced.ensures_ite, Traced.ensures_pure, Traced.ensures_bind]
  exact ⟨fun _ => .refl w, fun _ s _ => ⟨fun _ => .refl w, fun _ => examineEntry_frame env inp w _⟩⟩

/-! ## The loop -/

/-- One turn, without the events. -/
theorem walkStep_eq (env : Env) (inp : HandleInput) (w : WalkState) :
    (walkStep env inp w).val =
      match isFdtheaderAtEndOfImage env inp w.handle.dtbs_image_start_address w.fdtheader initHandleEntry with
      | (status, e, at_end) =>
        if status ≠ SUCCESS then .ok (.inr (status, w))
        else if at_end then .ok (.inr (SUCCESS, w))
        else match (examineBlob env inp (w.visit e.device_tree_blob_size) e).val with
        | .error fault => .error fault
        | .ok (status, w1) =>
          if status ≠ SUCCESS then .ok (.inr (status, w1))
          else .ok (.inl (w1.advance e.device_tree_blob_size)) := by
  unfold walkStep
  generalize isFdtheaderAtEndOfImage env inp _ w.fdtheader initHandleEntry = r
  obtain ⟨status, e, at_end⟩ := r
  simp only
  split
  · rfl
  · split
    · rfl
    · rw [Traced.val_bind]
      cases (examineBlob env inp (w.visit e.device_tree_blob_size) e).val with
      | error fault => rfl
      | ok r => simp only; split <;> rfl

/-- A turn faults as the examination of the blob at its header does. -/
theorem walkStep_fault (env : Env) (inp : HandleInput) (w : WalkState) (x : Fault) :
    (walkStep env inp w).val = .error x ↔
    (∃ e, isFdtheaderAtEndOfImage env inp w.handle.dtbs_image_start_address w.fdtheader initHandleEntry =
    (SUCCESS, e, false)) ∧
      (examineBlob env inp (w.visit (totalsize (blobAt env.mem w.fdtheader)))
        (acceptedEntry w.fdtheader (totalsize (blobAt env.mem w.fdtheader)))).val = .error x := by
  rw [walkStep_eq]
  cases hend : isFdtheaderAtEndOfImage env inp w.handle.dtbs_image_start_address w.fdtheader initHandleEntry with
  | mk status r =>
    obtain ⟨e, at_end⟩ := r
    simp only
    by_cases hs : status ≠ SUCCESS
    · rw [if_pos hs]
      refine ⟨fun h => (by cases h), ?_⟩
      rintro ⟨⟨_, h⟩, -⟩
      exact absurd (Prod.mk.inj h).1 hs
    · rw [if_neg hs]
      rw [not_not] at hs
      subst hs
      cases at_end with
      | true =>
        refine ⟨fun h => (by cases h), ?_⟩
        rintro ⟨⟨_, h⟩, -⟩
        cases h
      | false =>
        obtain ⟨-, -, -, rfl, -⟩ := accepted_entry hend
        rw [and_iff_right ⟨_, rfl⟩]
        simp only [Bool.false_eq_true, if_false, acceptedEntry_size]
        cases (examineBlob env inp (w.visit (totalsize (blobAt env.mem w.fdtheader)))
          (acceptedEntry w.fdtheader (totalsize (blobAt env.mem w.fdtheader)))).val with
        | error fault => simp only [Except.error.injEq]
        | ok r =>
          refine ⟨fun h => ?_, fun h => by cases h⟩
          simp only at h
          split at h <;> cases h

/-- The way to the next turn: the header was accepted and the blob examined. -/
theorem walkStep_next {env : Env} {inp : HandleInput} {w w' : WalkState}
    (h : (walkStep env inp w).val = .ok (.inl w')) :
    ∃ w1, isFdtheaderAtEndOfImage env inp w.handle.dtbs_image_start_address w.fdtheader initHandleEntry =
        (SUCCESS, acceptedEntry w.fdtheader (totalsize (blobAt env.mem w.fdtheader)), false) ∧
      (examineBlob env inp (w.visit (totalsize (blobAt env.mem w.fdtheader)))
        (acceptedEntry w.fdtheader (totalsize (blobAt env.mem w.fdtheader)))).val = .ok (SUCCESS, w1) ∧
      w' = w1.advance (totalsize (blobAt env.mem w.fdtheader)) := by
  rw [walkStep_eq] at h
  split at h
  rename_i status e at_end hend
  split at h
  · cases h
  · rename_i hs
    rw [not_not] at hs
    subst hs
    cases at_end with
    | true => cases h
    | false =>
      obtain ⟨-, -, -, rfl, -⟩ := accepted_entry hend
      simp only [Bool.false_eq_true, if_false, acceptedEntry_size] at h
      split at h
      · cases h
      · rename_i status w1 hx
        split at h
        · cases h
        · rename_i hs
          rw [not_not] at hs
          subst hs
          cases h
          exact ⟨w1, hend, hx, rfl⟩

/-- The next header is past this one. -/
theorem walkStep_advance {env : Env} {inp : HandleInput} {w w' : WalkState}
    (h : (walkStep env inp w).val = .ok (.inl w')) : w.fdtheader < w'.fdtheader ∧ w'.fdtheader < 2 ^ 64 := by
  obtain ⟨w1, hend, hx, rfl⟩ := walkStep_next h
  obtain ⟨-, -, hc, -, hsafe⟩ := accepted_entry hend
  have hpos := totalsize_pos_of_check hc
  have hlt := totalsize_lt (blobAt env.mem w.fdtheader)
  unfold isSafeToAddPointer at hsafe
  simp only [Bool.not_eq_true', decide_eq_false_iff_not] at hsafe
  have hf : w1.fdtheader = w.fdtheader := (examineBlob_frame _ _ _ _ _ hx).fdtheader
  simp only [WalkState.advance, hf]
  omega

/-- The loop of `_select_dtb_and_dtbos`. -/
def walk (env : Env) (inp : HandleInput) : WalkState → Prog (Int × WalkState) :=
  Traced.loop (walkStep env inp) (fun w => 2 ^ 64 - w.fdtheader) fun w w' h => by
    have := walkStep_advance h
    omega

def initWalkState (h : HandleData) : WalkState :=
  ⟨h.dtbs_image_start_address, h, initSelectedDtbo, initSelectedDtbo, []⟩

/-- mirrors libs/DTSelectLib/dt_select.c:1762-1939: the status, and the state
with the handle data. -/
def selectDtbAndDtbos (env : Env) (inp : HandleInput) (h : HandleData) : Prog (Int × WalkState) :=
  if h.dtbs_image_start_address = 0 then return (INVALID_PARAMETER, initWalkState h)
  else walk env inp (initWalkState h)

end DTFramework.Select
