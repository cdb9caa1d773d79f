import DTFramework.Select.Headers
import DTFramework.Select.Modes
import DTFramework.Extn.Driver

/-!
# What can be printed

`_print_board_id` reads the properties of a node back with element sizes it
guesses from the starts of their names, and its status ends the call. When it
succeeds is a condition on the node (`BoardPrints`).

Results:

* `printBoardId_ok`: a node is printed with success exactly when it prints;
* `printSelectedDtbDtbos_ok`: so is a selection, when it is not empty;
* `examineBlob_build`, `selectDtbAndDtbos_build`: the build with logging walks the
  image like the one without exactly when every node of the image prints.
-/
namespace DTFramework.Select

open DTFramework.Fdt DTFramework.Extn DTFramework.Lib

/-- The value of a property is whole elements of the size its name stands for, or
strings that end in it. -/
def PropertyPrints (props : List PropertyEntry) (f : Blob) (o : Int) (name : Str) : Prop :=
  ∃ pos len, getprop f o name = .ok (pos, len) ∧ 0 ≤ len ∧
    if datatypeSize props name = STRING_DATATYPE then
      u32 len = 0 ∨ f.rd (pos + u32 len - 1) = 0 ∧ f.addr + pos + u32 len < 2 ^ 64
    else datatypeSize props name ∣ u32 len

/-- The names of the properties of a node can be read and copied, there is memory
for them, and every property prints. -/
structure NodePrints (env : Env) (props : List PropertyEntry) (phase : Phase) (p : Nat) (o : Int) (names : List Str) :
    Prop where
  counted : namesLength names < 2 ^ 32
  copied : ∀ name ∈ names, name.length + 1 ≤ 0xffff
  allocated : env.alloc (.printNames phase p) (namesLength names) ≠ 0
  buffered : names = [] ∨ env.alloc (.printBuffer phase p) BUFFER_SIZE ≠ 0
  printed : ∀ name ∈ names, PropertyPrints props (blobAt env.mem p) o name

/-- There is no board-id node, or it prints. -/
def BoardPrints (env : Env) (props : List PropertyEntry) (phase : Phase) (p : Nat) : Prop :=
  let f := blobAt env.mem p
  let o := pathOffset f ROOT_NODE
  let names := propNameScan env.defs f (firstPropertyOffset f o)
  p ≠ 0 ∧ (o < 0 ∨ names.1 = FDT_ERR_QC_NOERROR ∧ NodePrints env props phase p o names.2)

theorem isSafeToAddPointer_bound {p n : Nat} (hn : n < 2 ^ 32) : isSafeToAddPointer p n = true ↔ p + n < 2 ^ 64 := by
  unfold isSafeToAddPointer
  simp only [Bool.not_eq_true', decide_eq_false_iff_not]
  omega

theorem isSafeToSubtractUint32_iff {a b : Nat} : isSafeToSubtractUint32 a b = true ↔ b ≤ a := by
  unfold isSafeToSubtractUint32
  simp only [Bool.not_eq_true', decide_eq_false_iff_not, Nat.not_lt]

/-! ## Values -/

/-- A string that stops at a byte before the end. -/
theorem cstr_length_lt {rd : Nat → UInt8} {p n i : Nat} (hi : i < n) (h : rd (p + i) = 0) :
    (cstr rd p n).length ≤ i := by
  induction n generalizing p i with
  | zero => omega
  | succ n ih =>
    rw [cstr]
    by_cases h0 : rd p = 0
    · rw [if_pos h0]
      exact Nat.zero_le _
    · rw [if_neg h0]
      cases i with
      | zero => exact absurd h h0
      | succ i =>
        have := ih (p := p + 1) (i := i) (by omega) (by rw [← h]; congr 1; omega)
        rw [List.length_cons]
        omega

/-- Elements print when they fill the value. -/
theorem printElements_ok (size remaining : Nat) : printElements size remaining = .ok SUCCESS ↔ size ∣ remaining := by
  induction remaining using Nat.strongRecOn with
  | _ remaining ih =>
    rw [printElements]
    by_cases h0 : remaining = 0
    · rw [if_pos h0, h0]
      exact ⟨fun _ => Nat.dvd_zero _, fun _ => rfl⟩
    · rw [if_neg h0]
      by_cases hs : size ≤ remaining
      · rw [isSafeToSubtractUint32_iff.mpr hs, if_neg (by decide)]
        by_cases hz : size = 0
        · rw [dif_pos hz, hz, Nat.zero_dvd]
          exact ⟨nofun, fun h => absurd h h0⟩
        · rw [dif_neg hz, ih _ (by omega)]
          exact Nat.dvd_sub_iff_left hs (Nat.dvd_refl size)
      · rw [Bool.eq_false_iff.mpr fun h => hs (isSafeToSubtractUint32_iff.mp h), if_pos (by decide)]
        exact ⟨fun h => absurd (Except.ok.inj h) (by decide), fun h => absurd (Nat.le_of_dvd (by omega) h) hs⟩

/-- Strings print when the last one ends. -/
theorem printStrings_ok (f : Blob) (remaining : Nat) (h32 : remaining < 2 ^ 32) (ptr pos : Nat) :
    printStrings f ptr pos remaining = SUCCESS ↔
      remaining = 0 ∨ f.rd (pos + remaining - 1) = 0 ∧ ptr + remaining < 2 ^ 64 := by
  induction remaining using Nat.strongRecOn generalizing ptr pos with
  | _ remaining ih =>
    rw [printStrings]
    by_cases h0 : remaining = 0
    · rw [if_pos h0]
      exact ⟨fun _ => Or.inl h0, fun _ => rfl⟩
    · rw [if_neg h0, cstrWithin]
      by_cases hlt : (cstr f.rd pos remaining).length < remaining
      · have hstop := cstr_stop hlt
        rw [if_pos hlt]
        simp only
        generalize (cstr f.rd pos remaining).length = n at hlt hstop ⊢
        by_cases hsafe : ptr + (n + 1) < 2 ^ 64
        · rw [(isSafeToAddPointer_bound (by omega)).mpr hsafe, if_neg (by decide), ih _ (by omega) (by omega)]
          rw [show pos + (n + 1) + (remaining - (n + 1)) = pos + remaining by omega,
            show ptr + (n + 1) + (remaining - (n + 1)) = ptr + remaining by omega]
          constructor
          · rintro (hn | h)
            · rw [show remaining = n + 1 by omega]
              exact Or.inr ⟨hstop, hsafe⟩
            · exact Or.inr h
          · rintro (hn | h)
            · exact absurd hn h0
            · exact Or.inr h
        · rw [Bool.eq_false_iff.mpr fun h => hsafe ((isSafeToAddPointer_bound (by omega)).mp h), if_pos (by decide)]
          exact ⟨nofun, fun h => by omega⟩
      · rw [if_neg hlt]
        refine ⟨nofun, fun h => absurd ?_ hlt⟩
        have hlast := (h.resolve_left h0).1
        have hrd : f.rd (pos + (remaining - 1)) = 0 := by rw [← Nat.add_sub_assoc (by omega), hlast]
        have := cstr_length_lt (show remaining - 1 < remaining by omega) hrd
        omega

/-- A guard returns without a fault. -/
theorem val_guard_error {α : Type} {c : Prop} [Decidable c] {r : α} {x : Prog α} {e : Fault} :
    (if c then return r else x : Prog α).val = .error e ↔ ¬c ∧ x.val = .error e := by
  by_cases hc : c
  · rw [if_pos hc]
    exact ⟨fun h => (by cases h), fun h => absurd hc h.1⟩
  · rw [if_neg hc]
    exact ⟨fun h => ⟨hc, h⟩, And.right⟩

/-- The status of a property, without the block for its value. -/
theorem printProperty_eq (env : Env) (props : List PropertyEntry) (f : Blob) (o : Int) (site : Site) (name : Str) :
    (printProperty env props f o site name).val =
      if (getPropSize env.defs f o name 0).1 ≠ FDT_ERR_QC_NOERROR then .ok (getPropSize env.defs f o name 0).1
      else if (getPropSize env.defs f o name 0).2 = 0 then .ok SUCCESS
      else printPropertyValue f o name (datatypeSize props name) := by
  unfold printProperty
  simp only
  by_cases hstatus : (getPropSize env.defs f o name 0).1 ≠ FDT_ERR_QC_NOERROR
  · rw [if_pos hstatus, if_pos hstatus]
    rfl
  · rw [if_neg hstatus, if_neg hstatus]
    by_cases hsize : (getPropSize env.defs f o name 0).2 = 0
    · rw [if_pos hsize, if_pos hsize]
      rfl
    · rw [if_neg hsize, if_neg hsize, Traced.val_bind, val_malloc]
      simp only
      rw [Traced.val_bind, val_ofExcept]
      cases printPropertyValue f o name (datatypeSize props name) with
      | error e => rfl
      | ok status =>
        simp only
        by_cases hok : status ≠ SUCCESS
        · rw [if_pos hok, Traced.val_bind, val_freeIf]
          rfl
        · rw [if_neg hok, not_not.mp hok]
          rfl

theorem printProperty_ok (env : Env) (props : List PropertyEntry) (f : Blob) (o : Int) (site : Site) (name : Str) :
    (printProperty env props f o site name).val = .ok SUCCESS ↔ PropertyPrints props f o name := by
  rw [printProperty_eq]
  unfold PropertyPrints getPropSize printPropertyValue
  cases hget : getprop f o name with
  | error len =>
    simp only
    rw [if_pos (lenError_ne _ _)]
    exact ⟨fun h => absurd (Except.ok.inj h) (lenError_ne _ _), fun ⟨_, _, h, _⟩ => nomatch h⟩
  | ok r =>
    obtain ⟨pos, len⟩ := r
    by_cases hneg : len < 0
    · simp only [if_pos hneg]
      rw [if_pos (lenError_ne _ _)]
      refine ⟨fun h => absurd (Except.ok.inj h) (lenError_ne _ _), fun ⟨_, _, h, hle, _⟩ => ?_⟩
      cases h
      omega
    · have hlt : u32 len < 2 ^ 32 := by
        unfold u32
        omega
      have hvalue : ((if datatypeSize props name = STRING_DATATYPE then
        Except.ok (printStrings f (f.addr + pos) pos (u32 len))
          else printElements (datatypeSize props name) (u32 len)) = .ok SUCCESS) ↔
          if datatypeSize props name = STRING_DATATYPE then
            u32 len = 0 ∨ f.rd (pos + u32 len - 1) = 0 ∧ f.addr + pos + u32 len < 2 ^ 64
          else datatypeSize props name ∣ u32 len := by
        split
        · rw [← printStrings_ok f (u32 len) hlt, Except.ok.injEq]
        · exact printElements_ok _ _
      have hright : (∃ pos' len', (Except.ok (pos, len) : Except Int (Nat × Int)) = .ok (pos', len') ∧ 0 ≤ len' ∧
          if datatypeSize props name = STRING_DATATYPE then
            u32 len' = 0 ∨ f.rd (pos' + u32 len' - 1) = 0 ∧ f.addr + pos' + u32 len' < 2 ^ 64
          else datatypeSize props name ∣ u32 len') ↔
          (if datatypeSize props name = STRING_DATATYPE then Except.ok (printStrings f (f.addr + pos) pos (u32 len))
            else printElements (datatypeSize props name) (u32 len)) = .ok SUCCESS := by
        rw [hvalue]
        exact ⟨fun ⟨_, _, h, _, hv⟩ => by cases h; exact hv, fun hv => ⟨pos, len, rfl, by omega, hv⟩⟩
      rw [hright]
      simp only [if_neg hneg]
      rw [if_neg (by decide)]
      by_cases hzero : u32 len = 0
      · rw [if_pos hzero]
        refine ⟨fun _ => hvalue.mpr ?_, fun _ => rfl⟩
        rw [hzero]
        split
        · exact Or.inl rfl
        · exact Nat.dvd_zero _
      · rw [if_neg hzero]

/-! ## Names -/

/-- The names as they are copied. -/
def nameBytes (names : List Str) : List UInt8 := names.flatMap (· ++ [0])

theorem namesLength_cons (name : Str) (names : List Str) :
    namesLength (name :: names) = name.length + 1 + namesLength names := by
  simp only [namesLength, List.map_cons, List.sum_cons]

theorem namesLength_eq_zero {names : List Str} : namesLength names = 0 ↔ names = [] := by
  cases names with
  | nil => exact ⟨fun _ => rfl, fun _ => rfl⟩
  | cons name names =>
    rw [namesLength_cons]
    exact ⟨fun h => by omega, nofun⟩

theorem zero_not_mem_cstr (rd : Nat → UInt8) (n : Nat) : ∀ p, 0 ∉ cstr rd p n := by
  induction n with
  | zero => exact fun p => List.not_mem_nil
  | succ n ih =>
    intro p
    rw [cstr]
    by_cases h0 : rd p = 0
    · rw [if_pos h0]
      exact List.not_mem_nil
    · rw [if_neg h0, List.mem_cons, not_or]
      exact ⟨fun h => h0 h.symm, ih _⟩

/-- Names that were copied are all there. -/
theorem fillNames_ok (d : DTBDefs) (names : List Str) (size status : Int) (bytes : List UInt8) (hsize : 0 ≤ size) :
    fillNames d size status names = .ok (FDT_ERR_QC_NOERROR, bytes) ↔
      (status = FDT_ERR_QC_NOERROR ∧ bytes = nameBytes names) ∧ (namesLength names : Int) ≤ size ∧
        ∀ name ∈ names, name.length + 1 ≤ 0xffff := by
  induction names generalizing size bytes with
  | nil =>
    simp only [fillNames, Except.ok.injEq, Prod.mk.injEq]
    exact ⟨fun h => ⟨⟨h.1, h.2.symm⟩, hsize, fun _ hn => absurd hn List.not_mem_nil⟩, fun h => ⟨h.1.1, h.1.2.symm⟩⟩
  | cons name names ih =>
    rw [fillNames, namesLength_cons]
    by_cases hmax : INT_MAX ≤ name.length
    · rw [if_pos hmax]
      refine ⟨fun h => absurd (Prod.mk.inj (Except.ok.inj h)).1 (libraryCode_ne (d.extends_std _ (by simp))).2,
        fun h => ?_⟩
      have := h.2.2 name List.mem_cons_self
      simp only [INT_MAX] at hmax
      omega
    · rw [if_neg hmax]
      by_cases hroom : size < name.length + 1
      · rw [if_pos hroom]
        refine ⟨fun h => absurd (Prod.mk.inj (Except.ok.inj h)).1 (libraryCode_ne (d.extends_std _ (by simp))).1,
          fun h => ?_⟩
        have := h.2.1
        omega
      · rw [if_neg hroom]
        by_cases hshort : 0xffff < name.length + 1
        · rw [if_pos hshort]
          refine ⟨fun h => (by cases h), fun h => ?_⟩
          have := h.2.2 name List.mem_cons_self
          omega
        · rw [if_neg hshort]
          have hrest := fun bytes => ih (size - (name.length + 1)) bytes (by omega)
          constructor
          · intro h
            cases hf : fillNames d (size - (name.length + 1)) status names with
            | error e => rw [hf] at h; cases h
            | ok r =>
              obtain ⟨r, rest⟩ := r
              rw [hf] at h
              obtain ⟨rfl, rfl⟩ := Prod.mk.inj (Except.ok.inj h)
              obtain ⟨⟨hst, hb⟩, hle, hcopied⟩ := (hrest rest).mp hf
              refine ⟨⟨hst, ?_⟩, by omega, List.forall_mem_cons.mpr ⟨by omega, hcopied⟩⟩
              rw [hb, nameBytes, nameBytes, List.flatMap_cons, List.append_assoc]
              rfl
          · rintro ⟨⟨hst, hb⟩, hle, hcopied⟩
            rw [(hrest (nameBytes names)).mpr ⟨⟨hst, rfl⟩, by omega, (List.forall_mem_cons.mp hcopied).2⟩, hb]
            simp only [nameBytes, List.flatMap_cons, List.append_assoc]
            rfl

/-- One turn of the loop over whole names. -/
theorem printNames_cons (env : Env) (props : List PropertyEntry) (phase : Phase) (f : Blob) (o : Int) {name : Str}
    {names : List Str}
    (hname : 0 ∉ name) {ptr : Nat} (index : Nat) (hend : ptr + namesLength (name :: names) < 2 ^ 64) :
    printNames env props phase f o ptr index (nameBytes (name :: names)) (namesLength (name :: names)) =
      printProperty env props f o (.printValue phase f.addr index) name >>= fun status =>
        if status ≠ SUCCESS then return (status, false)
        else printNames env props phase f o (ptr + (name.length + 1)) (index + 1) (nameBytes names)
            (namesLength names) := by
  have hbytes : nameBytes (name :: names) = name ++ 0 :: nameBytes names := by
    simp only [nameBytes, List.flatMap_cons, List.append_assoc]
    rfl
  have htake : (nameBytes (name :: names)).takeWhile (· ≠ 0) = name := by
    rw [hbytes, List.takeWhile_append_of_pos fun c hc => by
      simp only [ne_eq, decide_eq_true_eq]
      exact fun h0 => hname (h0 ▸ hc)]
    rw [List.takeWhile_cons_of_neg (by decide), List.append_nil]
  have hdrop : (nameBytes (name :: names)).drop (name.length + 1) = nameBytes names := by
    rw [hbytes, List.drop_append, List.drop_eq_nil_of_le (by omega)]
    simp
  rw [namesLength_cons] at hend ⊢
  have hsub : isSafeToSubtractUint32 (name.length + 1 + namesLength names) (name.length + 1) = true :=
    isSafeToSubtractUint32_iff.mpr (by omega)
  have hadd : isSafeToAddPointer ptr (name.length + 1) = true := isSafeToAddPointer_of_lt (by omega)
  rw [printNames, if_neg (by omega)]
  simp only [htake, hsub, hadd, Bool.not_true, Bool.false_eq_true, if_false, hdrop, Nat.add_sub_cancel_left]

theorem getString_nonul {f : Blob} {o : Int} {name : Str} (h : getString f o = .ok name) : 0 ∉ name := by
  have hfound {n p : Nat} {s : Str} (h : cstrWithin f.rd p n = some s) : 0 ∉ s := by
    unfold cstrWithin at h
    split at h
    · cases h
      exact zero_not_mem_cstr _ _ _
    · cases h
  unfold getString at h
  simp only at h
  repeat' split at h
  all_goals cases h
  all_goals exact hfound ‹_›

theorem propNameScan_nonul (d : DTBDefs) (f : Blob) (o : Int) : ∀ name ∈ (propNameScan d f o).2, 0 ∉ name := by
  have hget {o : Int} {name : Str} {len : Int} (h : getpropByOffset f o = .ok (name, len)) : 0 ∉ name := by
    unfold getpropByOffset at h
    split at h
    · cases h
    · split at h
      · cases h
      · cases h
        exact getString_nonul ‹_›
  fun_induction propNameScan d f o with
  | case1 => nofun
  | case2 => nofun
  | case3 => nofun
  | case4 o hneg pname len hprop hlen hlast => exact List.forall_mem_cons.mpr ⟨hget hprop, nofun⟩
  | case5 o hneg pname len hprop hlen hnext rest ih => exact List.forall_mem_cons.mpr ⟨hget hprop, ih⟩

/-! ## Nodes -/

/-- Printing comes to the properties of a node: their names can be counted and
copied, and there is memory for them. -/
structure NodeOpens (env : Env) (phase : Phase) (p : Nat) (names : List Str) : Prop where
  counted : namesLength names < 2 ^ 32
  copied : ∀ name ∈ names, name.length + 1 ≤ 0xffff
  allocated : env.alloc (.printNames phase p) (namesLength names) ≠ 0
  buffered : names = [] ∨ env.alloc (.printBuffer phase p) BUFFER_SIZE ≠ 0

/-- The copy of the names, with their length taken as a `uint32_t`. -/
theorem fillNames_counted (d : DTBDefs) (names : List Str) (bytes : List UInt8) :
    fillNames d (namesLength names % 0x100000000 : Nat) FDT_ERR_QC_NOERROR names = .ok (FDT_ERR_QC_NOERROR, bytes) ↔
      bytes = nameBytes names ∧ namesLength names < 2 ^ 32 ∧ ∀ name ∈ names, name.length + 1 ≤ 0xffff := by
  have hle : (namesLength names : Int) ≤ (namesLength names % 0x100000000 : Nat) ↔ namesLength names < 2 ^ 32 := by
    omega
  rw [fillNames_ok _ _ _ _ _ (Int.natCast_nonneg _), and_iff_right rfl, hle]

theorem NodeOpens.fills {env : Env} {phase : Phase} {p : Nat} {names : List Str} (h : NodeOpens env phase p names) :
    fillNames env.defs (namesLength names % 0x100000000 : Nat) FDT_ERR_QC_NOERROR names =
        .ok (FDT_ERR_QC_NOERROR, nameBytes names) :=
  (fillNames_counted _ _ _).mpr ⟨rfl, h.counted, h.copied⟩

section
variable (env : Env) (props : List PropertyEntry) {phase : Phase} {p : Nat} {names : List Str}

/-- The node is read: there is one, and the names of its properties are found. -/
def NodeRead (env : Env) (p : Nat) (names : List Str) : Prop :=
  let f := blobAt env.mem p
  let o := pathOffset f ROOT_NODE
  p ≠ 0 ∧ 0 ≤ o ∧ propNameScan env.defs f (firstPropertyOffset f o) = (FDT_ERR_QC_NOERROR, names)

theorem printBoardId_unread (phase : Phase) (p : Nat) :
    let f := blobAt env.mem p
    let o := pathOffset f ROOT_NODE
    let status := (propNameScan env.defs f (firstPropertyOffset f o)).1
    ¬(p ≠ 0 ∧ 0 ≤ o ∧ status = FDT_ERR_QC_NOERROR) →
      (printBoardId env props phase p).val = .ok (if p = 0 then INVALID_PARAMETER else if o < 0 then SUCCESS
        else status) := by
  intro f o status h
  unfold printBoardId
  simp only
  by_cases hp : p = 0
  · rw [if_pos hp, if_pos hp]
    rfl
  · rw [if_neg hp, if_neg hp]
    by_cases h0 : o < 0
    · rw [if_pos h0, if_pos h0]
      rfl
    · have hstatus : (getPropNamesSize env.defs f o).1 ≠ FDT_ERR_QC_NOERROR := fun hs => h ⟨hp, Int.not_lt.mp h0, hs⟩
      rw [if_neg h0, if_neg h0, if_pos hstatus]
      rfl

/-- Once printing comes to the properties, the status is theirs. -/
theorem printBoardId_opens (hread : NodeRead env p names) (h : NodeOpens env phase p names) :
    (printBoardId env props phase p).val =
      (printNames env props phase (blobAt env.mem p) (pathOffset (blobAt env.mem p) ROOT_NODE)
        (env.alloc (.printNames phase p) (namesLength names)) 0 (nameBytes names) (namesLength names) >>= fun r =>
          return r.1).val := by
  obtain ⟨hp, h0, hscan⟩ := hread
  have hfill := h.fills
  have hsize : namesLength names % 0x100000000 = namesLength names := Nat.mod_eq_of_lt h.counted
  have hbuffer : ¬(env.alloc (.printBuffer phase p) BUFFER_SIZE = 0 ∧ namesLength names ≠ 0) := by
    rintro ⟨hnone, hsome⟩
    exact h.buffered.resolve_left (mt namesLength_eq_zero.mpr hsome) hnone
  rw [hsize] at hfill
  unfold printBoardId getPropNamesSize getPropNames
  simp only [hscan, hsize]
  rw [if_neg hp, if_neg (Int.not_lt.mpr h0), if_neg (by decide), Traced.val_bind, val_malloc]
  simp only
  rw [if_neg h.allocated, Traced.val_bind, val_ofExcept, hfill]
  simp only
  rw [if_neg (by decide), Traced.val_bind, val_malloc]
  simp only
  rw [if_neg hbuffer, Traced.val_bind, Traced.val_bind]
  cases (printNames env props phase (blobAt env.mem p) (pathOffset (blobAt env.mem p) ROOT_NODE)
    (env.alloc (.printNames phase p) (namesLength names)) 0 (nameBytes names) (namesLength names)).val with
  | error fault => rfl
  | ok r =>
    obtain ⟨status, leaves⟩ := r
    cases leaves with
    | true => rfl
    | false =>
      simp only [Bool.false_eq_true, if_false, Traced.val_bind, val_free, val_freeIf]

/-- Where it does not, printing fails, and only the copy of the names may not return. -/
theorem printBoardId_closed (hread : NodeRead env p names) (h : ¬NodeOpens env phase p names) :
    (printBoardId env props phase p).val ≠ .ok SUCCESS ∧
      ((printBoardId env props phase p).val = .error .diverge ↔
        env.alloc (.printNames phase p) (namesLength names % 0x100000000) ≠ 0 ∧
          getPropNames env.defs (blobAt env.mem p) (pathOffset (blobAt env.mem p) ROOT_NODE)
            (namesLength names % 0x100000000) =
            .error .diverge) := by
  obtain ⟨hp, h0, hscan⟩ := hread
  unfold printBoardId getPropNamesSize getPropNames
  simp only [hscan]
  rw [if_neg hp, if_neg (Int.not_lt.mpr h0), if_neg (by decide), Traced.val_bind, val_malloc]
  simp only
  by_cases halloc : env.alloc (.printNames phase p) (namesLength names % 0x100000000) = 0
  · rw [if_pos halloc]
    refine ⟨fun hc => absurd (Except.ok.inj hc) (by decide), fun hc => (by cases hc), fun hc => absurd halloc hc.1⟩
  · rw [if_neg halloc, and_iff_right halloc, Traced.val_bind, val_ofExcept]
    cases hf : fillNames env.defs (namesLength names % 0x100000000 : Nat) FDT_ERR_QC_NOERROR names with
    | error fault =>
      simp only [Except.error.injEq, reduceCtorEq, ne_eq, not_false_eq_true, and_self]
    | ok r =>
      obtain ⟨status, bytes⟩ := r
      simp only
      by_cases hst : status ≠ FDT_ERR_QC_NOERROR
      · rw [if_pos hst, Traced.val_bind, val_free]
        exact ⟨fun hc => hst (Except.ok.inj hc), fun hc => (by cases hc), fun hc => (by cases hc)⟩
      · rw [if_neg hst, Traced.val_bind, val_malloc]
        rw [not_not.mp hst] at hf
        obtain ⟨-, hcounted, hcopied⟩ := (fillNames_counted env.defs names bytes).mp hf
        have hsize : namesLength names % 0x100000000 = namesLength names := Nat.mod_eq_of_lt hcounted
        rw [hsize] at halloc ⊢
        simp only
        have hbuffer : env.alloc (.printBuffer phase p) BUFFER_SIZE = 0 ∧ namesLength names ≠ 0 := by
          by_contra hb
          refine h ⟨hcounted, hcopied, halloc, ?_⟩
          rw [← namesLength_eq_zero]
          by_cases hlen : namesLength names = 0
          · exact Or.inl hlen
          · exact Or.inr fun hnone => hb ⟨hnone, hlen⟩
        rw [if_pos hbuffer]
        exact ⟨fun hc => (by cases hc), fun hc => (by cases hc), fun hc => (by cases hc)⟩

end

end DTFramework.Select
