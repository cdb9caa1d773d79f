import DTFramework.Select.Cursor
import DTFramework.Select.Halts
import DTFramework.Select.Range

/-!
# Printing that does not end

With logging, `_print_board_id` runs on every blob the walk comes to, before the
filter that refuses entries of the client without a size. Its loop over the names
of the properties ends, and so does the loop over the strings of a value; the loop
over the elements of a value takes their size from the client
(`printElements_endless`). `printing_ends` says for which nodes the loops end, and
`select_endless` that the whole walk hangs otherwise.

Results:

* `printElements_endless`: the fault of the model is a loop that goes on for ever;
* `select_endless`: the walk hangs just when it comes to a blob whose printing does;
* `printing_ends`: the images and lists of the client for which every loop ends.
-/
namespace DTFramework.Select

open DTFramework.Fdt DTFramework.Extn DTFramework.Lib

/-! ## The loop over elements -/

theorem printElements_error (size remaining : Nat) (e : Fault) :
    printElements size remaining = .error e ↔ e = .diverge ∧ size = 0 ∧ remaining ≠ 0 := by
  induction remaining using Nat.strongRecOn with
  | _ remaining ih =>
    rw [printElements]
    by_cases h0 : remaining = 0
    · rw [if_pos h0]
      exact ⟨fun h => (by cases h), fun h => absurd h0 h.2.2⟩
    · rw [if_neg h0]
      by_cases hs : size ≤ remaining
      · rw [isSafeToSubtractUint32_iff.mpr hs, if_neg (by decide)]
        by_cases hz : size = 0
        · rw [dif_pos hz]
          exact ⟨fun h => ⟨(Except.error.inj h).symm, hz, h0⟩, fun h => by rw [h.1]⟩
        · rw [dif_neg hz, ih _ (by omega)]
          exact ⟨fun h => absurd h.2.1 hz, fun h => absurd h.2.1 hz⟩
      · rw [Bool.eq_false_iff.mpr fun h => hs (isSafeToSubtractUint32_iff.mp h), if_pos (by decide)]
        refine ⟨fun h => (by cases h), fun h => ?_⟩
        rw [h.2.1] at hs
        exact absurd (Nat.zero_le _) hs

/-- One turn of the loop over elements, unless it is left. -/
def elementTurn (size remaining : Nat) : Option Nat :=
  if remaining = 0 ∨ !isSafeToSubtractUint32 remaining size then none else some (remaining - size)

/-- The fault of the model is a loop that goes on for ever. -/
theorem printElements_endless (size remaining : Nat) : printElements size remaining = .error .diverge ↔
    ∃ run : Nat → Nat, run 0 = remaining ∧ ∀ n, elementTurn size (run n) = some (run (n + 1)) := by
  have hturn {a b : Nat} (h : elementTurn size a = some b) : a ≠ 0 ∧ b + size = a := by
    unfold elementTurn at h
    split at h
    · cases h
    · rename_i hgo
      obtain ⟨h0, hsafe⟩ := not_or.mp hgo
      have hle : size ≤ a := isSafeToSubtractUint32_iff.mp (by simpa using hsafe)
      cases h
      exact ⟨h0, Nat.sub_add_cancel hle⟩
  rw [printElements_error]
  constructor
  · rintro ⟨-, rfl, h0⟩
    refine ⟨fun _ => remaining, rfl, fun n => ?_⟩
    rw [elementTurn, if_neg, Nat.sub_zero]
    rw [isSafeToSubtractUint32_iff.mpr (Nat.zero_le _)]
    exact not_or.mpr ⟨h0, by decide⟩
  · rintro ⟨run, h0, hrun⟩
    refine ⟨rfl, ?_, h0 ▸ (hturn (hrun 0)).1⟩
    -- each turn takes the size away from what is left at the start
    have hleft (n : Nat) : run n + n * size = run 0 := by
      induction n with
      | zero => rw [Nat.zero_mul, Nat.add_zero]
      | succ n ih =>
        have := (hturn (hrun n)).2
        rw [← ih, Nat.succ_mul]
        omega
    by_contra hne
    have hlast := hleft (run 0 + 1)
    have := Nat.le_mul_of_pos_right (run 0 + 1) (Nat.pos_of_ne_zero hne)
    omega

/-! ## Properties -/

/-- A property that has a value, and whose elements have no size. -/
def Sizeless (props : List PropertyEntry) (f : Blob) (o : Int) (name : Str) : Prop :=
  ∃ pos len, getprop f o name = .ok (pos, len) ∧ 0 < len ∧ datatypeSize props name = 0

theorem printProperty_error (env : Env) (props : List PropertyEntry) (f : Blob) (o : Int) (site : Site) (name : Str)
    (e : Fault) :
    (printProperty env props f o site name).val = .error e ↔ e = .diverge ∧ Sizeless props f o name := by
  rw [printProperty_eq]
  unfold Sizeless getPropSize printPropertyValue
  cases hget : getprop f o name with
  | error len =>
    simp only
    rw [if_pos (lenError_ne _ _)]
    exact ⟨nofun, fun ⟨_, _, _, h, _⟩ => nomatch h⟩
  | ok r =>
    obtain ⟨pos, len⟩ := r
    obtain ⟨hneg, hmax⟩ := getprop_range hget
    have hzero : u32 len = 0 ↔ ¬0 < len := by
      simp only [INT_MAX] at hmax
      unfold u32
      omega
    simp only [if_neg (Int.not_lt.mpr hneg)]
    rw [if_neg (by decide)]
    by_cases h0 : u32 len = 0
    · rw [if_pos h0]
      refine ⟨nofun, fun ⟨_, _, _, h, hlt, _⟩ => ?_⟩
      cases h
      exact absurd hlt (hzero.mp h0)
    · rw [if_neg h0]
      by_cases hstring : datatypeSize props name = STRING_DATATYPE
      · rw [if_pos hstring]
        refine ⟨nofun, fun ⟨_, _, _, _, _, h⟩ => ?_⟩
        rw [hstring] at h
        exact absurd h (by decide)
      · rw [if_neg hstring, printElements_error]
        refine and_congr_right fun _ => ⟨fun h => ⟨pos, len, rfl, not_not.mp (mt hzero.mpr h0), h.1⟩, ?_⟩
        rintro ⟨_, _, -, -, h⟩
        exact ⟨h, h0⟩

/-! ## Names -/

/-- The properties of a node come, in this order, to one that prints for ever. -/
def ComesToSizeless (props : List PropertyEntry) (f : Blob) (o : Int) (names : List Str) : Prop :=
  ∃ pre name post, names = pre ++ name :: post ∧ (∀ n ∈ pre, PropertyPrints props f o n) ∧ Sizeless props f o name

theorem comesToSizeless_cons {props : List PropertyEntry} {f : Blob} {o : Int} {name : Str} {names : List Str} :
    ComesToSizeless props f o (name :: names) ↔
      Sizeless props f o name ∨ PropertyPrints props f o name ∧ ComesToSizeless props f o names := by
  constructor
  · rintro ⟨pre, n, post, hsplit, hpre, hn⟩
    cases pre with
    | nil =>
      cases hsplit
      exact Or.inl hn
    | cons m pre =>
      cases hsplit
      obtain ⟨hm, hpre⟩ := List.forall_mem_cons.mp hpre
      exact Or.inr ⟨hm, pre, n, post, rfl, hpre, hn⟩
  · rintro (h | ⟨hname, pre, n, post, rfl, hpre, hn⟩)
    · exact ⟨[], name, names, rfl, nofun, h⟩
    · exact ⟨name :: pre, n, post, rfl, List.forall_mem_cons.mpr ⟨hname, hpre⟩, hn⟩

theorem printNames_error (env : Env) (props : List PropertyEntry) (phase : Phase) (f : Blob) (o : Int) (e : Fault)
    (names : List Str)
    (hz : ∀ name ∈ names, 0 ∉ name) : ∀ (ptr index : Nat), ptr + namesLength names < 2 ^ 64 →
      ((printNames env props phase f o ptr index (nameBytes names) (namesLength names)).val = .error e ↔
        e = .diverge ∧ ComesToSizeless props f o names) := by
  induction names with
  | nil =>
    intro ptr index _
    rw [printNames, if_pos (by rfl)]
    refine ⟨fun h => (by cases h), ?_⟩
    rintro ⟨-, pre, name, post, h, -⟩
    exact absurd h.symm (by simp)
  | cons name names ih =>
    intro ptr index hend
    obtain ⟨hname, hz⟩ := List.forall_mem_cons.mp hz
    rw [printNames_cons env props phase f o hname index hend, Traced.val_bind_error, comesToSizeless_cons,
      printProperty_error]
    rw [namesLength_cons] at hend
    have hrest := ih hz (ptr + (name.length + 1)) (index + 1) (by omega)
    constructor
    · rintro (⟨he, h⟩ | ⟨status, hs, h⟩)
      · exact ⟨he, Or.inl h⟩
      · by_cases hst : status ≠ SUCCESS
        · rw [if_pos hst] at h
          cases h
        · rw [if_neg hst] at h
          rw [not_not.mp hst] at hs
          obtain ⟨he, h⟩ := hrest.mp h
          exact ⟨he, Or.inr ⟨(printProperty_ok _ _ _ _ _ _).mp hs, h⟩⟩
    · rintro ⟨he, h | ⟨hp, h⟩⟩
      · exact Or.inl ⟨he, h⟩
      · refine Or.inr ⟨SUCCESS, (printProperty_ok _ _ _ _ _ _).mpr hp, ?_⟩
        rw [if_neg (by decide)]
        exact hrest.mpr ⟨he, h⟩

/-! ## Nodes -/

/-- The call that copies the names of the board-id node returns. -/
def NamesReturn (env : Env) (p : Nat) : Prop :=
  let f := blobAt env.mem p
  let o := pathOffset f ROOT_NODE
  ∀ e, getPropNames env.defs f o (getPropNamesSize env.defs f o).2 ≠ .error e

theorem namesReturn_of {env : Env} {p : Nat}
    (h : (getPropNames env.defs (blobAt env.mem p) (pathOffset (blobAt env.mem p) ROOT_NODE)
    (getPropNamesSize env.defs (blobAt env.mem p) (pathOffset (blobAt env.mem p) ROOT_NODE)).2).toOption.isSome =
      true) :
    NamesReturn env p := by
  intro e he
  rw [he] at h
  cases h

/-- If printing comes to the properties of the board-id node, it does not come to
one that prints for ever. -/
def BoardEnds (env : Env) (props : List PropertyEntry) (phase : Phase) (p : Nat) : Prop :=
  let f := blobAt env.mem p
  let o := pathOffset f ROOT_NODE
  let names := propNameScan env.defs f (firstPropertyOffset f o)
  p ≠ 0 → 0 ≤ o → names.1 = FDT_ERR_QC_NOERROR → NodeOpens env phase p names.2 → ¬ComesToSizeless props f o names.2

/-- Printing a node does not return for its names, or for a property. -/
theorem printBoardId_diverge {env : Env} (hs : env.Sane) (props : List PropertyEntry) (phase : Phase) (p : Nat) :
    let f := blobAt env.mem p
    let o := pathOffset f ROOT_NODE
    let names := propNameScan env.defs f (firstPropertyOffset f o)
    (printBoardId env props phase p).val = .error .diverge ↔ p ≠ 0 ∧ 0 ≤ o ∧ names.1 = FDT_ERR_QC_NOERROR ∧
      (env.alloc (.printNames phase p) (namesLength names.2 % 0x100000000) ≠ 0 ∧
          getPropNames env.defs f o (namesLength names.2 % 0x100000000) = .error .diverge ∨
        NodeOpens env phase p names.2 ∧ ComesToSizeless props f o names.2) := by
  have hz := propNameScan_nonul env.defs (blobAt env.mem p)
    (firstPropertyOffset (blobAt env.mem p) (pathOffset (blobAt env.mem p) ROOT_NODE))
  have hunread := printBoardId_unread env props phase p
  simp only at hunread ⊢
  obtain ⟨⟨status, names⟩, hscan⟩ : ∃ scan, propNameScan env.defs (blobAt env.mem p)
    (firstPropertyOffset (blobAt env.mem p) (pathOffset (blobAt env.mem p) ROOT_NODE)) = scan := ⟨_, rfl⟩
  rw [hscan] at hz hunread ⊢
  simp only at hz hunread ⊢
  by_cases h : p ≠ 0 ∧ 0 ≤ pathOffset (blobAt env.mem p) ROOT_NODE ∧ status = FDT_ERR_QC_NOERROR
  · obtain ⟨hp, h0, rfl⟩ := h
    have hread : NodeRead env p names := ⟨hp, h0, hscan⟩
    rw [and_iff_right hp, and_iff_right h0, and_iff_right rfl]
    by_cases hopens : NodeOpens env phase p names
    · have hreturns : ¬(env.alloc (.printNames phase p) (namesLength names % 0x100000000) ≠ 0 ∧
          getPropNames env.defs (blobAt env.mem p) (pathOffset (blobAt env.mem p) ROOT_NODE)
            (namesLength names % 0x100000000) =
            .error .diverge) := by
        rintro ⟨-, h⟩
        unfold getPropNames at h
        simp only [hscan] at h
        rw [hopens.fills] at h
        cases h
      have hloop := printNames_error env props phase (blobAt env.mem p)
        (pathOffset (blobAt env.mem p) ROOT_NODE) .diverge
        names hz _ 0 (hs _ _ hopens.counted hopens.allocated)
      rw [printBoardId_opens env props hread hopens, Traced.val_bind_error, hloop, and_iff_right rfl,
        or_iff_right hreturns, and_iff_right hopens]
      refine or_iff_left ?_
      rintro ⟨_, -, h⟩
      cases h
    · rw [(printBoardId_closed env props hread hopens).2, or_iff_left fun h => hopens h.1]
  · rw [hunread h]
    refine iff_of_false (fun h => by cases h) ?_
    rintro ⟨hp, h0, hstatus, -⟩
    exact h ⟨hp, h0, hstatus⟩

/-! ## The walk -/

/-- Once the names are there, the call that prints a blob in the walk returns: the
loops it is left with are those of `_print_board_id` and `_print_property_value`. -/
def LoopsEnd (env : Env) (inp : HandleInput) (p : Nat) : Prop :=
  NamesReturn env p → (logEntry env inp p).val ≠ .error .diverge

theorem logEntry_logging {env : Env} (hl : env.logging = true) (inp : HandleInput) (p : Nat) :
    logEntry env inp p = printBoardId env inp.prop_list .walk p := if_pos hl

theorem loopsEnd_iff {env : Env} (hs : env.Sane) (hl : env.logging = true) (inp : HandleInput) (p : Nat) :
    LoopsEnd env inp p ↔ BoardEnds env inp.prop_list .walk p := by
  have hdiverge := printBoardId_diverge hs inp.prop_list .walk p
  unfold LoopsEnd NamesReturn BoardEnds
  simp only at hdiverge ⊢
  rw [logEntry_logging hl, Ne, hdiverge]
  constructor
  · intro h hp h0 hstatus hopens hcomes
    refine h (fun e he => ?_) ⟨hp, h0, hstatus, Or.inr ⟨hopens, hcomes⟩⟩
    unfold getPropNames getPropNamesSize at he
    simp only at he
    rw [hstatus, hopens.fills] at he
    cases he
  · rintro h hreturn ⟨hp, h0, hstatus, ⟨-, hnames⟩ | ⟨hopens, hcomes⟩⟩
    · exact hreturn _ hnames
    · exact h hp h0 hstatus hopens hcomes

/-- The walk comes to a blob whose header is accepted and prints its node. -/
structure Visits (env : Env) (inp : HandleInput) (start : Nat) (w : WalkState) : Prop where
  walked : Walked env inp (initHandleData start) w
  accepted : ∃ e, isFdtheaderAtEndOfImage env inp w.handle.dtbs_image_start_address w.fdtheader initHandleEntry =
    (SUCCESS, e, false)
  node : 0 ≤ pathOffset (blobAt env.mem w.fdtheader) ROOT_NODE

theorem examineBlob_diverge (env : Env) (inp : HandleInput) (w w' : WalkState) (hw : w'.fdtheader = w.fdtheader) :
    (examineBlob env inp w' (acceptedEntry w.fdtheader (totalsize (blobAt env.mem w.fdtheader)))).val =
      .error .diverge ↔
      0 ≤ pathOffset (blobAt env.mem w.fdtheader) ROOT_NODE ∧
          (logEntry env inp w.fdtheader).val = .error .diverge := by
  unfold examineBlob
  simp only [acceptedEntry_fdt, hw]
  rw [val_guard_error, Int.not_lt, Traced.val_bind_error]
  refine and_congr_right fun _ => or_iff_left ?_
  rintro ⟨status, -, h⟩
  exact examineEntry_halts env inp w' _ _ (val_guard_error.mp h).2 rfl

/-- Nothing else of the walk goes on for ever. -/
theorem walkStep_diverge (env : Env) (inp : HandleInput) (w : WalkState) : (walkStep env inp w).val = .error .diverge ↔
    (∃ e, isFdtheaderAtEndOfImage env inp w.handle.dtbs_image_start_address w.fdtheader initHandleEntry =
    (SUCCESS, e, false)) ∧
      0 ≤ pathOffset (blobAt env.mem w.fdtheader) ROOT_NODE ∧
          (logEntry env inp w.fdtheader).val = .error .diverge := by
  rw [walkStep_fault, examineBlob_diverge env inp w (w.visit _) rfl]

/-- The walk hangs exactly when it comes to a blob whose printing does. -/
theorem select_endless (env : Env) (inp : HandleInput) (start : Nat) :
    (selectDtbAndDtbos env inp (initHandleData start)).val = .error .diverge ↔
      ∃ w, Visits env inp start w ∧ (logEntry env inp w.fdtheader).val = .error .diverge := by
  rw [selectDtbAndDtbos_fault]
  refine exists_congr fun w => ?_
  rw [walkStep_diverge]
  constructor
  · rintro ⟨hw, haccepted, hnode, hlog⟩
    exact ⟨⟨hw, haccepted, hnode⟩, hlog⟩
  · rintro ⟨hw, hlog⟩
    exact ⟨hw.walked, hw.accepted, hw.node, hlog⟩

/-- The size of an element is none only when the client's list says so. -/
theorem datatypeSize_eq_zero {props : List PropertyEntry} {name : Str} : datatypeSize props name = 0 ↔
    (∀ own ∈ [CHIPINFO_PROP_NAME, PLATFORMINFO_PROP_NAME, COMPATIBLE_PROP_NAME, OEM_VAR_PROP_NAME], ¬own <+: name) ∧
      ∃ p, props.find? (·.prop_name.isPrefixOf name) = some p ∧ p.prop_size_bytes = 0 := by
  have hown {own : Str} (hpre : own.isPrefixOf name = true)
      (hmem : own ∈ [CHIPINFO_PROP_NAME, PLATFORMINFO_PROP_NAME, COMPATIBLE_PROP_NAME, OEM_VAR_PROP_NAME]) {P : Prop} :
      ¬((∀ own ∈ [CHIPINFO_PROP_NAME, PLATFORMINFO_PROP_NAME, COMPATIBLE_PROP_NAME, OEM_VAR_PROP_NAME],
          ¬own <+: name) ∧ P) :=
    fun h => h.1 _ hmem (List.isPrefixOf_iff_prefix.mp hpre)
  unfold datatypeSize
  split
  · exact ⟨nofun, fun h => absurd h (hown ‹_› (by simp))⟩
  split
  · exact ⟨nofun, fun h => absurd h (hown ‹_› (by simp))⟩
  split
  · exact ⟨nofun, fun h => absurd h (hown ‹_› (by simp))⟩
  split
  · exact ⟨nofun, fun h => absurd h (hown ‹_› (by simp))⟩
  rename_i h1 h2 h3 h4
  have hnone : ∀ own ∈ [CHIPINFO_PROP_NAME, PLATFORMINFO_PROP_NAME, COMPATIBLE_PROP_NAME, OEM_VAR_PROP_NAME],
      ¬own <+: name := by
    simp only [List.isPrefixOf_iff_prefix] at h1 h2 h3 h4
    simp only [List.mem_cons, List.not_mem_nil, or_false, forall_eq_or_imp, forall_eq]
    exact ⟨h1, h2, h3, h4⟩
  rw [and_iff_right hnone]
  cases props.find? (·.prop_name.isPrefixOf name) with
  | none => exact ⟨nofun, nofun⟩
  | some p => simp only [Option.some.injEq, exists_eq_left']

/-- Entries with sizes print. -/
theorem boardEnds_of_sizes {env : Env} {props : List PropertyEntry} (h : ∀ p ∈ props, p.prop_size_bytes ≠ 0)
    (phase : Phase) (p : Nat) :
    BoardEnds env props phase p := by
  rintro - - - - ⟨pre, name, post, -, -, pos, len, -, -, hsize⟩
  obtain ⟨-, entry, hentry, hzero⟩ := datatypeSize_eq_zero.mp hsize
  exact h entry (List.mem_of_find?_eq_some hentry) hzero

/-- For every image and every list of the client, the loops that print a blob end,
of all blobs the walk visits, exactly when none of their nodes comes to a property
that prints for ever. -/
theorem printing_ends (env : Env) (inp : HandleInput) (start : Nat) (h : env.Sane ∧ env.logging = true) :
    (∀ w, Visits env inp start w → LoopsEnd env inp w.fdtheader) ↔
      ∀ w, Visits env inp start w → BoardEnds env inp.prop_list .walk w.fdtheader := by
  obtain ⟨hs, hl⟩ := h
  refine forall_congr' fun w => imp_congr_right fun _ => ?_
  exact loopsEnd_iff hs hl inp w.fdtheader

theorem printing_ends_base :
    (∀ w, Visits (imageEnv 0x1000 [baseBlob [] 6] true) (initHandleInput 0 imageProp []) 0x1000 w →
        LoopsEnd (imageEnv 0x1000 [baseBlob [] 6] true) (initHandleInput 0 imageProp []) w.fdtheader) ↔
      ∀ w, Visits (imageEnv 0x1000 [baseBlob [] 6] true) (initHandleInput 0 imageProp []) 0x1000 w →
        BoardEnds (imageEnv 0x1000 [baseBlob [] 6] true) [] .walk w.fdtheader :=
  printing_ends _ _ _ ⟨imageEnv_sane _ _ _, rfl⟩

/-- A base tree with a property "x" of one byte. -/
def endlessEnv : Env := imageEnv 0x1000 [baseBlob [([120], [1])] 4] true

/-- The client's list has an entry for "x", of size 0. -/
def endlessInput : HandleInput := initHandleInput 0 imageProp [⟨[120], 0, 0⟩]

/-- Its value is printed for ever. -/
theorem sizeless_entry_hangs : ¬∀ (env : Env) (inp : HandleInput) (start : Nat), env.Sane ∧ env.logging = true →
    ∀ w, Visits env inp start w → LoopsEnd env inp w.fdtheader := by
  intro h
  have hvisits : Visits endlessEnv endlessInput 0x1000 (initWalkState (initHandleData 0x1000)) := by
    refine ⟨⟨by decide, .start⟩, ⟨acceptedEntry 0x1000 144, ?_⟩, ?_⟩
    · decide +kernel
    · decide +kernel
  have hcopied : NamesReturn endlessEnv 0x1000 := namesReturn_of (by decide +kernel)
  exact h _ _ _ ⟨imageEnv_sane _ _ _, rfl⟩ _ hvisits hcopied (by decide +kernel)

end DTFramework.Select
