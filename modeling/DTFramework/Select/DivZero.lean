import DTFramework.Select.Halts
import DTFramework.Select.Open
import DTFramework.Select.Range

/-!
# Division by zero

The list getters divide the length of a value by the width of an element. The
width is 0 for a boolean property, which is only right as long as the property
has no value: `is-overlay` with a value divides by zero. Nothing else that
`dt_select_open` does divides by zero (`open_divides_by_zero`); the other
divisors are constants, or a size of the client's that was compared with 0 first.

Results:

* `walkStep_divZero`: what one turn divides by zero for;
* `open_divides_by_zero`: when `dt_select_open` does.
-/
namespace DTFramework.Select

open DTFramework.Fdt DTFramework.Extn DTFramework.Lib

/-! ## Printing -/

theorem fillNames_fault {d : DTBDefs} {size status : Int} {names : List Str} {e : Fault}
    (h : fillNames d size status names = .error e) : e ≠ .divZero := by
  induction names generalizing size with
  | nil => cases h
  | cons pname names ih =>
    unfold fillNames at h
    split at h
    · cases h
    · split at h
      · cases h
      · split at h
        · cases h
          exact Fault.noConfusion
        · split at h
          · rename_i hrest
            cases h
            exact ih hrest
          · cases h

theorem printElements_fault {size remaining : Nat} {e : Fault} (h : printElements size remaining = .error e) :
    e ≠ .divZero := by
  fun_induction printElements size remaining with
  | case1 => cases h
  | case2 => cases h
  | case3 =>
    cases h
    exact Fault.noConfusion
  | case4 remaining _ _ _ ih => exact ih h

theorem printPropertyValue_fault {f : Blob} {o : Int} {name : Str} {size : Nat} {e : Fault}
    (h : printPropertyValue f o name size = .error e) : e ≠ .divZero := by
  unfold printPropertyValue at h
  split at h
  · cases h
  · split at h
    · cases h
    · exact printElements_fault h

theorem faults_freeIf {ptr size : Nat} {P : Fault → Prop} : (freeIf ptr size).Faults P ↔ True := by
  simp [Traced.Faults]

theorem printProperty_no_divZero (env : Env) (props : List PropertyEntry) (f : Blob) (offset : Int) (site : Site)
    (name : Str) : (printProperty env props f offset site name).Faults (· ≠ .divZero) := by
  unfold printProperty
  simp only [Traced.faults_ite, Traced.faults_pure, Traced.faults_bind, faults_malloc, faults_free, faults_freeIf,
    faults_ofExcept, implies_true, true_and, ensures_malloc, Traced.ensures_true, and_true]
  exact fun _ _ _ h => printPropertyValue_fault h

theorem printNames_no_divZero (env : Env) (props : List PropertyEntry) (phase : Phase) (f : Blob) (offset : Int)
    (ptr index : Nat) (bytes : List UInt8) (remaining : Nat) :
    (printNames env props phase f offset ptr index bytes remaining).Faults (· ≠ .divZero) := by
  fun_induction printNames env props phase f offset ptr index bytes remaining with
  | case1 => exact Traced.faults_pure.mpr trivial
  | case2 => exact Traced.faults_pure.mpr trivial
  | case3 ptr index bytes remaining _ name size _ ih =>
    refine Traced.faults_bind.mpr ⟨printProperty_no_divZero env props f offset _ _, fun status _ => ?_⟩
    exact Traced.faults_ite.mpr ⟨fun _ => Traced.faults_pure.mpr trivial, fun _ => Traced.faults_ite.mpr
      ⟨fun _ => Traced.faults_pure.mpr trivial, fun _ => ih⟩⟩

theorem printBoardId_no_divZero (env : Env) (props : List PropertyEntry) (phase : Phase) (p : Nat) :
    (printBoardId env props phase p).Faults (· ≠ .divZero) := by
  unfold printBoardId
  simp only [Traced.faults_ite, Traced.faults_pure, Traced.faults_bind, faults_malloc, faults_free, faults_freeIf,
    faults_ofExcept, Traced.faults_fault, implies_true, true_and, ensures_malloc, ensures_ofExcept,
    Traced.ensures_true, and_true]
  refine fun _ _ _ _ => ⟨fun _ h => fillNames_fault h, fun _ _ _ => ⟨fun _ => Fault.noConfusion, fun _ => ?_⟩⟩
  exact printNames_no_divZero env props phase _ _ _ _ _ _

/-! ## The run -/

/-- At the header of `w` the walk comes to a blob that is examined, of the
device's chip family, and whose `is-overlay` property has a value. -/
structure OverlayValue (env : Env) (inp : HandleInput) (w : WalkState) : Prop where
  accepted : ∃ e, isFdtheaderAtEndOfImage env inp w.handle.dtbs_image_start_address w.fdtheader initHandleEntry =
    (SUCCESS, e, false)
  node : 0 ≤ pathOffset (blobAt env.mem w.fdtheader) ROOT_NODE
  logged : (logEntry env inp w.fdtheader).val = .ok SUCCESS
  family : FamilyMatches env inp ((acceptedEntry w.fdtheader (totalsize (blobAt env.mem w.fdtheader))).atNode
    (pathOffset (blobAt env.mem w.fdtheader) ROOT_NODE))
  value : ∃ p len, getprop (blobAt env.mem w.fdtheader) (pathOffset (blobAt env.mem w.fdtheader) ROOT_NODE)
    IS_OVERLAY_PROP_NAME = .ok (p, len) ∧ 0 < len

theorem logEntry_no_divZero (env : Env) (inp : HandleInput) (p : Nat) :
    (logEntry env inp p).Faults (· ≠ .divZero) := by
  unfold logEntry
  rw [Traced.faults_ite, Traced.faults_pure]
  exact ⟨fun _ => printBoardId_no_divZero env _ _ p, fun _ => trivial⟩

theorem examineBlob_divZero (env : Env) (inp : HandleInput) (w w' : WalkState) (hw : w'.fdtheader = w.fdtheader) :
    (examineBlob env inp w' (acceptedEntry w.fdtheader (totalsize (blobAt env.mem w.fdtheader)))).val =
      .error .divZero ↔
      0 ≤ pathOffset (blobAt env.mem w.fdtheader) ROOT_NODE ∧ (logEntry env inp w.fdtheader).val = .ok SUCCESS ∧
      FamilyMatches env inp ((acceptedEntry w.fdtheader (totalsize (blobAt env.mem w.fdtheader))).atNode
        (pathOffset (blobAt env.mem w.fdtheader) ROOT_NODE)) ∧
      ∃ p len, getprop (blobAt env.mem w.fdtheader) (pathOffset (blobAt env.mem w.fdtheader) ROOT_NODE)
        IS_OVERLAY_PROP_NAME = .ok (p, len) ∧ 0 < len := by
  unfold examineBlob
  simp only [acceptedEntry_fdt, hw]
  by_cases hroot : pathOffset (blobAt env.mem w.fdtheader) ROOT_NODE < 0
  · rw [if_pos hroot]
    exact ⟨fun h => (nomatch h), fun h => absurd h.1 (by omega)⟩
  rw [if_neg hroot, Traced.val_bind_error]
  constructor
  · rintro (h | ⟨status, hlog, h⟩)
    · exact (logEntry_no_divZero env inp _ _ h rfl).elim
    · split at h
      · cases h
      · rename_i hs
        rw [not_not] at hs
        subst hs
        unfold examineEntry at h
        rcases Traced.val_bind_error.mp h with h | ⟨r, -, h⟩
        · obtain ⟨hf, hb⟩ := (isItDtbDtboCandidate_error env inp _ _).mp h
          exact ⟨Int.not_lt.mp hroot, hlog, hf, ((getBoolProp_error _ _ _ _ _).mp hb).2⟩
        · exfalso
          refine (Traced.faults_ite.mpr ⟨fun _ => Traced.faults_pure.mpr trivial, fun _ => Traced.faults_ite.mpr
            ⟨fun _ => Traced.faults_pure.mpr trivial, fun _ => Traced.faults_bind.mpr
              ⟨selectEntry_returns env inp _ _, fun _ _ => Traced.faults_pure.mpr trivial⟩⟩⟩) _ h
  · rintro ⟨-, hlog, hf, hv⟩
    refine Or.inr ⟨SUCCESS, hlog, ?_⟩
    rw [if_neg (by simp)]
    unfold examineEntry
    exact Traced.val_bind_error.mpr (Or.inl ((isItDtbDtboCandidate_error env inp _ _).mpr
      ⟨hf, (getBoolProp_error _ _ _ _ _).mpr ⟨rfl, hv⟩⟩))

/-- What one turn of the loop divides by zero for. -/
theorem walkStep_divZero (env : Env) (inp : HandleInput) (w : WalkState) :
    (walkStep env inp w).val = .error .divZero ↔ OverlayValue env inp w := by
  rw [walkStep_fault, examineBlob_divZero env inp w (w.visit _) rfl]
  constructor
  · rintro ⟨hend, hnode, hlog, hfamily, hvalue⟩
    exact ⟨hend, hnode, hlog, hfamily, hvalue⟩
  · intro h
    exact ⟨h.accepted, h.node, h.logged, h.family, h.value⟩

/-- The call gets as far as the walk, with this input. -/
structure WalksImage (env : Env) (a : OpenArgs) (inp : HandleInput) : Prop where
  input : ∃ prop, a.Input_chip_plat_info_prop = some prop ∧ inp = a.input prop
  args : ¬(a.dtbs_image_start_address = 0 ∨ (a.Input_prop_list.isSome ∧ a.prop_num_entries = 0) ∨
    (a.Input_prop_list.isNone ∧ a.prop_num_entries ≠ 0))
  handle : env.alloc .handle HANDLE_SIZE ≠ 0
  printed : (printInputParameters env inp.prop_list).val = .ok SUCCESS

theorem printSelectedDtbDtbos_no_divZero (env : Env) (inp : HandleInput) (h : HandleData) :
    (printSelectedDtbDtbos env inp h).Faults (· ≠ .divZero) := by
  have hone (type : BlobType) (ptr size : Nat) (status : Int) :
      (printSelected env inp type ptr size status).Faults (· ≠ .divZero) :=
    Traced.faults_ite.mpr ⟨fun _ => printBoardId_no_divZero env _ _ _, fun _ => Traced.faults_pure.mpr trivial⟩
  unfold printSelectedDtbDtbos
  refine Traced.faults_bind.mpr ⟨hone _ _ _ _, fun _ _ =>
    Traced.faults_ite.mpr ⟨fun _ => Traced.faults_pure.mpr trivial,
    fun _ => Traced.faults_bind.mpr ⟨hone _ _ _ _, fun _ _ => Traced.faults_ite.mpr
      ⟨fun _ => Traced.faults_pure.mpr trivial, fun _ => hone _ _ _ _⟩⟩⟩⟩

theorem printInputParameters_no_divZero (env : Env) (props : List PropertyEntry) :
    (printInputParameters env props).Faults (· ≠ .divZero) := by
  unfold printInputParameters
  simp only [Traced.faults_ite, Traced.faults_pure, Traced.faults_bind, faults_malloc, faults_free,
    Traced.faults_fault,
    implies_true, true_and, ensures_malloc, Traced.ensures_true, and_true]
  exact fun _ _ => Fault.noConfusion

theorem selectDtbAndDtbos_divZero (env : Env) (inp : HandleInput) (h : HandleData) :
    (selectDtbAndDtbos env inp h).val = .error .divZero ↔ ∃ w, Walked env inp h w ∧ OverlayValue env inp w := by
  rw [selectDtbAndDtbos_fault]
  exact exists_congr fun w => and_congr_right fun _ => walkStep_divZero env inp w

theorem openHandle_divZero (env : Env) (inp : HandleInput) (start : Nat) :
    (openHandle env inp start).val = .error .divZero ↔
      (printInputParameters env inp.prop_list).val = .ok SUCCESS ∧
        (selectDtbAndDtbos env inp (initHandleData start)).val = .error .divZero := by
  unfold openHandle
  rw [Traced.val_bind_error]
  constructor
  · rintro (h | ⟨status, hp, h⟩)
    · exact (printInputParameters_no_divZero env _ _ h rfl).elim
    · split at h
      · cases h
      · rename_i hs
        rw [not_not] at hs
        subst hs
        refine ⟨hp, ?_⟩
        rcases Traced.val_bind_error.mp h with h | ⟨r, -, h⟩
        · exact h
        · exact (Traced.faults_ite.mpr ⟨fun _ => Traced.faults_pure.mpr trivial, fun _ => Traced.faults_bind.mpr
            ⟨printSelectedDtbDtbos_no_divZero env inp _, fun _ _ => Traced.faults_pure.mpr trivial⟩⟩ _ h rfl).elim
  · rintro ⟨hp, hsel⟩
    refine Or.inr ⟨_, hp, ?_⟩
    rw [if_neg (by simp)]
    exact Traced.val_bind_error.mpr (Or.inl hsel)

/-- `dt_select_open` divides by zero exactly when its walk comes to such a blob. -/
theorem open_divides_by_zero (env : Env) (a : OpenArgs) : (dtSelectOpen env a).val ≠ .error .divZero ↔
    ∀ inp w, WalksImage env a inp → Walked env inp (initHandleData a.dtbs_image_start_address) w →
        ¬OverlayValue env inp w := by
  have hiff : (dtSelectOpen env a).val = .error .divZero ↔ ∃ inp w, WalksImage env a inp ∧
      Walked env inp (initHandleData a.dtbs_image_start_address) w ∧ OverlayValue env inp w := by
    unfold dtSelectOpen
    cases hprop : a.Input_chip_plat_info_prop with
    | none => exact ⟨fun h => (nomatch h), fun ⟨_, _, ⟨⟨_, h, _⟩, _, _, _⟩, _⟩ => by rw [hprop] at h; cases h⟩
    | some prop =>
      simp only
      by_cases hargs : a.dtbs_image_start_address = 0 ∨ (a.Input_prop_list.isSome ∧ a.prop_num_entries = 0) ∨
          (a.Input_prop_list.isNone ∧ a.prop_num_entries ≠ 0)
      · rw [if_pos hargs]
        exact ⟨fun h => (nomatch h), fun ⟨_, _, h, _⟩ => absurd hargs h.args⟩
      rw [if_neg hargs, Traced.val_bind, val_malloc]
      simp only
      by_cases hptr : env.alloc .handle HANDLE_SIZE = 0
      · rw [if_pos hptr]
        exact ⟨fun h => (nomatch h), fun ⟨_, _, h, _⟩ => absurd hptr h.handle⟩
      rw [if_neg hptr, Traced.val_bind_error]
      constructor
      · rintro (h | ⟨r, -, h⟩)
        · obtain ⟨hp, hsel⟩ := (openHandle_divZero env _ _).mp h
          obtain ⟨w, hw, hv⟩ := (selectDtbAndDtbos_divZero env _ _).mp hsel
          exact ⟨a.input prop, w, ⟨⟨prop, hprop, rfl⟩, hargs, hptr, hp⟩, hw, hv⟩
        · split at h
          · cases h
          · cases h
      · rintro ⟨inp, w, ⟨⟨prop', hprop', rfl⟩, -, -, hp⟩, hw, hv⟩
        rw [hprop] at hprop'
        cases hprop'
        exact Or.inl ((openHandle_divZero env _ _).mpr ⟨hp, (selectDtbAndDtbos_divZero env _ _).mpr ⟨w, hw, hv⟩⟩)
  rw [ne_eq, hiff]
  push Not
  rfl

/-- A base tree whose `is-overlay` property has a value of one byte. -/
def overlayValueArgs : OpenArgs where
  dtbs_image_start_address := 0x1000
  dtbs_image_size := 0
  Input_chip_plat_info_prop := some imageProp
  Input_prop_list := none
  prop_num_entries := 0

theorem open_divides : ¬∀ (env : Env) (a : OpenArgs), (dtSelectOpen env a).val ≠ .error .divZero := by
  intro h
  exact h (imageEnv 0x1000 [baseBlob [(IS_OVERLAY_PROP_NAME, [1])] 3] false) overlayValueArgs (by decide +kernel)

end DTFramework.Select
