import DTFramework.Select.CandidateSpec
import DTFramework.Select.Walk

/-!
# The walk returns

A loop of the walk that does not end would be a `diverge` fault, or an endless
run of `walkStep`. The step has no endless run (`walkStep_advance`), and without
logging nothing it calls diverges: the candidate filter faults with a division by
zero only, for an `is-overlay` property that holds a value
(`isItDtbDtboCandidate_error`).

Results:

* `isItDtbDtboCandidate_error`: the one fault of the filter;
* `examineEntry_halts`: the filter and the selection return;
* `examineBlob_halts`: without logging, so does the examination of a blob.
-/
namespace DTFramework.Select

open DTFramework.Fdt DTFramework.Extn DTFramework.Lib

/-! ## The getters -/

theorem getUintXPropList_returns {d : DTBDefs} {f : Blob} {o : Int} {name : Str} {size i c : Nat} {t : DataType}
    (ht : t ≠ .boolean) (e : Fault) : getUintXPropList d f o name size i c t ≠ .error e := by
  intro h
  unfold getUintXPropList at h
  simp only [ht, and_false, if_false] at h
  repeat' split at h
  all_goals cases h

theorem getPropertyValues_returns {env : Env} {e : HandleEntry} {p : PropertyEntry} {size : Nat} (x : Fault) :
    getPropertyValues env e p size ≠ .error x := by
  intro h
  unfold getPropertyValues at h
  simp only at h
  split at h
  · exact getUintXPropList_returns DataType.noConfusion x h
  · exact getUintXPropList_returns DataType.noConfusion x h
  · exact getUintXPropList_returns DataType.noConfusion x h
  · exact getUintXPropList_returns DataType.noConfusion x h
  · cases h

/-- The boolean getter divides by zero when the property has a value. -/
theorem getBoolProp_error (d : DTBDefs) (f : Blob) (o : Int) (name : Str) (e : Fault) :
    getBoolProp d f o name = .error e ↔ e = .divZero ∧ ∃ p len, getprop f o name = .ok (p, len) ∧ 0 < len := by
  unfold getBoolProp getUintXPropList
  cases h : getprop f o name with
  | error len => simp [Except.map]
  | ok r =>
    obtain ⟨p, len⟩ := r
    have hvalue : (∃ q n, Except.ok (p, len) = (Except.ok (q, n) : Except Int (Nat × Int)) ∧ 0 < n) ↔ 0 < len := by
      constructor
      · rintro ⟨q, n, hq, hn⟩
        cases hq
        exact hn
      · exact fun hn => ⟨p, len, rfl, hn⟩
    rw [hvalue]
    simp only [and_true, if_true]
    by_cases hneg : len < 0
    · rw [if_pos hneg]
      exact ⟨fun h => (nomatch h), fun h => absurd h.2 (by omega)⟩
    · rw [if_neg hneg]
      by_cases hzero : len = 0
      · rw [if_pos hzero]
        exact ⟨fun h => (nomatch h), fun h => absurd h.2 (by omega)⟩
      · rw [if_neg hzero]
        exact ⟨fun h => by cases h; exact ⟨rfl, by omega⟩, fun h => by rw [h.1]; rfl⟩

/-! ## The filter -/

theorem isChipinfoFamilyMatch_returns (env : Env) (inp : HandleInput) (e : HandleEntry) :
    (isChipinfoFamilyMatch env inp e).Faults fun _ => False := by
  unfold isChipinfoFamilyMatch
  simp only [Traced.faults_ite, Traced.faults_pure, Traced.faults_bind, faults_malloc, faults_free,
    faults_ofExcept, implies_true, true_and, ensures_malloc, ensures_ofExcept, ensures_free, and_true]
  exact fun _ _ _ x h => getUintXPropList_returns DataType.noConfusion x h

theorem validateCompatibleString_returns (env : Env) (inp : HandleInput) (e : HandleEntry) :
    (validateCompatibleString env inp e).Faults fun _ => False := by
  unfold validateCompatibleString
  simp only
  split
  · exact Traced.faults_pure.mpr trivial
  · simp only [Traced.faults_ite, Traced.faults_pure, Traced.faults_bind, faults_malloc, faults_free,
      implies_true, ensures_malloc, ensures_free, and_true]

theorem propertyLoop_returns (env : Env) (e : HandleEntry) (index : Nat) (ps : List PropertyEntry) :
    (propertyLoop env e index ps).Faults fun _ => False := by
  induction ps generalizing e index with
  | nil => exact Traced.faults_pure.mpr trivial
  | cons p ps ih =>
    unfold propertyLoop
    simp only [Traced.faults_ite, Traced.faults_pure, Traced.faults_bind, faults_malloc, faults_free,
      faults_ofExcept, implies_true, true_and, ensures_malloc, ensures_ofExcept, ensures_free, and_true]
    exact fun _ _ _ _ => ⟨fun x h => getPropertyValues_returns x h, fun _ _ _ _ _ => ih _ _⟩

theorem isPropertyListValid_returns (env : Env) (inp : HandleInput) (e : HandleEntry) :
    (isPropertyListValid env inp e).Faults fun _ => False := by
  unfold isPropertyListValid
  rw [Traced.faults_ite, Traced.faults_pure]
  exact ⟨fun _ => trivial, fun _ => propertyLoop_returns env e 0 _⟩

theorem selectEntry_returns (env : Env) (inp : HandleInput) (w : WalkState) (e : HandleEntry) :
    (selectEntry env inp w e).Faults fun _ => False := by
  unfold selectEntry
  split
  · exact Traced.faults_pure.mpr trivial
  · exact Traced.faults_pure.mpr trivial
  · unfold validateAndSelectPlatformDtbo validateOemVariant
    simp only [Traced.faults_ite, Traced.faults_pure, Traced.faults_bind, implies_true, true_and, and_true,
      Traced.ensures_true, faults_malloc, faults_free, faults_ofExcept, ensures_malloc]
    exact fun _ _ _ _ x h => getUintXPropList_returns DataType.noConfusion x h

/-- The type of a blob faults as its `is-overlay` getter does. -/
theorem identifyBlobType_error (env : Env) (inp : HandleInput) (e : HandleEntry) (x : Fault) :
    (identifyBlobTypeAndGetPlatforminfo env inp e).val = .error x ↔
      getBoolProp env.defs (e.fdt env) e.node.offset IS_OVERLAY_PROP_NAME = .error x := by
  constructor
  · have hfaults : (identifyBlobTypeAndGetPlatforminfo env inp e).Faults fun x =>
        getBoolProp env.defs (e.fdt env) e.node.offset IS_OVERLAY_PROP_NAME = .error x := by
      unfold identifyBlobTypeAndGetPlatforminfo
      simp only [Traced.faults_ite, Traced.faults_pure, Traced.faults_bind, faults_malloc, faults_free,
        faults_ofExcept, implies_true, true_and, ensures_malloc, ensures_ofExcept, ensures_free, and_true]
      exact ⟨fun _ h => h, fun _ _ _ _ _ _ _ x h => absurd h (getUintXPropList_returns DataType.noConfusion x)⟩
    exact hfaults x
  · intro h
    unfold identifyBlobTypeAndGetPlatforminfo
    exact Traced.val_bind_error.mpr (Or.inl (by rw [val_ofExcept]; exact h))

/-- The chip family of an entry fits, and it goes on to its type. -/
def FamilyMatches (env : Env) (inp : HandleInput) (e : HandleEntry) : Prop :=
  ∃ e', (isChipinfoFamilyMatch env inp e).val = .ok (SUCCESS, e') ∧ e'.candidacy_status = true

theorem isCompatibleStringMatch_error (env : Env) (inp : HandleInput) (e : HandleEntry) (x : Fault) :
    (isCompatibleStringMatch env inp e).val = .error x ↔
      getBoolProp env.defs (e.fdt env) e.node.offset IS_OVERLAY_PROP_NAME = .error x := by
  unfold isCompatibleStringMatch
  rw [Traced.val_bind_error, identifyBlobType_error]
  constructor
  · rintro (h | ⟨r, -, h⟩)
    · exact h
    · exact (Traced.faults_ite.mpr ⟨fun _ => Traced.faults_pure.mpr trivial,
        fun _ => validateCompatibleString_returns env inp _⟩ x h).elim
  · exact Or.inl

theorem isItDtbDtboCandidate_error (env : Env) (inp : HandleInput) (e : HandleEntry) (x : Fault) :
    (isItDtbDtboCandidate env inp e).val = .error x ↔ FamilyMatches env inp e ∧
      getBoolProp env.defs (e.fdt env) e.node.offset IS_OVERLAY_PROP_NAME = .error x := by
  have hframe (r) (hr : (isChipinfoFamilyMatch env inp e).val = .ok r) : r.2.node = e.node :=
    (isChipinfoFamilyMatch_frame env inp e r hr).node
  unfold isItDtbDtboCandidate
  rw [Traced.val_bind_error]
  constructor
  · rintro (h | ⟨⟨status, e'⟩, hr, h⟩)
    · exact (isChipinfoFamilyMatch_returns env inp e x h).elim
    · simp only at h
      split at h
      · cases h
      · rename_i hc
        rw [not_or, not_not] at hc
        obtain ⟨rfl, hvalid⟩ := hc
        refine ⟨⟨e', hr, by simpa using hvalid⟩, ?_⟩
        rcases Traced.val_bind_error.mp h with h | ⟨r', -, h⟩
        · have hb := (isCompatibleStringMatch_error env inp e' x).mp h
          unfold HandleEntry.fdt at hb ⊢
          rwa [hframe _ hr] at hb
        · exact (Traced.faults_ite.mpr ⟨fun _ => Traced.faults_pure.mpr trivial,
            fun _ => isPropertyListValid_returns env inp _⟩ x h).elim
  · rintro ⟨⟨e', hr, hvalid⟩, hb⟩
    refine Or.inr ⟨_, hr, ?_⟩
    simp only
    rw [if_neg (by simp [hvalid])]
    refine Traced.val_bind_error.mpr (Or.inl ((isCompatibleStringMatch_error env inp e' x).mpr ?_))
    unfold HandleEntry.fdt at hb ⊢
    rwa [hframe _ hr]

/-! ## The walk -/

/-- The candidate filter and the selection return. -/
theorem examineEntry_halts (env : Env) (inp : HandleInput) (w : WalkState) (e : HandleEntry) :
    (examineEntry env inp w e).Faults (· ≠ .diverge) := by
  have hfilter : (isItDtbDtboCandidate env inp e).Faults (· ≠ .diverge) := by
    intro x hx
    obtain ⟨-, hbool⟩ := (isItDtbDtboCandidate_error env inp e x).mp hx
    rw [((getBoolProp_error _ _ _ _ x).mp hbool).1]
    decide
  unfold examineEntry
  refine Traced.faults_bind.mpr ⟨hfilter, fun _ _ =>
    Traced.faults_ite.mpr ⟨fun _ => Traced.faults_pure.mpr trivial, fun _ => ?_⟩⟩
  refine Traced.faults_ite.mpr ⟨fun _ => Traced.faults_pure.mpr trivial, fun _ => ?_⟩
  exact Traced.faults_bind.mpr
    ⟨fun x hx => (selectEntry_returns env inp w _ x hx).elim, fun _ _ => Traced.faults_pure.mpr trivial⟩

/-- Without logging, examining a blob returns. -/
theorem examineBlob_halts {env : Env} (hl : env.logging = false) (inp : HandleInput) (w : WalkState)
    (e : HandleEntry) : (examineBlob env inp w e).Faults (· ≠ .diverge) := by
  unfold examineBlob logEntry
  simp only [hl, Traced.faults_ite, Traced.faults_pure, Traced.faults_bind, implies_true, true_and,
    Bool.false_eq_true, if_false, Traced.ensures_pure]
  exact fun _ _ => examineEntry_halts env inp w _

theorem walkStep_halts {env : Env} (hl : env.logging = false) (inp : HandleInput) (w : WalkState) :
    (walkStep env inp w).Faults (· ≠ .diverge) := by
  intro x hx
  exact examineBlob_halts hl inp _ _ x ((walkStep_fault env inp w x).mp hx).2

theorem selectDtbAndDtbos_halts {env : Env} (hl : env.logging = false) (inp : HandleInput) (h : HandleData) :
    (selectDtbAndDtbos env inp h).Faults (· ≠ .diverge) := by
  unfold selectDtbAndDtbos
  rw [Traced.faults_ite, Traced.faults_pure]
  exact ⟨fun _ => trivial, fun _ => Traced.loop_faults (walkStep_halts hl inp) _⟩

end DTFramework.Select
