import DTFramework.Select.DivZero
import DTFramework.Select.WalkSound

/-!
# Running out of memory

A request the walk makes is refused with an error that ends the call
(`FailsOrSame`), but for two: the buffer for the OEM variants of a platform
overlay, whose error the `switch` over the types does not look at, so that the
overlay is passed by; and the print buffer, which is written to without a check.

Results:

* `isItDtbDtboCandidate_fails`, `logEntry_fails`: a refusal in the filter, or in
  printing, is an error;
* `selectEntry_same_alloc`: the selectors do what they do with all the memory unless
  a platform overlay that they would select is lost;
* `turn_reported_iff`: a turn of the walk ends it with an error, or does what it does
  with all the memory, exactly when it comes to neither of the two;
* `exhaustion_reported`: so does the whole call when all its turns do.
-/
namespace DTFramework.Select

open DTFramework.Fdt DTFramework.Extn DTFramework.Lib

/-! ## Patterns of failures -/

/-- The requests that are made inside `_select_dtb_and_dtbos`. -/
def Site.inWalk : Site → Bool
  | .handle | .inputBuffer => false
  | .chipinfo _ | .platforminfo _ | .compatible _ | .property _ _ | .oemVar _ => true
  | .printNames phase _ | .printBuffer phase _ | .printValue phase _ _ => decide (phase = .walk)

/-- The environment in which the requests of the walk that `fails` tells of are
refused. -/
def Env.failing (env : Env) (fails : Site → Bool) : Env :=
  { env with alloc := fun site size => if site.inWalk && fails site then 0 else env.alloc site size }

/-- The call returns an error, or what it returns with all the memory. -/
def Undegraded (env : Env) (fails : Site → Bool) (a : OpenArgs) : Prop :=
  (∃ status out, (dtSelectOpen (env.failing fails) a).val = .ok (status, out) ∧ status ≠ SUCCESS) ∨
    (dtSelectOpen (env.failing fails) a).val = (dtSelectOpen env a).val

/-- The entry of an accepted blob with its board-id node. -/
def examined (env : Env) (p : Nat) : HandleEntry :=
  (acceptedEntry p (totalsize (blobAt env.mem p))).atNode (pathOffset (blobAt env.mem p) ROOT_NODE)

/-- A platform overlay passes the filter, its buffer for the OEM variants is refused,
and with all the memory it would be selected. -/
structure OverlayLost (env : Env) (fails : Site → Bool) (inp : HandleInput) (w : WalkState) : Prop where
  logged : (logEntry (env.failing fails) inp w.fdtheader).val = .ok SUCCESS
  lost : ∃ e e' r, (isItDtbDtboCandidate (env.failing fails) inp (examined env w.fdtheader)).val = .ok (SUCCESS, e) ∧
    e.candidacy_status = true ∧ e.device_tree_type = .PLATFORM_DTBO ∧
    (validateOemVariant (env.failing fails) inp (INVALID_CANDIDATE (INVALID_CANDIDATE e))).val =
      .ok (MALLOC_FAIL, e') ∧
    (validateAndSelectPlatformDtbo env inp w.platform_dtbo_selected (INVALID_CANDIDATE e)).val = .ok r ∧
    r.2.candidacy_status = true

/-- A node is printed into a buffer that is refused. -/
structure LineLost (env : Env) (fails : Site → Bool) (inp : HandleInput) (p : Nat) : Prop where
  refused : (logEntry (env.failing fails) inp p).val = .error .nullDeref
  answered : (logEntry env inp p).val ≠ .error .nullDeref

/-- The turn at `w` comes to a blob, and loses the overlay or the lines. -/
structure Dropped (env : Env) (fails : Site → Bool) (inp : HandleInput) (w : WalkState) : Prop where
  accepted : ∃ e, isFdtheaderAtEndOfImage env inp w.handle.dtbs_image_start_address w.fdtheader initHandleEntry =
    (SUCCESS, e, false)
  node : 0 ≤ pathOffset (blobAt env.mem w.fdtheader) ROOT_NODE
  lost : OverlayLost env fails inp w ∨ LineLost env fails inp w.fdtheader

/-! ## Refused requests end the call -/

section
variable {env : Env} {fails : Site → Bool} {inp : HandleInput} {α β : Type}

theorem failing_alloc (env : Env) (fails : Site → Bool) (site : Site) (size : Nat) :
    (env.failing fails).alloc site size = 0 ∨ (env.failing fails).alloc site size = env.alloc site size := by
  unfold Env.failing
  simp only
  split
  · exact Or.inl rfl
  · exact Or.inr rfl

theorem failing_outside {site : Site} (h : site.inWalk = false) (size : Nat) :
    (env.failing fails).alloc site size = env.alloc site size := by
  unfold Env.failing
  simp [h]

/-- The first computation returns a value of a kind, or what the second does. -/
def OrSame (P : β → Prop) (x y : Prog β) : Prop := (∃ r, x.val = .ok r ∧ P r) ∨ x.val = y.val

/-- The first computation returns an error, or what the second does. -/
abbrev FailsOrSame (x y : Prog (Int × α)) : Prop := OrSame (fun r => r.1 ≠ SUCCESS) x y

section
variable {P : β → Prop}

theorem OrSame.refl (x : Prog β) : OrSame P x x := Or.inr rfl

theorem OrSame.ite {c : Prop} [Decidable c] {x y x' y' : Prog β} (hx : c → OrSame P x x') (hy : ¬c → OrSame P y y') :
    OrSame P (if c then x else y) (if c then x' else y') := by
  split
  · exact hx ‹_›
  · exact hy ‹_›

/-- A request, with what its refusal comes to. -/
theorem OrSame.malloc {site : Site} {size : Nat} {f g : Nat → Prog β} (hzero : ∃ r, (f 0).val = .ok r ∧ P r)
    (hf : ∀ ptr, OrSame P (f ptr) (g ptr)) :
    OrSame P (malloc (env.failing fails) site size >>= f) (malloc env site size >>= g) := by
  unfold OrSame
  rw [Traced.val_bind, Traced.val_bind, val_malloc, val_malloc]
  rcases failing_alloc env fails site size with h | h
  · rw [h]
    exact Or.inl hzero
  · rw [h]
    exact hf _

/-- What the first part comes to decides what the whole does. -/
theorem OrSame.bind {Q : α → Prop} {x y : Prog α} {f g : α → Prog β} (h : OrSame Q x y)
    (herr : ∀ r, Q r → ∃ r', (f r).val = .ok r' ∧ P r') (hf : ∀ r, x.val = .ok r → OrSame P (f r) (g r)) :
    OrSame P (x >>= f) (y >>= g) := by
  unfold OrSame
  rw [Traced.val_bind, Traced.val_bind]
  rcases h with ⟨r, hr, hQ⟩ | h
  · rw [hr]
    exact Or.inl (herr r hQ)
  · rw [← h]
    cases hx : x.val with
    | error e => exact Or.inr rfl
    | ok r => exact hf r hx

/-- The first parts have the same value. -/
theorem OrSame.bindValue {x y : Prog α} {f g : α → Prog β} (h : x.val = y.val) (hf : ∀ a, OrSame P (f a) (g a)) :
    OrSame P (x >>= f) (y >>= g) :=
  .bind (Q := fun _ => False) (Or.inr h) (fun _ hr => hr.elim) fun r _ => hf r

end

theorem malloc_fail_ne : MALLOC_FAIL ≠ SUCCESS := by decide

/-- An error of the first part is returned. -/
theorem val_early {status : Int} {c : Prop} [Decidable c] {a : α} {x : Prog (Int × α)} (h : status ≠ SUCCESS) :
    (if status ≠ SUCCESS ∨ c then pure (status, a) else x).val = .ok (status, a) := by
  rw [if_pos (Or.inl h)]
  rfl

/-! ## The filter -/

theorem isChipinfoFamilyMatch_fails (inp : HandleInput) (e : HandleEntry) :
    FailsOrSame (isChipinfoFamilyMatch (env.failing fails) inp e) (isChipinfoFamilyMatch env inp e) := by
  unfold isChipinfoFamilyMatch
  refine .ite (fun _ => .refl _) fun _ => .ite (fun _ => .refl _) fun _ => .malloc ⟨_, rfl, malloc_fail_ne⟩ fun ptr =>
    ?_
  exact .refl _

theorem identifyBlobType_fails (inp : HandleInput) (e : HandleEntry) :
    FailsOrSame (identifyBlobTypeAndGetPlatforminfo (env.failing fails) inp e)
      (identifyBlobTypeAndGetPlatforminfo env inp e) := by
  unfold identifyBlobTypeAndGetPlatforminfo
  refine .bindValue rfl fun status => .ite (fun _ => .refl _) fun _ => .ite (fun _ => .refl _) fun _ => ?_
  refine .ite (fun _ => .refl _) fun _ => .ite (fun _ => .refl _) fun _ => .malloc ⟨_, rfl, malloc_fail_ne⟩ fun ptr =>
    ?_
  exact .refl _

theorem validateCompatibleString_fails (inp : HandleInput) (e : HandleEntry) :
    FailsOrSame (validateCompatibleString (env.failing fails) inp e) (validateCompatibleString env inp e) := by
  unfold validateCompatibleString
  simp only
  cases compatibleStringStartsWith inp (INVALID_CANDIDATE e).device_tree_type with
  | none => exact .refl _
  | some start =>
    refine .ite (fun _ => .refl _) fun _ => .ite (fun _ => .refl _) fun _ =>
      .malloc ⟨_, rfl, malloc_fail_ne⟩ fun ptr => ?_
    exact .refl _

theorem isCompatibleStringMatch_fails (inp : HandleInput) (e : HandleEntry) :
    FailsOrSame (isCompatibleStringMatch (env.failing fails) inp e) (isCompatibleStringMatch env inp e) := by
  unfold isCompatibleStringMatch
  refine .bind (identifyBlobType_fails inp _) ?_ fun r _ => .ite (fun _ => .refl _) fun _ =>
    validateCompatibleString_fails inp _
  rintro ⟨status, e⟩ hr
  exact ⟨(status, e), val_early hr, hr⟩

theorem propertyLoop_fails (ps : List PropertyEntry) : ∀ e index,
    FailsOrSame (propertyLoop (env.failing fails) e index ps) (propertyLoop env e index ps) := by
  induction ps with
  | nil => exact fun e index => .refl _
  | cons p ps ih =>
    intro e index
    unfold propertyLoop
    refine .ite (fun _ => .refl _) fun _ => .ite (fun _ => .refl _) fun _ => .ite (fun _ => .refl _) fun _ => ?_
    refine .malloc ⟨_, rfl, malloc_fail_ne⟩ fun ptr => .ite (fun _ => .refl _) fun _ => ?_
    refine .bindValue rfl fun r => .ite (fun _ => .refl _) fun _ => .ite (fun _ => .refl _) fun _ => ?_
    exact .bindValue rfl fun _ => .ite (fun _ => ih _ _) fun _ => .refl _

theorem isItDtbDtboCandidate_fails (inp : HandleInput) (e : HandleEntry) :
    FailsOrSame (isItDtbDtboCandidate (env.failing fails) inp e) (isItDtbDtboCandidate env inp e) := by
  unfold isItDtbDtboCandidate
  refine .bind (isChipinfoFamilyMatch_fails inp e) ?_ fun r _ => .ite (fun _ => .refl _) fun _ => ?_
  · rintro ⟨status, e⟩ hr
    exact ⟨(status, e), val_early hr, hr⟩
  · refine .bind (isCompatibleStringMatch_fails inp _) ?_ fun s _ => .ite (fun _ => .refl _) fun _ => ?_
    · rintro ⟨status, e⟩ hr
      exact ⟨(status, e), val_early hr, hr⟩
    · exact .ite (fun _ => .refl _) fun _ => propertyLoop_fails _ _ _

/-! ## The selectors -/

/-- The OEM variants are read, or their buffer is refused. -/
theorem validateOemVariant_fails (env : Env) (fails : Site → Bool) (inp : HandleInput) (e : HandleEntry) :
    OrSame (fun r => r.1 = MALLOC_FAIL) (validateOemVariant (env.failing fails) inp e)
        (validateOemVariant env inp e) := by
  unfold validateOemVariant
  exact .ite (fun _ => .refl _) fun _ => .ite (fun _ => .refl _) fun _ => .malloc ⟨_, rfl, rfl⟩ fun ptr => .refl _

/-- An entry whose buffer is refused is no candidate. -/
theorem validateOemVariant_refused {env : Env} {inp : HandleInput} {e e' : HandleEntry}
    (h : (validateOemVariant env inp e).val = .ok (MALLOC_FAIL, e')) : e'.candidacy_status = false := by
  have hensures : (validateOemVariant env inp e).Ensures fun r => r.1 = MALLOC_FAIL →
      r.2.candidacy_status = false := by
    unfold validateOemVariant
    have hok (e : HandleEntry) : SUCCESS = MALLOC_FAIL → e.candidacy_status = false := fun h => absurd h (by decide)
    simp only [Traced.ensures_ite, Traced.ensures_pure, Traced.ensures_bind, ensures_malloc, ensures_ofExcept,
      ensures_free]
    exact ⟨fun _ => ⟨fun _ => hok _, fun _ => hok _⟩, fun _ => ⟨fun _ => hok _, fun _ => ⟨fun _ _ => rfl, fun _ r _ =>
      ⟨fun _ => hok _, fun _ => ⟨fun _ => hok _, fun _ => hok _⟩⟩⟩⟩⟩
  exact hensures _ h rfl

/-- The selector of the platform overlays returns. -/
theorem validateAndSelectPlatformDtbo_returns (env : Env) (inp : HandleInput) (plat : SelectedDtbo) (e : HandleEntry) :
    ∃ r, (validateAndSelectPlatformDtbo env inp plat e).val = .ok r := by
  cases h : (validateAndSelectPlatformDtbo env inp plat e).val with
  | ok r => exact ⟨r, rfl⟩
  | error x =>
    exfalso
    have hfaults : (validateAndSelectPlatformDtbo env inp plat e).Faults fun _ => False := by
      unfold validateAndSelectPlatformDtbo validateOemVariant
      simp only [Traced.faults_ite, Traced.faults_pure, Traced.faults_bind, implies_true, true_and, and_true,
        Traced.ensures_true, faults_malloc, faults_free, faults_ofExcept, ensures_malloc]
      exact fun _ _ _ _ x h => getUintXPropList_returns DataType.noConfusion x h
    exact hfaults x h

/-- What a platform overlay comes to. -/
theorem selectEntry_platform (env : Env) (inp : HandleInput) (w : WalkState) {e : HandleEntry} {r : Int × HandleEntry}
    (htype : e.device_tree_type = .PLATFORM_DTBO)
    (h : (validateAndSelectPlatformDtbo env inp w.platform_dtbo_selected e).val = .ok r) :
    (selectEntry env inp w e).val = .ok (if r.2.candidacy_status then w.keepPlatform r.2 else w) := by
  unfold selectEntry
  rw [htype]
  simp only
  rw [Traced.val_bind, h]
  rfl

/-- A platform overlay whose buffer is refused is passed by. -/
theorem selectEntry_refused {w : WalkState} {e e' : HandleEntry} (htype : e.device_tree_type = .PLATFORM_DTBO)
    (h : (validateOemVariant env inp (INVALID_CANDIDATE e)).val = .ok (MALLOC_FAIL, e')) :
    (selectEntry env inp w e).val = .ok w := by
  have hselect : ∃ r, (validateAndSelectPlatformDtbo env inp w.platform_dtbo_selected e).val = .ok r ∧
      r.2.candidacy_status = false := by
    unfold validateAndSelectPlatformDtbo
    simp only
    split
    · exact ⟨_, rfl, rfl⟩
    · rw [Traced.val_bind, h]
      refine ⟨(FAIL, e'), ?_, validateOemVariant_refused h⟩
      simp only
      rw [if_pos malloc_fail_ne]
      rfl
  obtain ⟨r, hr, hc⟩ := hselect
  rw [selectEntry_platform env inp w htype hr, hc]
  rfl

/-- An entry is dealt with as always, but for a platform overlay whose buffer is
refused and which would be selected. -/
theorem selectEntry_same_alloc (w : WalkState) (e : HandleEntry)
    (h : e.device_tree_type = .PLATFORM_DTBO → ∀ e' r,
      (validateOemVariant (env.failing fails) inp (INVALID_CANDIDATE e)).val = .ok (MALLOC_FAIL, e') →
      (validateAndSelectPlatformDtbo env inp w.platform_dtbo_selected e).val = .ok r → ¬r.2.candidacy_status = true) :
    (selectEntry (env.failing fails) inp w e).val = (selectEntry env inp w e).val := by
  by_cases htype : e.device_tree_type = .PLATFORM_DTBO
  · rcases validateOemVariant_fails env fails inp (INVALID_CANDIDATE e) with ⟨⟨_, e'⟩, hr, rfl⟩ | hsame
    · obtain ⟨r, hsel⟩ := validateAndSelectPlatformDtbo_returns env inp w.platform_dtbo_selected e
      rw [selectEntry_refused htype hr, selectEntry_platform env inp w htype hsel, if_neg (h htype e' r hr hsel)]
    · unfold selectEntry
      rw [htype]
      refine Traced.val_bind_congr ?_ fun _ _ => rfl
      unfold validateAndSelectPlatformDtbo
      exact Traced.val_ite_congr (fun _ => rfl) fun _ => Traced.val_bind_congr hsame fun _ _ => rfl
  · unfold selectEntry
    split
    · rfl
    · rfl
    · exact absurd ‹_› htype

theorem examineEntry_fails (w : WalkState) (e : HandleEntry)
    (h : ∀ e', (isItDtbDtboCandidate (env.failing fails) inp e).val = .ok (SUCCESS, e') → e'.candidacy_status = true →
      e'.device_tree_type = .PLATFORM_DTBO → ∀ e'' r, (validateOemVariant (env.failing fails) inp
        (INVALID_CANDIDATE (INVALID_CANDIDATE e'))).val = .ok (MALLOC_FAIL, e'') →
        (validateAndSelectPlatformDtbo env inp w.platform_dtbo_selected (INVALID_CANDIDATE e')).val = .ok r →
        ¬r.2.candidacy_status = true) :
    FailsOrSame (examineEntry (env.failing fails) inp w e) (examineEntry env inp w e) := by
  unfold examineEntry
  refine .bind (isItDtbDtboCandidate_fails inp e) ?_ fun r hr => .ite (fun _ => .refl _) fun hs => ?_
  · rintro ⟨status, e'⟩ hne
    refine ⟨(status, w), ?_, hne⟩
    simp only
    rw [if_pos hne]
    rfl
  · obtain ⟨status, e'⟩ := r
    rw [not_not] at hs
    simp only at hs
    subst hs
    refine .ite (fun _ => .refl _) fun hc => .bindValue (selectEntry_same_alloc _ _ fun htype => ?_) fun _ => .refl _
    exact h e' hr (by simpa using hc) htype

/-- A candidate that the filter accepts is what the selectors make of it. -/
theorem examineEntry_selected {env : Env} {w w' : WalkState} {e e' : HandleEntry}
    (h : (isItDtbDtboCandidate env inp e).val = .ok (SUCCESS, e')) (hc : e'.candidacy_status = true)
    (hselect : (selectEntry env inp w (INVALID_CANDIDATE e')).val = .ok w') :
    (examineEntry env inp w e).val = .ok (SUCCESS, w') := by
  unfold examineEntry
  simp [h, hc, hselect]

/-! ## Printing -/

/-- The value of a property may be printed without a buffer for it. -/
theorem printProperty_same_alloc (props : List PropertyEntry) (f : Blob) (o : Int) (site : Site) (name : Str) :
    (printProperty (env.failing fails) props f o site name).val = (printProperty env props f o site name).val := by
  unfold printProperty
  refine Traced.val_ite_congr (fun _ => rfl) fun _ => Traced.val_ite_congr (fun _ => rfl) fun _ => ?_
  rw [Traced.val_bind, Traced.val_bind, val_malloc, val_malloc]
  refine Traced.val_bind_congr rfl fun status _ => ?_
  simp only [Traced.val_ite, Traced.val_bind, val_free, val_freeIf]

theorem printNames_same_alloc (props : List PropertyEntry) (phase : Phase) (f : Blob) (o : Int) (n : Nat) :
    ∀ ptr index bytes, (printNames (env.failing fails) props phase f o ptr index bytes n).val =
      (printNames env props phase f o ptr index bytes n).val := by
  induction n using Nat.strong_induction_on with
  | _ n ih =>
    intro ptr index bytes
    rw [printNames, printNames]
    refine Traced.val_ite_congr (fun _ => rfl) fun hn => Traced.val_ite_congr (fun _ => rfl) fun _ => ?_
    refine Traced.val_bind_congr (printProperty_same_alloc _ _ _ _ _) fun status _ =>
      Traced.val_ite_congr (fun _ => rfl) fun _ => ?_
    exact Traced.val_ite_congr (fun _ => rfl) fun _ => ih _ (by omega) _ _ _

/-- `_print_board_id` with the buffer for the lines. -/
def printLines (env : Env) (props : List PropertyEntry) (phase : Phase) (f : Blob) (o : Int) (names size : Nat)
    (bytes : List UInt8) (buffer : Nat) : Prog Int :=
  if buffer = 0 ∧ size ≠ 0 then Traced.fault .nullDeref
  else do
    let (status, leaves) ← printNames env props phase f o names 0 bytes size
    if leaves then return status
    else do
      free names size
      freeIf buffer BUFFER_SIZE
      return status

/-- A buffer that is written to is not refused. -/
theorem printLines_same_alloc (props : List PropertyEntry) (phase : Phase) (f : Blob) (o : Int) (names size : Nat)
    (bytes : List UInt8) (site : Site)
    (h : (malloc (env.failing fails) site BUFFER_SIZE >>=
      printLines (env.failing fails) props phase f o names size bytes).val ≠ .error .nullDeref) :
    (malloc (env.failing fails) site BUFFER_SIZE >>= printLines
    (env.failing fails) props phase f o names size bytes).val =
      (malloc env site BUFFER_SIZE >>= printLines env props phase f o names size bytes).val := by
  have hval (env' : Env) (buffer : Nat) (hb : ¬(buffer = 0 ∧ size ≠ 0)) :
      (printLines env' props phase f o names size bytes buffer).val =
        match (printNames env' props phase f o names 0 bytes size).val with
        | .error fault => .error fault
        | .ok (status, _) => .ok status := by
    unfold printLines
    rw [if_neg hb, Traced.val_bind]
    cases (printNames env' props phase f o names 0 bytes size).val with
    | error fault => rfl
    | ok r =>
      obtain ⟨status, leaves⟩ := r
      cases leaves <;> simp
  rw [Traced.val_bind, val_malloc] at h ⊢
  rw [Traced.val_bind, val_malloc]
  simp only at h ⊢
  rcases failing_alloc env fails site BUFFER_SIZE with hz | hsame
  · rw [hz] at h ⊢
    by_cases hsize : size = 0
    · rw [hval _ _ fun hc => hc.2 hsize, hval _ _ fun hc => hc.2 hsize, printNames_same_alloc]
    · refine absurd ?_ h
      unfold printLines
      rw [if_pos ⟨rfl, hsize⟩]
      rfl
  · rw [hsame] at h ⊢
    unfold printLines at h ⊢
    exact Traced.val_ite_congr (fun _ => rfl) fun _ =>
      Traced.val_bind_congr (printNames_same_alloc _ _ _ _ _ _ _ _) fun _ _ => rfl

/-- Unless a null pointer is written to. -/
def OrSameUnless (P : β → Prop) (x y : Prog β) : Prop := x.val ≠ .error .nullDeref → OrSame P x y

section
variable {P : β → Prop}

theorem OrSameUnless.ite {c : Prop} [Decidable c] {x y x' y' : Prog β} (hx : OrSameUnless P x x')
    (hy : OrSameUnless P y y') : OrSameUnless P (if c then x else y) (if c then x' else y') := by
  split
  · exact hx
  · exact hy

theorem OrSameUnless.malloc {site : Site} {size : Nat} {f g : Nat → Prog β} (hzero : ∃ r, (f 0).val = .ok r ∧ P r)
    (hf : ∀ ptr, OrSameUnless P (f ptr) (g ptr)) :
    OrSameUnless P (malloc (env.failing fails) site size >>= f) (malloc env site size >>= g) := by
  intro h
  unfold OrSame
  rw [Traced.val_bind, val_malloc] at h ⊢
  rw [Traced.val_bind, val_malloc]
  rcases failing_alloc env fails site size with hz | hsame
  · rw [hz]
    exact Or.inl hzero
  · rw [hsame] at h ⊢
    exact hf _ h

theorem OrSameUnless.bindValue {x y : Prog α} {f g : α → Prog β} (hxy : x.val = y.val)
    (hf : ∀ a, OrSameUnless P (f a) (g a)) : OrSameUnless P (x >>= f) (y >>= g) := by
  intro h
  unfold OrSame
  rw [Traced.val_bind] at h ⊢
  rw [Traced.val_bind, ← hxy]
  cases hx : x.val with
  | error e => exact Or.inr rfl
  | ok a =>
    rw [hx] at h
    exact hf a h

end

/-- Printing whose buffer is not refused. -/
theorem printBoardId_fails (props : List PropertyEntry) (phase : Phase) (p : Nat) :
    OrSameUnless (fun status => status ≠ SUCCESS) (printBoardId (env.failing fails) props phase p)
      (printBoardId env props phase p) := by
  have hrefl (x : Prog Int) : OrSameUnless (fun status => status ≠ SUCCESS) x x := fun _ => .refl x
  unfold printBoardId
  refine .ite (hrefl _) (.ite (hrefl _) (.ite (hrefl _)
    (.malloc ⟨_, rfl, malloc_fail_ne⟩ fun names => .ite (hrefl _) ?_)))
  refine .bindValue rfl fun r => .ite (hrefl _) fun h => Or.inr ?_
  exact printLines_same_alloc props phase _ _ names _ r.2 _ h

/-- The printing of the selected blobs is not part of the walk. -/
theorem printBoardId_selected (props : List PropertyEntry) (type : BlobType) (p : Nat) :
    (printBoardId (env.failing fails) props (.selected type) p).val =
    (printBoardId env props (.selected type) p).val := by
  unfold printBoardId
  refine Traced.val_ite_congr (fun _ => rfl) fun _ => Traced.val_ite_congr (fun _ => rfl) fun _ =>
    Traced.val_ite_congr (fun _ => rfl) fun _ => ?_
  refine Traced.val_bind_congr (congrArg Except.ok (failing_outside rfl _)) fun names _ => ?_
  refine Traced.val_ite_congr (fun _ => rfl) fun _ => Traced.val_bind_congr rfl fun r _ =>
    Traced.val_ite_congr (fun _ => rfl) fun _ => ?_
  refine Traced.val_bind_congr (congrArg Except.ok (failing_outside rfl _)) fun buffer _ => ?_
  refine Traced.val_ite_congr (fun _ => rfl) fun _ =>
    Traced.val_bind_congr (printNames_same_alloc _ _ _ _ _ _ _ _) fun _ _ => rfl

end

/-! ## The walk -/

section
variable {env : Env} {fails : Site → Bool} {inp : HandleInput}

theorem logEntry_fails {p : Nat} (h : (logEntry (env.failing fails) inp p).val ≠ .error .nullDeref) :
    OrSame (fun status => status ≠ SUCCESS) (logEntry (env.failing fails) inp p) (logEntry env inp p) := by
  unfold logEntry at h ⊢
  rw [show (env.failing fails).logging = env.logging from rfl] at h ⊢
  by_cases hlog : env.logging = true
  · rw [if_pos hlog] at h ⊢
    rw [if_pos hlog]
    exact printBoardId_fails inp.prop_list .walk p h
  · rw [if_neg hlog, if_neg hlog]
    exact .refl _

theorem examineBlob_fails {w : WalkState} {p : Nat} (hw : w.fdtheader = p)
    (h : 0 ≤ pathOffset (blobAt env.mem p) ROOT_NODE → ¬(OverlayLost env fails inp w ∨ LineLost env fails inp p)) :
    FailsOrSame (examineBlob (env.failing fails) inp w (acceptedEntry p (totalsize (blobAt env.mem p))))
      (examineBlob env inp w (acceptedEntry p (totalsize (blobAt env.mem p)))) := by
  unfold examineBlob
  refine .ite (fun _ => .refl _) fun hnode => ?_
  have h := not_or.mp (h (Int.not_lt.mp hnode))
  rw [hw]
  by_cases hrefused : (logEntry (env.failing fails) inp p).val = .error .nullDeref
  · -- with all the memory the lines are lost, too
    have hfull : (logEntry env inp p).val = .error .nullDeref := not_not.mp fun hne => h.2 ⟨hrefused, hne⟩
    refine Or.inr ?_
    rw [Traced.val_bind, Traced.val_bind, hrefused, hfull]
  · refine .bind (logEntry_fails hrefused) (fun status hs => ⟨(status, w), ?_, hs⟩) fun status hst =>
      .ite (fun _ => .refl _) fun hs => ?_
    · rw [if_pos hs]
      rfl
    · rw [not_not.mp hs] at hst
      refine examineEntry_fails w _ fun e' hr hc htype e'' r hoem hsel hcand =>
        h.1 ⟨hw ▸ hst, e', e'', r, ?_, hc, htype, hoem, hsel, hcand⟩
      rw [hw]
      exact hr

/-- Once its node is printed, a blob is what its entry comes to. -/
theorem examineBlob_logged {env : Env} {w : WalkState} {p n : Nat} (hw : w.fdtheader = p)
    (hnode : 0 ≤ pathOffset (blobAt env.mem p) ROOT_NODE) (hlog : (logEntry env inp p).val = .ok SUCCESS) :
    (examineBlob env inp w (acceptedEntry p n)).val =
      (examineEntry env inp w ((acceptedEntry p n).atNode (pathOffset (blobAt env.mem p) ROOT_NODE))).val := by
  unfold examineBlob
  rw [acceptedEntry_fdt, if_neg (Int.not_lt.mpr hnode), hw, Traced.val_bind, hlog]
  rfl

/-- A blob writes to a null pointer as its printing does. -/
theorem examineBlob_nullDeref {env : Env} {w : WalkState} {p n : Nat} (hw : w.fdtheader = p) :
    (examineBlob env inp w (acceptedEntry p n)).val = .error .nullDeref ↔
      0 ≤ pathOffset (blobAt env.mem p) ROOT_NODE ∧ (logEntry env inp p).val = .error .nullDeref := by
  have hentry (e : HandleEntry) : (examineEntry env inp w e).val ≠ .error .nullDeref := by
    intro h
    unfold examineEntry at h
    rcases Traced.val_bind_error.mp h with h | ⟨r, -, h⟩
    · exact Fault.noConfusion ((getBoolProp_error _ _ _ _ _).mp ((isItDtbDtboCandidate_error _ _ _ _).mp h).2).1
    · refine (Traced.faults_ite.mpr ⟨fun _ => Traced.faults_pure.mpr trivial, fun _ => Traced.faults_ite.mpr
        ⟨fun _ => Traced.faults_pure.mpr trivial, fun _ => Traced.faults_bind.mpr
          ⟨selectEntry_returns env inp w _, fun _ _ => Traced.faults_pure.mpr trivial⟩⟩⟩ :
            Traced.Faults _ fun _ => False) _ h
  unfold examineBlob
  rw [acceptedEntry_fdt]
  by_cases hnode : pathOffset (blobAt env.mem p) ROOT_NODE < 0
  · rw [if_pos hnode]
    exact ⟨nofun, fun h => absurd h.1 (Int.not_le.mpr hnode)⟩
  · rw [if_neg hnode, hw, and_iff_right (Int.not_lt.mp hnode), Traced.val_bind_error]
    refine ⟨fun h => h.resolve_right ?_, Or.inl⟩
    rintro ⟨status, -, h⟩
    split at h
    · cases h
    · exact hentry _ h

/-- A turn of the walk ends it with an error, or is the same. -/
def StepFails (r : WalkState ⊕ (Int × WalkState)) : Prop := ∃ status w, r = .inr (status, w) ∧ status ≠ SUCCESS

/-- The turn ends the walk with an error, or does what it does with all the memory. -/
def TurnReported (env : Env) (fails : Site → Bool) (inp : HandleInput) (w : WalkState) : Prop :=
  OrSame StepFails (walkStep (env.failing fails) inp w) (walkStep env inp w)

theorem walkStep_fails {w : WalkState} (h : ¬Dropped env fails inp w) : TurnReported env fails inp w := by
  unfold TurnReported OrSame
  rw [walkStep_eq, walkStep_eq]
  have hend : isFdtheaderAtEndOfImage (env.failing fails) inp w.handle.dtbs_image_start_address w.fdtheader
    initHandleEntry =
      isFdtheaderAtEndOfImage env inp w.handle.dtbs_image_start_address w.fdtheader initHandleEntry := rfl
  rw [hend]
  generalize hr : isFdtheaderAtEndOfImage env inp _ w.fdtheader initHandleEntry = r
  obtain ⟨status, e, at_end⟩ := r
  simp only
  by_cases hs : status = SUCCESS
  · subst hs
    cases at_end with
    | true =>
      rw [if_neg (not_not.mpr rfl), if_neg (not_not.mpr rfl), if_pos rfl]
      exact Or.inr rfl
    | false =>
      obtain ⟨-, -, -, rfl, -⟩ := accepted_entry hr
      simp only [acceptedEntry_size]
      have hblob := examineBlob_fails (w := w.visit (totalsize (blobAt env.mem w.fdtheader))) (p := w.fdtheader) rfl
        fun hnode hlost => h ⟨⟨_, hr⟩, hnode, hlost.imp (fun ⟨hlog, hlost⟩ => ⟨hlog, hlost⟩) id⟩
      rcases hblob with ⟨⟨status, w1⟩, hx, hne⟩ | hx
      · rw [hx]
        exact Or.inl ⟨.inr (status, w1), if_pos hne, status, w1, rfl, hne⟩
      · rw [hx]
        exact Or.inr rfl
  · rw [if_pos hs, if_pos hs]
    exact Or.inr rfl

/-- The next turn, and the state that the blob of this one leaves. -/
theorem walkStep_examined {env : Env} {w w1 : WalkState} {e : HandleEntry}
    (hend : isFdtheaderAtEndOfImage env inp w.handle.dtbs_image_start_address w.fdtheader initHandleEntry =
    (SUCCESS, e, false))
    (h : (examineBlob env inp (w.visit (totalsize (blobAt env.mem w.fdtheader)))
      (acceptedEntry w.fdtheader (totalsize (blobAt env.mem w.fdtheader)))).val = .ok (SUCCESS, w1)) :
    (walkStep env inp w).val = .ok (.inl (w1.advance (totalsize (blobAt env.mem w.fdtheader)))) := by
  obtain ⟨-, -, -, rfl, -⟩ := accepted_entry hend
  rw [walkStep_eq, hend]
  simp only [ne_eq, not_true_eq_false, if_false, Bool.false_eq_true, acceptedEntry_size]
  rw [h]
  rfl

/-- A blob that is not yet passed was not selected. -/
theorem WalkInv.platform_before {start : Nat} {w : WalkState} (h : WalkInv env start w) (hw : w.fdtheader ≠ 0) :
    w.handle.plat_dtbo_ptr ≠ w.fdtheader := by
  rcases h.pairs ⟨w.handle.plat_dtbo_ptr, w.handle.plat_dtbo_size⟩ (by simp [HandleData.pairs]) with hnone | hmem
  · rw [(Segment.mk.inj hnone).1]
    exact hw.symm
  · have hbounds := h.tiles.mem_bounds hmem
    simp only at hbounds
    omega

/-- A lost overlay, or a lost line, is not reported. -/
theorem Dropped.unreported {start : Nat} {w : WalkState} (hinv : WalkInv env start w) (h : Dropped env fails inp w) :
    ¬TurnReported env fails inp w := by
  obtain ⟨⟨e0, hend⟩, hnode, hlost⟩ := h
  have hp := (accepted_entry hend).1
  rcases hlost with ⟨hlog, e, e', r, hfilter, hc, htype, hoem, hselect, hcand⟩ | ⟨hrefused, hfull⟩
  · have hlog' : (logEntry env inp w.fdtheader).val = .ok SUCCESS := by
      rcases logEntry_fails (by rw [hlog]; exact nofun) with ⟨status, hst, hne⟩ | hsame
      · exact absurd (Except.ok.inj (hst.symm.trans hlog)) hne
      · exact hsame.symm.trans hlog
    have hfilter' : (isItDtbDtboCandidate env inp (examined env w.fdtheader)).val = .ok (SUCCESS, e) := by
      have hfails : FailsOrSame (isItDtbDtboCandidate (env.failing fails) inp (examined env w.fdtheader)) _ :=
        isItDtbDtboCandidate_fails inp (examined env w.fdtheader)
      rcases hfails with ⟨r, hr, hne⟩ | hsame
      · exact absurd (congrArg Prod.fst (Except.ok.inj (hr.symm.trans hfilter))) hne
      · exact hsame.symm.trans hfilter
    generalize hn : totalsize (blobAt env.mem w.fdtheader) = n at *
    have hpassed : (examineBlob (env.failing fails) inp (w.visit n) (acceptedEntry w.fdtheader n)).val =
        .ok (SUCCESS, w.visit n) := by
      have hentry : (examineBlob (env.failing fails) inp (w.visit n) (acceptedEntry w.fdtheader n)).val = _ :=
        examineBlob_logged rfl hnode hlog
      have hrefuse : (selectEntry (env.failing fails) inp (w.visit n) (INVALID_CANDIDATE e)).val = .ok (w.visit n) :=
        selectEntry_refused htype hoem
      refine hentry.trans (examineEntry_selected ?_ hc hrefuse)
      rw [← hn]
      exact hfilter
    have hselected : (examineBlob env inp (w.visit n) (acceptedEntry w.fdtheader n)).val =
        .ok (SUCCESS, (w.visit n).keepPlatform r.2) := by
      refine (examineBlob_logged (w := w.visit n) rfl hnode hlog').trans ?_
      have hkeep := selectEntry_platform env inp (w.visit n) htype hselect
      rw [if_pos hcand] at hkeep
      refine examineEntry_selected ?_ hc hkeep
      rw [← hn]
      exact hfilter'
    subst hn
    have hrefused : (walkStep (env.failing fails) inp w).val = _ := walkStep_examined hend hpassed
    have hkept := walkStep_examined hend hselected
    have hblob : r.2.node.blob = w.fdtheader := by
      have hseg := validateAndSelectPlatformDtbo_segment env inp _ _ _ hselect
      have hframe : e.node = (examined env w.fdtheader).node := (isItDtbDtboCandidate_frame _ _ _ _ hfilter').node
      have haddr : r.2.node.blob = e.node.blob := congrArg Segment.addr hseg
      rw [haddr, hframe]
      rfl
    rintro (⟨_, hr, _, _, rfl, -⟩ | hsame)
    · rw [hrefused] at hr
      cases hr
    · rw [hrefused, hkept] at hsame
      have hptr : w.handle.plat_dtbo_ptr = r.2.node.blob :=
        congrArg (fun w : WalkState => w.handle.plat_dtbo_ptr) (Sum.inl.inj (Except.ok.inj hsame))
      exact hinv.platform_before hp (hptr.trans hblob)
  · have hnull : (walkStep (env.failing fails) inp w).val = .error .nullDeref :=
      (walkStep_fault _ _ _ _).mpr ⟨⟨e0, hend⟩, (examineBlob_nullDeref rfl).mpr ⟨hnode, hrefused⟩⟩
    rintro (⟨_, hr, -⟩ | hsame)
    · rw [hnull] at hr
      cases hr
    · rw [hnull] at hsame
      exact hfull ((examineBlob_nullDeref rfl).mp ((walkStep_fault _ _ _ _).mp hsame.symm).2).2

/-- What the walk comes to keeps its invariant. -/
theorem Walked.inv {env : Env} {start : Nat} {w : WalkState} (h : Walked env inp (initHandleData start) w) :
    WalkInv env start w :=
  h.2.induct (I := WalkInv env start) (initWalkState_inv env start) fun _ _ => walkStep_inv

/-- A turn is reported exactly when it loses nothing. -/
theorem turn_reported_iff {start : Nat} {w : WalkState} (h : Walked (env.failing fails) inp (initHandleData start) w) :
    TurnReported env fails inp w ↔ ¬Dropped env fails inp w := by
  refine ⟨fun hreported hdropped => ?_, walkStep_fails⟩
  obtain ⟨hstart, htiles, hsizes, hpairs⟩ := h.inv
  have hinv : WalkInv env start w := ⟨hstart, htiles, hsizes, hpairs⟩
  exact hdropped.unreported hinv hreported

/-- The walk returns an error or is the same when none of its turns drops a blob. -/
theorem walk_fails {w : WalkState} (h : ∀ t, Traced.Reaches (walkStep (env.failing fails) inp) w t →
    ¬Dropped env fails inp t) : FailsOrSame (walk (env.failing fails) inp w) (walk env inp w) := by
  unfold walk
  induction hn : 2 ^ 64 - w.fdtheader using Nat.strongRecOn generalizing w with
  | _ n ih =>
    subst hn
    unfold FailsOrSame OrSame
    rw [Traced.loop_eq, Traced.loop_eq]
    rcases walkStep_fails (h w .start) with ⟨r, hr, status, w', rfl, hne⟩ | hsame
    · rw [hr]
      exact Or.inl ⟨(status, w'), rfl, hne⟩
    · rw [hsame]
      cases hs : (walkStep env inp w).val with
      | error e => exact Or.inr rfl
      | ok r =>
        cases r with
        | inr a => exact Or.inr rfl
        | inl w' =>
          have hadv := walkStep_advance hs
          exact ih _ (by omega) (fun t ht => h t (ht.head (hsame.trans hs))) rfl

/-! ## The whole call -/

theorem printSelected_same_alloc (type : BlobType) (ptr size : Nat) (status : Int) :
    (printSelected (env.failing fails) inp type ptr size status).val =
    (printSelected env inp type ptr size status).val :=
  Traced.val_ite_congr (fun _ => printBoardId_selected _ _ _) fun _ => rfl

theorem openHandle_fails {start : Nat} (h : (printInputParameters (env.failing fails) inp.prop_list).val =
    .ok SUCCESS →
      ∀ t, Walked (env.failing fails) inp (initHandleData start) t → ¬Dropped env fails inp t) :
    FailsOrSame (openHandle (env.failing fails) inp start) (openHandle env inp start) := by
  unfold openHandle
  have hinput : (printInputParameters (env.failing fails) inp.prop_list).val =
      (printInputParameters env inp.prop_list).val := by
    unfold printInputParameters
    refine Traced.val_ite_congr (fun _ => rfl) fun _ => ?_
    exact Traced.val_bind_congr (congrArg Except.ok (failing_outside rfl _)) fun _ _ => rfl
  refine .bind (Q := fun _ => False) (Or.inr hinput) (fun _ hr => hr.elim) fun status hst =>
    .ite (fun _ => .refl _) fun hs => ?_
  rw [not_not.mp hs] at hst
  have hselect : FailsOrSame (selectDtbAndDtbos (env.failing fails) inp (initHandleData start))
      (selectDtbAndDtbos env inp (initHandleData start)) := by
    unfold selectDtbAndDtbos
    exact .ite (fun _ => .refl _) fun h0 => walk_fails fun t ht => h hst t ⟨h0, ht⟩
  refine .bind hselect ?_ fun r _ => .ite (fun _ => .refl _) fun _ => .bindValue ?_ fun _ => .refl _
  · rintro ⟨status, w⟩ hne
    exact ⟨(status, w.handle), by simp only; rw [if_pos hne]; rfl, hne⟩
  · unfold printSelectedDtbDtbos
    refine Traced.val_bind_congr (printSelected_same_alloc _ _ _ _) fun _ _ =>
      Traced.val_ite_congr (fun _ => rfl) fun _ => ?_
    refine Traced.val_bind_congr (printSelected_same_alloc _ _ _ _) fun _ _ =>
      Traced.val_ite_congr (fun _ => rfl) fun _ => ?_
    exact printSelected_same_alloc _ _ _ _

/-- No turn of the call loses an overlay or a line. -/
def NoneDropped (env : Env) (fails : Site → Bool) (a : OpenArgs) : Prop :=
  ∀ inp w, WalksImage (env.failing fails) a inp →
    Walked (env.failing fails) inp (initHandleData a.dtbs_image_start_address) w → ¬Dropped env fails inp w

/-- Every turn of the call is reported. -/
def TurnsReported (env : Env) (fails : Site → Bool) (a : OpenArgs) : Prop :=
  ∀ inp w, WalksImage (env.failing fails) a inp →
    Walked (env.failing fails) inp (initHandleData a.dtbs_image_start_address) w → TurnReported env fails inp w

/-- A run reports every refusal, turn by turn, exactly when no turn loses an overlay
or a line; and then so does the call. -/
theorem exhaustion_reported (env : Env) (fails : Site → Bool) (a : OpenArgs) :
    (TurnsReported env fails a ↔ NoneDropped env fails a) ∧ (NoneDropped env fails a → Undegraded env fails a) := by
  refine ⟨forall_congr' fun inp => forall_congr' fun w => forall_congr' fun _ => forall_congr' turn_reported_iff,
    fun h => ?_⟩
  have hopen : FailsOrSame (dtSelectOpen (env.failing fails) a) (dtSelectOpen env a) := by
    unfold dtSelectOpen
    cases hprop : a.Input_chip_plat_info_prop with
    | none => exact .refl _
    | some prop =>
      have hhandle : (malloc (env.failing fails) .handle HANDLE_SIZE).val = (malloc env .handle HANDLE_SIZE).val :=
        congrArg Except.ok (failing_outside rfl _)
      refine .ite (fun _ => .refl _) fun hargs => .bind (Q := fun _ => False) (Or.inr hhandle) (fun _ hr => hr.elim)
        fun ptr hptr => .ite (fun _ => .refl _) fun hnull => ?_
      have halloc : (env.failing fails).alloc .handle HANDLE_SIZE ≠ 0 := by
        rw [Except.ok.inj (hptr : Except.ok _ = Except.ok ptr)]
        exact hnull
      refine .bind (openHandle_fails fun hprinted t ht => h _ t ⟨⟨prop, hprop, rfl⟩, hargs, halloc, hprinted⟩ ht) ?_
        fun _ _ => .refl _
      rintro ⟨status, hd⟩ hne
      exact ⟨(status, none), by simp only; rw [if_pos hne]; rfl, hne⟩
  rcases hopen with ⟨⟨status, out⟩, hr, hne⟩ | hsame
  · exact Or.inl ⟨status, out, hr, hne⟩
  · exact Or.inr hsame

end

/-- A base tree and an overlay for the device's OEM variant. -/
def oemEnv : Env := imageEnv 0x1000 [baseBlob [] 6, platBlob [(OEM_VAR_PROP_NAME, [0, 0, 0, 0])] 4] false

def oemArgs : OpenArgs where
  dtbs_image_start_address := 0x1000
  dtbs_image_size := 0
  Input_chip_plat_info_prop := some imageProp
  Input_prop_list := none
  prop_num_entries := 0

/-- The buffer for the chips is refused at the first blob. -/
theorem exhaustion_reported_chipinfo : Undegraded oemEnv (fun site => decide (site = .chipinfo 0x1000)) oemArgs := by
  refine (exhaustion_reported _ _ _).2 fun inp t hwalks ht => ?_
  obtain ⟨prop, hprop, rfl⟩ := hwalks.input
  cases hprop
  -- the walk ends in its first round
  have hstop : (walkStep (oemEnv.failing fun site => decide (site = .chipinfo 0x1000)) (oemArgs.input imageProp)
      (initWalkState (initHandleData 0x1000))).val.map Sum.isRight = .ok true := by
    decide +kernel
  have hfirst : t = initWalkState (initHandleData 0x1000) := by
    refine Traced.Reaches.induct (I := fun s => s = initWalkState (initHandleData 0x1000)) rfl ?_ ht.2
    rintro s s' rfl hs
    rw [hs] at hstop
    cases hstop
  subst hfirst
  rintro ⟨-, -, ⟨-, e, -, -, hok, -⟩ | ⟨hprint, -⟩⟩
  · have hrefused : (isItDtbDtboCandidate (oemEnv.failing fun site => decide (site = .chipinfo 0x1000))
        (oemArgs.input imageProp) (examined oemEnv 0x1000)).val.map Prod.fst = .ok MALLOC_FAIL := by
      decide +kernel
    have hrefused := hrefused.symm.trans (congrArg (Except.map Prod.fst) hok)
    cases hrefused
  · cases hprint

/-- The overlay is left out although the call succeeds. -/
theorem oem_variant_dropped : ¬∀ env : Env, env.NoFail → ∀ fails a, Undegraded env fails a := by
  intro h
  have hwith : (dtSelectOpen oemEnv oemArgs).val.map (fun r => r.2.map fun o => o.handle.plat_dtbo_ptr) =
      .ok (some 0x1080) := by
    decide +kernel
  have hwithout : (dtSelectOpen (oemEnv.failing fun site => decide (site = .oemVar 0x1080)) oemArgs).val.map
      (fun r => (r.1, r.2.map fun o => o.handle.plat_dtbo_ptr)) = .ok (SUCCESS, some 0) := by
    decide +kernel
  rcases h oemEnv (imageEnv_noFail _ _ _) (fun site => decide (site = .oemVar 0x1080)) oemArgs
    with ⟨status, out, hr, hne⟩ | hsame
  · rw [hr] at hwithout
    simp only [Except.map, Except.ok.injEq, Prod.mk.injEq] at hwithout
    exact hne hwithout.1
  · rw [hsame] at hwithout
    revert hwith hwithout
    cases (dtSelectOpen oemEnv oemArgs).val with
    | error e => exact fun hwith => (nomatch hwith)
    | ok r =>
      intro hwith hwithout
      simp only [Except.map, Except.ok.injEq, Prod.mk.injEq] at hwith hwithout
      rw [hwith] at hwithout
      exact absurd hwithout.2 (by decide)

end DTFramework.Select
