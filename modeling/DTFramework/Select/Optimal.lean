import Mathlib.Data.Prod.Lex
import DTFramework.Lib.FirstMax
import DTFramework.Select.Headers

/-!
# The selection is the best one

What a walk selects, said without the walk: of the accepted blobs of a category
the earliest one with the greatest key. The keys are lexicographic, while the
code compares ranks and packed versions and keeps its best so far in a rank
that starts at -1; `Chosen.Rep` is the link between the two.

Results:

* `selectEntry_rep`: selecting an entry is one turn of three searches;
* `selection_optimal`: the handle of a walk that succeeds holds the earliest
  maximum of every category.
-/
namespace DTFramework.Select

open DTFramework.Fdt DTFramework.Extn DTFramework.Lib

/-! ## The categories and their orders -/

/-- Versions are compared major first. -/
abbrev Version := Lex (Nat × Nat)

def version (major minor : Nat) : Version := toLex (major, minor)

/-- The chip version of an entry, and of the device. -/
def HandleEntry.chipVersion (e : HandleEntry) : Version := version e.chipinfo.major e.chipinfo.minor
def HandleEntry.platVersion (e : HandleEntry) : Version := version e.platforminfo.major e.platforminfo.minor
def ChipPlatInfo.chipVersion (p : ChipPlatInfo) : Version := version p.chip_maj_version p.chip_min_version
def ChipPlatInfo.platVersion (p : ChipPlatInfo) : Version := version p.platform_maj_version p.platform_min_version

/-- A base tree for every chip, in version 1.0. -/
def BaseFits (e : HandleEntry) : Prop :=
  e.device_tree_type = .BASE_DTB ∧ e.chipinfo.id = 0 ∧ e.chipinfo.major = 1 ∧ e.chipinfo.minor = 0

/-- An overlay for the chip, of no later version. -/
def SocFits (prop : ChipPlatInfo) (e : HandleEntry) : Prop :=
  e.device_tree_type = .SOC_DTBO ∧ (e.chipinfo.id = 0 ∨ e.chipinfo.id = prop.chip_id) ∧
    e.chipVersion ≤ prop.chipVersion

/-- The OEM variant check: no list of variants, or one that has the device's. -/
def oemVariantFits (env : Env) (prop : ChipPlatInfo) (e : HandleEntry) : Bool :=
  let p := getPropSize env.defs (e.fdt env) e.node.offset OEM_VAR_PROP_NAME 0
  if p.1 = -FDT_ERR_NOTFOUND then true
  else if p.1 ≠ FDT_ERR_QC_NOERROR ∨ p.2 = 0 ∨ p.2 % SINGLE_OEM_VARIANT_ELEMENT_SIZE_BYTES ≠ 0 then false
  else match getUint32PropList env.defs (e.fdt env) e.node.offset OEM_VAR_PROP_NAME p.2 with
  | .error _ => false
  | .ok (status, values) => decide (status = FDT_ERR_QC_NOERROR) &&
    (values.take (p.2 / SINGLE_OEM_VARIANT_ELEMENT_SIZE_BYTES)).contains prop.oem_var

/-- An overlay for the platform and the chip, of no later versions. -/
def PlatFits (env : Env) (prop : ChipPlatInfo) (e : HandleEntry) : Prop :=
  e.device_tree_type = .PLATFORM_DTBO ∧ e.platforminfo.type = prop.platform_type ∧
    oemVariantFits env prop e = true ∧
    (e.platforminfo.subtype = 0 ∨ e.platforminfo.subtype = prop.platform_subtype) ∧
    (e.chipinfo.id = 0 ∨ e.chipinfo.id = prop.chip_id) ∧
    e.platVersion ≤ prop.platVersion ∧ e.chipVersion ≤ prop.chipVersion

instance : DecidablePred BaseFits := fun e => by unfold BaseFits; infer_instance
instance (prop : ChipPlatInfo) : DecidablePred (SocFits prop) := fun e => by unfold SocFits; infer_instance
instance (env : Env) (prop : ChipPlatInfo) : DecidablePred (PlatFits env prop) := fun e => by
  unfold PlatFits; infer_instance

/-- All base trees are equally good. -/
def baseKey (_ : HandleEntry) : Unit := ()

/-- A set chip id first, then the chip version. -/
def socKey (e : HandleEntry) : Lex (Bool × Version) := toLex (decide (e.chipinfo.id ≠ 0), e.chipVersion)

/-- A set subtype first, then a set chip id, then the versions of platform and chip. -/
def platKey (e : HandleEntry) : Lex (Bool × Lex (Bool × Lex (Version × Version))) :=
  toLex (decide (e.platforminfo.subtype ≠ 0),
    toLex (decide (e.chipinfo.id ≠ 0), toLex (e.platVersion, e.chipVersion)))

/-! ## Packed versions and ranks -/

theorem version_lt_iff {a b c d : Nat} : version a b < version c d ↔ a < c ∨ a = c ∧ b < d :=
  Prod.Lex.toLex_lt_toLex

theorem version_le_iff {a b c d : Nat} : version a b ≤ version c d ↔ a < c ∨ a = c ∧ b ≤ d :=
  Prod.Lex.toLex_le_toLex

theorem version_eq_iff {a b c d : Nat} : version a b = version c d ↔ a = c ∧ b = d := by
  unfold version
  rw [EmbeddingLike.apply_eq_iff_eq, Prod.mk.injEq]

/-- Packing keeps the order of versions whose minor numbers fit. -/
theorem chipVersion_lt_iff {a b c d : Nat} (hb : b < 0x10000) (hd : d < 0x10000) :
    chipVersion a b < chipVersion c d ↔ version a b < version c d := by
  rw [version_lt_iff]
  unfold chipVersion
  omega

theorem chipVersion_le_iff {a b c d : Nat} (hb : b < 0x10000) (hd : d < 0x10000) :
    chipVersion a b ≤ chipVersion c d ↔ version a b ≤ version c d := by
  rw [version_le_iff]
  unfold chipVersion
  omega

theorem platVersion_lt_iff {a b c d : Nat} (hb : b < 0x100) (hd : d < 0x100) :
    platVersion a b < platVersion c d ↔ version a b < version c d := by
  rw [version_lt_iff]
  unfold platVersion
  omega

theorem platVersion_le_iff {a b c d : Nat} (hb : b < 0x100) (hd : d < 0x100) :
    platVersion a b ≤ platVersion c d ↔ version a b ≤ version c d := by
  rw [version_le_iff]
  unfold platVersion
  omega

theorem platVersion_eq_iff {a b c d : Nat} (hb : b < 0x100) (hd : d < 0x100) :
    platVersion a b = platVersion c d ↔ version a b = version c d := by
  rw [version_eq_iff]
  unfold platVersion
  omega

/-- The rank of an SOC overlay. -/
def socRank (e : HandleEntry) : Int := if e.chipinfo.id ≠ 0 then 1 else 0

/-- The order of the keys, as ranks and packed versions. -/
theorem socKey_lt_iff {y e : HandleEntry} (hy : y.Fits) (he : e.Fits) :
    socKey y < socKey e ↔ socRank y < socRank e ∨ socRank y = socRank e ∧
      chipVersion y.chipinfo.major y.chipinfo.minor < chipVersion e.chipinfo.major e.chipinfo.minor := by
  unfold socKey
  rw [Prod.Lex.toLex_lt_toLex, chipVersion_lt_iff hy.chip_minor he.chip_minor]
  unfold socRank
  by_cases h1 : y.chipinfo.id = 0 <;> by_cases h2 : e.chipinfo.id = 0 <;>
    simp [h1, h2, HandleEntry.chipVersion]

theorem platKey_lt_iff {y e : HandleEntry} (hy : y.Fits) (he : e.Fits) :
    platKey y < platKey e ↔
      platformRank y.platforminfo.subtype y.chipinfo.id < platformRank e.platforminfo.subtype e.chipinfo.id ∨
      platformRank y.platforminfo.subtype y.chipinfo.id = platformRank e.platforminfo.subtype e.chipinfo.id ∧
      (platVersion y.platforminfo.major y.platforminfo.minor <
          platVersion e.platforminfo.major e.platforminfo.minor ∨
        platVersion y.platforminfo.major y.platforminfo.minor =
          platVersion e.platforminfo.major e.platforminfo.minor ∧
        chipVersion y.chipinfo.major y.chipinfo.minor < chipVersion e.chipinfo.major e.chipinfo.minor) := by
  unfold platKey
  rw [Prod.Lex.toLex_lt_toLex, Prod.Lex.toLex_lt_toLex, Prod.Lex.toLex_lt_toLex,
    chipVersion_lt_iff hy.chip_minor he.chip_minor, platVersion_lt_iff hy.plat_minor he.plat_minor,
    platVersion_eq_iff hy.plat_minor he.plat_minor]
  unfold platformRank
  by_cases h1 : y.platforminfo.subtype = 0 <;> by_cases h2 : e.platforminfo.subtype = 0 <;>
    by_cases h3 : y.chipinfo.id = 0 <;> by_cases h4 : e.chipinfo.id = 0 <;>
    simp [h1, h2, h3, h4, HandleEntry.chipVersion, HandleEntry.platVersion]

/-! ## The selectors -/

/-- The OEM variant check, when requests succeed. -/
theorem validateOemVariant_ok {env : Env} (hn : env.NoFail) {inp : HandleInput} {e e' : HandleEntry} {status : Int}
    (h : (validateOemVariant env inp e).val = .ok (status, e')) :
    status = SUCCESS ∧ e' = { e with candidacy_status := oemVariantFits env inp.prop e } := by
  have hne := hn (.oemVar e.node.blob) _ (getPropSize_lt env.defs (e.fdt env) e.node.offset OEM_VAR_PROP_NAME)
  unfold validateOemVariant at h
  simp only [Traced.val_bind, Traced.val_ite, Traced.val_pure, val_malloc, val_free, val_ofExcept] at h
  unfold INVALID_CANDIDATE VALID_CANDIDATE at h
  simp only [if_neg hne] at h
  unfold oemVariantFits
  by_cases h1 : (getPropSize env.defs (e.fdt env) e.node.offset OEM_VAR_PROP_NAME 0).1 = -FDT_ERR_NOTFOUND
  · have h2 : (getPropSize env.defs (e.fdt env) e.node.offset OEM_VAR_PROP_NAME 0).1 ≠ FDT_ERR_QC_NOERROR := by
      rw [h1]; decide
    rw [if_pos (Or.inl h2), if_pos h1] at h
    cases h
    exact ⟨rfl, by simp only [h1, if_true]⟩
  · simp only [h1, if_false] at h ⊢
    split at h
    · rename_i h2
      cases h
      exact ⟨rfl, by rw [if_pos (by tauto)]⟩
    · rename_i h2
      split at h
      · rename_i h3
        cases h
        exact ⟨rfl, by rw [if_pos (by tauto)]⟩
      · rename_i h3
        rw [if_neg (by tauto)]
        cases hg : getUint32PropList env.defs (e.fdt env) e.node.offset OEM_VAR_PROP_NAME
            (getPropSize env.defs (e.fdt env) e.node.offset OEM_VAR_PROP_NAME 0).2 with
        | error x => rw [hg] at h; cases h
        | ok r =>
          rw [hg] at h
          obtain ⟨s, values⟩ := r
          simp only at h ⊢
          split at h
          · rename_i h4
            cases h
            exact ⟨rfl, by simp only [h4, decide_false, Bool.false_and]⟩
          · rename_i h4
            rw [not_not] at h4
            split at h
            · rename_i h5
              cases h
              exact ⟨rfl, by simp only [h4, h5, decide_true, Bool.true_and]⟩
            · rename_i h5
              cases h
              exact ⟨rfl, by simp only [h4, h5, decide_true, Bool.true_and]⟩

theorem validateAndSelectBaseDtb_eq (h : HandleData) (e : HandleEntry) :
    validateAndSelectBaseDtb h (INVALID_CANDIDATE e) =
      if h.base_dtb_ptr = 0 ∧ e.chipinfo.id = 0 ∧ e.chipinfo.major = 1 ∧ e.chipinfo.minor = 0 then
        (SUCCESS, VALID_CANDIDATE (INVALID_CANDIDATE e))
      else (SUCCESS, INVALID_CANDIDATE e) := rfl

/-- An SOC overlay with its rank and version. -/
def socEntry (e : HandleEntry) : HandleEntry :=
  { INVALID_CANDIDATE e with
    rank := socRank e
    chipinfo_version_calc := chipVersion e.chipinfo.major e.chipinfo.minor }

theorem validateAndSelectSocDtbo_eq (inp : HandleInput) (soc : SelectedDtbo) (e : HandleEntry) :
    validateAndSelectSocDtbo inp soc (INVALID_CANDIDATE e) =
      if e.chipinfo.id ≠ 0 ∧ e.chipinfo.id ≠ inp.prop.chip_id then (SUCCESS, INVALID_CANDIDATE e)
      else if chipVersion e.chipinfo.major e.chipinfo.minor > inp.chipinfo_version_calc then
        (SUCCESS, socEntry e)
      else if soc.rank > socRank e then (SUCCESS, socEntry e)
      else if soc.rank = socRank e then
        if chipVersion e.chipinfo.major e.chipinfo.minor > soc.chipinfo_version_calc then
          (SUCCESS, VALID_CANDIDATE (socEntry e))
        else (SUCCESS, socEntry e)
      else (SUCCESS, VALID_CANDIDATE (socEntry e)) := rfl

/-- When an SOC overlay is kept. -/
theorem validateAndSelectSocDtbo_kept {inp : HandleInput} {soc : SelectedDtbo} {e : HandleEntry}
    (hid : e.chipinfo.id = 0 ∨ e.chipinfo.id = inp.prop.chip_id)
    (hv : chipVersion e.chipinfo.major e.chipinfo.minor ≤ inp.chipinfo_version_calc)
    (hr : soc.rank < socRank e ∨ soc.rank = socRank e ∧
      soc.chipinfo_version_calc < chipVersion e.chipinfo.major e.chipinfo.minor) :
    (validateAndSelectSocDtbo inp soc (INVALID_CANDIDATE e)).2 = VALID_CANDIDATE (socEntry e) := by
  rw [validateAndSelectSocDtbo_eq, if_neg (by omega), if_neg (by omega)]
  rcases hr with hr | ⟨hr, hlt⟩
  · rw [if_neg (by omega), if_neg (by omega)]
  · rw [if_neg (by omega), if_pos hr, if_pos hlt]

theorem validateAndSelectSocDtbo_skipped {inp : HandleInput} {soc : SelectedDtbo} {e : HandleEntry}
    (h : ¬((e.chipinfo.id = 0 ∨ e.chipinfo.id = inp.prop.chip_id) ∧
      chipVersion e.chipinfo.major e.chipinfo.minor ≤ inp.chipinfo_version_calc ∧
      (soc.rank < socRank e ∨ soc.rank = socRank e ∧
        soc.chipinfo_version_calc < chipVersion e.chipinfo.major e.chipinfo.minor))) :
    (validateAndSelectSocDtbo inp soc (INVALID_CANDIDATE e)).2.candidacy_status = false := by
  rw [validateAndSelectSocDtbo_eq]
  split
  · rfl
  · split
    · rfl
    · split
      · rfl
      · split
        · split
          · exact absurd (by omega) h
          · rfl
        · exact absurd (by omega) h

/-- A platform overlay with its rank and versions. -/
def platEntry (e : HandleEntry) : HandleEntry :=
  { INVALID_CANDIDATE e with
    rank := platformRank e.platforminfo.subtype e.chipinfo.id
    chipinfo_version_calc := chipVersion e.chipinfo.major e.chipinfo.minor
    platforminfo_version_calc := platVersion e.platforminfo.major e.platforminfo.minor }

theorem rankPlatformDtbo_eq (inp : HandleInput) (plat : SelectedDtbo) (e : HandleEntry) :
    rankPlatformDtbo inp plat (INVALID_CANDIDATE e) =
      if e.platforminfo.subtype ≠ 0 ∧ e.platforminfo.subtype ≠ inp.prop.platform_subtype then
        (SUCCESS, INVALID_CANDIDATE e)
      else if e.chipinfo.id ≠ 0 ∧ e.chipinfo.id ≠ inp.prop.chip_id then (SUCCESS, INVALID_CANDIDATE e)
      else if (platformDtboVersionCheck inp plat (platEntry e)).1 ≠ SUCCESS then
        (FAIL, (platformDtboVersionCheck inp plat (platEntry e)).2)
      else (SUCCESS, (platformDtboVersionCheck inp plat (platEntry e)).2) := rfl

/-- The version check, on the entry with its rank and versions. -/
theorem platformDtboVersionCheck_platEntry (inp : HandleInput) (plat : SelectedDtbo) (e : HandleEntry) :
    platformDtboVersionCheck inp plat (platEntry e) =
      if platVersion e.platforminfo.major e.platforminfo.minor > inp.platforminfo_version_calc ∨
          chipVersion e.chipinfo.major e.chipinfo.minor > inp.chipinfo_version_calc then (SUCCESS, platEntry e)
      else if plat.rank > platformRank e.platforminfo.subtype e.chipinfo.id then (SUCCESS, platEntry e)
      else if plat.rank = platformRank e.platforminfo.subtype e.chipinfo.id then
        if platVersion e.platforminfo.major e.platforminfo.minor > plat.platforminfo_version_calc then
          (SUCCESS, VALID_CANDIDATE (platEntry e))
        else if platVersion e.platforminfo.major e.platforminfo.minor = plat.platforminfo_version_calc then
          if chipVersion e.chipinfo.major e.chipinfo.minor > plat.chipinfo_version_calc then
            (SUCCESS, VALID_CANDIDATE (platEntry e))
          else (SUCCESS, platEntry e)
        else (SUCCESS, platEntry e)
      else (SUCCESS, VALID_CANDIDATE (platEntry e)) := rfl

/-- When a platform overlay of the type and the OEM variant is kept. -/
theorem rankPlatformDtbo_kept {inp : HandleInput} {plat : SelectedDtbo} {e : HandleEntry}
    (hsub : e.platforminfo.subtype = 0 ∨ e.platforminfo.subtype = inp.prop.platform_subtype)
    (hid : e.chipinfo.id = 0 ∨ e.chipinfo.id = inp.prop.chip_id)
    (hp : platVersion e.platforminfo.major e.platforminfo.minor ≤ inp.platforminfo_version_calc)
    (hv : chipVersion e.chipinfo.major e.chipinfo.minor ≤ inp.chipinfo_version_calc)
    (hr : plat.rank < platformRank e.platforminfo.subtype e.chipinfo.id ∨
      plat.rank = platformRank e.platforminfo.subtype e.chipinfo.id ∧
      (plat.platforminfo_version_calc < platVersion e.platforminfo.major e.platforminfo.minor ∨
        plat.platforminfo_version_calc = platVersion e.platforminfo.major e.platforminfo.minor ∧
        plat.chipinfo_version_calc < chipVersion e.chipinfo.major e.chipinfo.minor)) :
    (rankPlatformDtbo inp plat (INVALID_CANDIDATE e)).2 = VALID_CANDIDATE (platEntry e) := by
  have hcheck : platformDtboVersionCheck inp plat (platEntry e) = (SUCCESS, VALID_CANDIDATE (platEntry e)) := by
    rw [platformDtboVersionCheck_platEntry, if_neg (by omega)]
    rcases hr with hr | ⟨hr, hlt | ⟨heq, hlt⟩⟩
    · rw [if_neg (by omega), if_neg (by omega)]
    · rw [if_neg (by omega), if_pos hr, if_pos hlt]
    · rw [if_neg (by omega), if_pos hr, if_neg (by omega), if_pos heq.symm, if_pos hlt]
  rw [rankPlatformDtbo_eq, if_neg (by omega), if_neg (by omega), hcheck]
  rfl

theorem rankPlatformDtbo_skipped {inp : HandleInput} {plat : SelectedDtbo} {e : HandleEntry}
    (h : ¬((e.platforminfo.subtype = 0 ∨ e.platforminfo.subtype = inp.prop.platform_subtype) ∧
      (e.chipinfo.id = 0 ∨ e.chipinfo.id = inp.prop.chip_id) ∧
      platVersion e.platforminfo.major e.platforminfo.minor ≤ inp.platforminfo_version_calc ∧
      chipVersion e.chipinfo.major e.chipinfo.minor ≤ inp.chipinfo_version_calc ∧
      (plat.rank < platformRank e.platforminfo.subtype e.chipinfo.id ∨
        plat.rank = platformRank e.platforminfo.subtype e.chipinfo.id ∧
        (plat.platforminfo_version_calc < platVersion e.platforminfo.major e.platforminfo.minor ∨
          plat.platforminfo_version_calc = platVersion e.platforminfo.major e.platforminfo.minor ∧
          plat.chipinfo_version_calc < chipVersion e.chipinfo.major e.chipinfo.minor)))) :
    (rankPlatformDtbo inp plat (INVALID_CANDIDATE e)).2.candidacy_status = false := by
  rw [rankPlatformDtbo_eq]
  split
  · rfl
  · split
    · rfl
    · have hcheck : (platformDtboVersionCheck inp plat (platEntry e)).2 = platEntry e := by
        rw [platformDtboVersionCheck_platEntry]
        split
        · rfl
        · split
          · rfl
          · split
            · split
              · exact absurd (by omega) h
              · split
                · split
                  · exact absurd (by omega) h
                  · rfl
                · rfl
            · exact absurd (by omega) h
      split <;> rw [hcheck] <;> rfl

/-- The platform selector, when requests succeed. -/
theorem validateAndSelectPlatformDtbo_ok {env : Env} (hn : env.NoFail) {inp : HandleInput} {plat : SelectedDtbo}
    {e : HandleEntry} {r : Int × HandleEntry}
    (h : (validateAndSelectPlatformDtbo env inp plat e).val = .ok r) :
    r.2 = if e.platforminfo.type = inp.prop.platform_type ∧ oemVariantFits env inp.prop e = true
      then (rankPlatformDtbo inp plat e).2 else INVALID_CANDIDATE e := by
  unfold validateAndSelectPlatformDtbo at h
  rw [Traced.val_ite] at h
  by_cases ht : (INVALID_CANDIDATE e).platforminfo.type = inp.prop.platform_type
  · rw [if_neg (not_not.mpr ht)] at h
    obtain ⟨⟨status, e'⟩, hv, h⟩ := Traced.val_bind_ok.mp h
    obtain ⟨rfl, rfl⟩ := validateOemVariant_ok hn hv
    simp only [ne_eq, not_true_eq_false, if_false] at h
    change (if (!oemVariantFits env inp.prop e) = true then _ else _ : Prog _).val = _ at h
    by_cases ho : oemVariantFits env inp.prop e = true
    · rw [if_neg (by simp [ho])] at h
      cases h
      rw [if_pos ⟨ht, ho⟩]
      rfl
    · rw [if_pos (by simpa using ho)] at h
      cases h
      rw [if_neg fun hc => ho hc.2]
      simp only [Bool.not_eq_true] at ho
      show ({ e with candidacy_status := oemVariantFits env inp.prop e } : HandleEntry) = _
      rw [ho]
      rfl
  · rw [if_pos ht] at h
    cases h
    rw [if_neg fun hc => ht hc.1]

/-! ## The searches -/

/-- The best entry so far of every category. -/
structure Chosen where
  base : Option HandleEntry
  soc : Option HandleEntry
  plat : Option HandleEntry

/-- One turn of the three searches. -/
def Chosen.add (env : Env) (prop : ChipPlatInfo) (c : Chosen) (e : HandleEntry) : Chosen where
  base := if BaseFits e then better baseKey c.base e else c.base
  soc := if SocFits prop e then better socKey c.soc e else c.soc
  plat := if PlatFits env prop e then better platKey c.plat e else c.plat

/-- Of the entries of `l`, `c` has the earliest best one of every category. -/
structure Chosen.Best (env : Env) (prop : ChipPlatInfo) (l : List HandleEntry) (c : Chosen) : Prop where
  base : IsFirstMax baseKey (l.filter BaseFits) c.base
  soc : IsFirstMax socKey (l.filter (SocFits prop)) c.soc
  plat : IsFirstMax platKey (l.filter (PlatFits env prop)) c.plat

theorem isFirstMax_filter {κ : Type} [LinearOrder κ] {key : HandleEntry → κ} {p : HandleEntry → Prop}
    [DecidablePred p] {l : List HandleEntry} {b : Option HandleEntry} (h : IsFirstMax key (l.filter p) b)
    (e : HandleEntry) : IsFirstMax key ((l ++ [e]).filter p) (if p e then better key b e else b) := by
  rw [List.filter_append]
  split
  · rename_i hp
    simp only [List.filter_cons, List.filter_nil, hp, decide_true, if_true]
    exact h.snoc e
  · rename_i hp
    simp only [List.filter_cons, List.filter_nil, hp, decide_false, Bool.false_eq_true, if_false,
      List.append_nil]
    exact h

theorem Chosen.Best.snoc {env : Env} {prop : ChipPlatInfo} {l : List HandleEntry} {c : Chosen}
    (h : c.Best env prop l) (e : HandleEntry) : (c.add env prop e).Best env prop (l ++ [e]) :=
  ⟨isFirstMax_filter h.base e, isFirstMax_filter h.soc e, isFirstMax_filter h.plat e⟩

/-- The pair the handle has for an entry. -/
def pairOf : Option HandleEntry → Segment
  | none => ⟨0, 0⟩
  | some e => e.segment

/-- The rank and version kept for the best SOC overlay. -/
def SocRep (d : SelectedDtbo) : Option HandleEntry → Prop
  | none => d.rank = -1
  | some e => e.Fits ∧ d.rank = socRank e ∧
    d.chipinfo_version_calc = chipVersion e.chipinfo.major e.chipinfo.minor

/-- The rank and versions kept for the best platform overlay. -/
def PlatRep (d : SelectedDtbo) : Option HandleEntry → Prop
  | none => d.rank = -1
  | some e => e.Fits ∧ d.rank = platformRank e.platforminfo.subtype e.chipinfo.id ∧
    d.chipinfo_version_calc = chipVersion e.chipinfo.major e.chipinfo.minor ∧
    d.platforminfo_version_calc = platVersion e.platforminfo.major e.platforminfo.minor

/-- The state of a walk keeps `c`. -/
structure Chosen.Rep (c : Chosen) (w : WalkState) : Prop where
  pairs : w.handle.pairs = [pairOf c.base, pairOf c.soc, pairOf c.plat]
  base_ne : ∀ e ∈ c.base, e.node.blob ≠ 0
  soc : SocRep w.soc_dtbo_selected c.soc
  plat : PlatRep w.platform_dtbo_selected c.plat

theorem Chosen.Rep.base_ptr {c : Chosen} {w : WalkState} (h : c.Rep w) :
    w.handle.base_dtb_ptr = (pairOf c.base).addr := by
  have := h.pairs
  unfold HandleData.pairs at this
  rw [List.cons.injEq] at this
  rw [← this.1]

/-- A search for the best base tree has found one when the pointer is set. -/
theorem Chosen.Rep.base_ptr_eq_zero {c : Chosen} {w : WalkState} (h : c.Rep w) :
    w.handle.base_dtb_ptr = 0 ↔ c.base = none := by
  rw [h.base_ptr]
  cases hb : c.base with
  | none => simp [pairOf]
  | some e =>
    have := h.base_ne e hb
    simp [pairOf, HandleEntry.segment, this]

theorem SocRep.lt_iff {d : SelectedDtbo} {b : Option HandleEntry} {e : HandleEntry} (h : SocRep d b) (he : e.Fits) :
    (d.rank < socRank e ∨ d.rank = socRank e ∧
      d.chipinfo_version_calc < chipVersion e.chipinfo.major e.chipinfo.minor) ↔
      ∀ y ∈ b, socKey y < socKey e := by
  cases b with
  | none =>
    have hr : d.rank = -1 := h
    have : -1 < socRank e := by unfold socRank; split <;> decide
    rw [hr]
    simp [this]
  | some y =>
    obtain ⟨hy, hr, hv⟩ := h
    simp only [Option.mem_def, Option.some.injEq, forall_eq']
    rw [socKey_lt_iff hy he, hr, hv]

theorem PlatRep.lt_iff {d : SelectedDtbo} {b : Option HandleEntry} {e : HandleEntry} (h : PlatRep d b)
    (he : e.Fits) :
    (d.rank < platformRank e.platforminfo.subtype e.chipinfo.id ∨
      d.rank = platformRank e.platforminfo.subtype e.chipinfo.id ∧
      (d.platforminfo_version_calc < platVersion e.platforminfo.major e.platforminfo.minor ∨
        d.platforminfo_version_calc = platVersion e.platforminfo.major e.platforminfo.minor ∧
        d.chipinfo_version_calc < chipVersion e.chipinfo.major e.chipinfo.minor)) ↔
      ∀ y ∈ b, platKey y < platKey e := by
  cases b with
  | none =>
    have hr : d.rank = -1 := h
    have : -1 < platformRank e.platforminfo.subtype e.chipinfo.id := by
      unfold platformRank; repeat' split
      all_goals decide
    rw [hr]
    simp [this]
  | some y =>
    obtain ⟨hy, hr, hv, hp⟩ := h
    simp only [Option.mem_def, Option.some.injEq, forall_eq']
    rw [platKey_lt_iff hy he, hr, hv, hp]

section
variable {env : Env} {size : Nat} {prop : ChipPlatInfo} {props : List PropertyEntry} {c : Chosen}
  {w w' : WalkState} {e : HandleEntry}

/-- Selecting a base tree. -/
theorem selectEntry_base_rep (hr : c.Rep w) (h0 : e.node.blob ≠ 0) (ht : e.device_tree_type = .BASE_DTB)
    (h : (selectEntry env (initHandleInput size prop props) w (INVALID_CANDIDATE e)).val = .ok w') :
    (c.add env prop e).Rep w' := by
  have hsoc : ¬SocFits prop e := fun h => by have := h.1; rw [ht] at this; cases this
  have hplat : ¬PlatFits env prop e := fun h => by have := h.1; rw [ht] at this; cases this
  have hadd : c.add env prop e = { c with base := if BaseFits e then better baseKey c.base e else c.base } := by
    unfold Chosen.add
    rw [if_neg hsoc, if_neg hplat]
  have hval : (selectEntry env (initHandleInput size prop props) w (INVALID_CANDIDATE e)).val =
      .ok (if (validateAndSelectBaseDtb w.handle (INVALID_CANDIDATE e)).2.candidacy_status
        then w.keepBase (validateAndSelectBaseDtb w.handle (INVALID_CANDIDATE e)).2 else w) := by
    unfold selectEntry
    rw [show (INVALID_CANDIDATE e).device_tree_type = .BASE_DTB from ht]
    rfl
  rw [hadd]
  rw [hval] at h
  cases h
  have heq := validateAndSelectBaseDtb_eq w.handle e
  by_cases hfit : w.handle.base_dtb_ptr = 0 ∧ e.chipinfo.id = 0 ∧ e.chipinfo.major = 1 ∧ e.chipinfo.minor = 0
  · have hnone := hr.base_ptr_eq_zero.mp hfit.1
    have hbase : BaseFits e := ⟨ht, hfit.2⟩
    rw [heq, if_pos hfit, if_pos hbase, hnone, VALID_CANDIDATE_status, if_pos rfl]
    have hp := hr.pairs
    simp only [HandleData.pairs, List.cons.injEq, and_true] at hp
    refine ⟨?_, fun y hy => ?_, hr.soc, hr.plat⟩
    · simp only [WalkState.keepBase, HandleData.pairs, hp.2.1, hp.2.2]
      rfl
    · cases hy
      exact h0
  · rw [heq, if_neg hfit]
    change Chosen.Rep _ w
    split
    · rename_i hbase
      cases hb : c.base with
      | none => exact absurd ⟨hr.base_ptr_eq_zero.mpr hb, hbase.2⟩ hfit
      | some y =>
        have : better baseKey (some y) e = some y := rfl
        rw [this, ← hb]
        exact hr
    · exact hr

/-- Selecting an SOC overlay. -/
theorem selectEntry_soc_rep (hr : c.Rep w) (hf : e.Fits) (ht : e.device_tree_type = .SOC_DTBO)
    (h : (selectEntry env (initHandleInput size prop props) w (INVALID_CANDIDATE e)).val = .ok w') :
    (c.add env prop e).Rep w' := by
  have hbase : ¬BaseFits e := fun h => by have := h.1; rw [ht] at this; cases this
  have hplat : ¬PlatFits env prop e := fun h => by have := h.1; rw [ht] at this; cases this
  have hadd : c.add env prop e = { c with soc := if SocFits prop e then better socKey c.soc e else c.soc } := by
    unfold Chosen.add
    rw [if_neg hbase, if_neg hplat]
  have hval : (selectEntry env (initHandleInput size prop props) w (INVALID_CANDIDATE e)).val =
      .ok (if (validateAndSelectSocDtbo (initHandleInput size prop props) w.soc_dtbo_selected
          (INVALID_CANDIDATE e)).2.candidacy_status
        then w.keepSoc (validateAndSelectSocDtbo (initHandleInput size prop props) w.soc_dtbo_selected
          (INVALID_CANDIDATE e)).2 else w) := by
    unfold selectEntry
    rw [show (INVALID_CANDIDATE e).device_tree_type = .SOC_DTBO from ht]
    rfl
  have hver : e.chipVersion ≤ prop.chipVersion ↔
      chipVersion e.chipinfo.major e.chipinfo.minor ≤ (initHandleInput size prop props).chipinfo_version_calc :=
    (chipVersion_le_iff hf.chip_minor prop.chip_version_lt.2).symm
  rw [hadd]
  rw [hval] at h
  cases h
  by_cases hfit : SocFits prop e
  · rw [if_pos hfit]
    by_cases hlt : ∀ y ∈ c.soc, socKey y < socKey e
    · rw [validateAndSelectSocDtbo_kept hfit.2.1 (hver.mp hfit.2.2) ((hr.soc.lt_iff hf).mpr hlt),
        VALID_CANDIDATE_status, if_pos rfl, better_of_lt hlt]
      have hp := hr.pairs
      simp only [HandleData.pairs, List.cons.injEq, and_true] at hp
      refine ⟨?_, hr.base_ne, ⟨hf, rfl, rfl⟩, hr.plat⟩
      simp only [WalkState.keepSoc, HandleData.pairs, hp.1, hp.2.2]
      rfl
    · rw [validateAndSelectSocDtbo_skipped fun hc => hlt ((hr.soc.lt_iff hf).mp hc.2.2),
        better_of_not_lt hlt]
      exact hr
  · rw [if_neg hfit, validateAndSelectSocDtbo_skipped fun hc => hfit ⟨ht, hc.1, hver.mpr hc.2.1⟩]
    exact hr

/-- Selecting a platform overlay. -/
theorem selectEntry_plat_rep (hn : env.NoFail) (hr : c.Rep w) (hf : e.Fits) (ht : e.device_tree_type = .PLATFORM_DTBO)
    (h : (selectEntry env (initHandleInput size prop props) w (INVALID_CANDIDATE e)).val = .ok w') :
    (c.add env prop e).Rep w' := by
  have hbase : ¬BaseFits e := fun h => by have := h.1; rw [ht] at this; cases this
  have hsoc : ¬SocFits prop e := fun h => by have := h.1; rw [ht] at this; cases this
  have hadd : c.add env prop e = { c with plat := if PlatFits env prop e then better platKey c.plat e
      else c.plat } := by
    unfold Chosen.add
    rw [if_neg hbase, if_neg hsoc]
  rw [hadd]
  unfold selectEntry at h
  rw [show (INVALID_CANDIDATE e).device_tree_type = .PLATFORM_DTBO from ht] at h
  obtain ⟨r, hv, h⟩ := Traced.val_bind_ok.mp h
  have hval : r.2 = if e.platforminfo.type = prop.platform_type ∧ oemVariantFits env prop e = true
      then (rankPlatformDtbo (initHandleInput size prop props) w.platform_dtbo_selected (INVALID_CANDIDATE e)).2
      else INVALID_CANDIDATE e := validateAndSelectPlatformDtbo_ok hn hv
  have hver : e.chipVersion ≤ prop.chipVersion ↔
      chipVersion e.chipinfo.major e.chipinfo.minor ≤ (initHandleInput size prop props).chipinfo_version_calc :=
    (chipVersion_le_iff hf.chip_minor prop.chip_version_lt.2).symm
  have hpver : e.platVersion ≤ prop.platVersion ↔ platVersion e.platforminfo.major e.platforminfo.minor ≤
      (initHandleInput size prop props).platforminfo_version_calc :=
    (platVersion_le_iff hf.plat_minor prop.platform_version_lt.2).symm
  simp only [Traced.val_pure, Except.ok.injEq] at h
  subst h
  by_cases htype : e.platforminfo.type = prop.platform_type ∧ oemVariantFits env prop e = true
  · rw [if_pos htype] at hval
    by_cases hfit : PlatFits env prop e
    · have ⟨_, _, _, hsub, hid, hp, hc⟩ := hfit
      rw [if_pos hfit]
      by_cases hlt : ∀ y ∈ c.plat, platKey y < platKey e
      · rw [rankPlatformDtbo_kept hsub hid (hpver.mp hp) (hver.mp hc) ((hr.plat.lt_iff hf).mpr hlt)] at hval
        rw [hval, VALID_CANDIDATE_status, if_pos rfl, better_of_lt hlt]
        have hp := hr.pairs
        simp only [HandleData.pairs, List.cons.injEq, and_true] at hp
        refine ⟨?_, hr.base_ne, hr.soc, ⟨hf, rfl, rfl, rfl⟩⟩
        simp only [WalkState.keepPlatform, HandleData.pairs, hp.1, hp.2.1]
        rfl
      · rw [hval, rankPlatformDtbo_skipped fun hc => hlt ((hr.plat.lt_iff hf).mp hc.2.2.2.2),
          better_of_not_lt hlt]
        exact hr
    · rw [if_neg hfit, hval, rankPlatformDtbo_skipped fun hc =>
        hfit ⟨ht, htype.1, htype.2, hc.1, hc.2.1, hpver.mpr hc.2.2.1, hver.mpr hc.2.2.2.1⟩]
      exact hr
  · rw [if_neg htype] at hval
    rw [hval, if_neg fun hfit : PlatFits env prop e => htype ⟨hfit.2.1, hfit.2.2.1⟩]
    exact hr

/-- Selecting an entry is one turn of the three searches. -/
theorem selectEntry_rep (hn : env.NoFail) (hr : c.Rep w) (h0 : e.node.blob ≠ 0) (hf : e.Fits)
    (h : (selectEntry env (initHandleInput size prop props) w (INVALID_CANDIDATE e)).val = .ok w') :
    (c.add env prop e).Rep w' := by
  cases ht : e.device_tree_type with
  | BASE_DTB => exact selectEntry_base_rep hr h0 ht h
  | SOC_DTBO => exact selectEntry_soc_rep hr hf ht h
  | PLATFORM_DTBO => exact selectEntry_plat_rep hn hr hf ht h

end

/-! ## The accepted blobs -/

/-- The entry of a blob at its board-id node. -/
def blobEntry (env : Env) (s : Segment) : HandleEntry :=
  (acceptedEntry s.addr s.size).atNode (pathOffset (blobAt env.mem s.addr) ROOT_NODE)

/-- What the candidate filter records of a blob it accepts. -/
def candidateOf (env : Env) (inp : HandleInput) (s : Segment) : Option HandleEntry :=
  match (isItDtbDtboCandidate env inp (blobEntry env s)).val with
  | .error _ => none
  | .ok (status, e) => if status = SUCCESS ∧ e.candidacy_status = true then some e else none

theorem candidateOf_frame {env : Env} {inp : HandleInput} {s : Segment} {e : HandleEntry}
    (h : candidateOf env inp s = some e) : (blobEntry env s).Frame e := by
  unfold candidateOf at h
  cases hx : (isItDtbDtboCandidate env inp (blobEntry env s)).val with
  | error f => rw [hx] at h; cases h
  | ok r =>
    rw [hx] at h
    simp only at h
    split at h
    · cases h
      exact isItDtbDtboCandidate_frame _ _ _ _ hx
    · cases h

/-- The recorded entry is the entry of the blob. -/
theorem candidateOf_segment {env : Env} {inp : HandleInput} {s : Segment} {e : HandleEntry}
    (h : candidateOf env inp s = some e) : e.segment = s :=
  (candidateOf_frame h).segment

theorem candidateOf_fits {env : Env} {inp : HandleInput} {s : Segment} {e : HandleEntry}
    (h : candidateOf env inp s = some e) : e.Fits :=
  (candidateOf_frame h).fits ⟨Nat.zero_lt_succ _, Nat.zero_lt_succ _, Nat.zero_lt_succ _, Nat.zero_lt_succ _⟩

/-- A blob that was examined: nothing changed, or its entry was selected. -/
theorem examineBlob_candidate {env : Env} {inp : HandleInput} {w w' : WalkState} {s : Segment}
    (h : (examineBlob env inp w (acceptedEntry s.addr s.size)).val = .ok (SUCCESS, w')) :
    match candidateOf env inp s with
    | none => w' = w
    | some e => (selectEntry env inp w (INVALID_CANDIDATE e)).val = .ok w' := by
  unfold examineBlob at h
  simp only at h
  rw [Traced.val_ite] at h
  split at h
  · cases h
  · obtain ⟨status, -, h⟩ := Traced.val_bind_ok.mp h
    rw [Traced.val_ite] at h
    split at h
    · rename_i hs
      cases h
      exact absurd rfl hs
    · obtain ⟨⟨status, e⟩, hx, h⟩ := Traced.val_bind_ok.mp h
      have hc : candidateOf env inp s = if status = SUCCESS ∧ e.candidacy_status = true then some e else none := by
        have hx' : (isItDtbDtboCandidate env inp (blobEntry env s)).val = .ok (status, e) := hx
        unfold candidateOf
        rw [hx']
      rw [hc]
      simp only [Traced.val_ite] at h
      split at h
      · rename_i hs
        cases h
        exact absurd rfl hs
      · rename_i hs
        split at h
        · rename_i hv
          cases h
          rw [if_neg fun hc => by simp [hc.2] at hv]
        · rename_i hv
          obtain ⟨w1, hsel, h⟩ := Traced.val_bind_ok.mp h
          cases h
          rw [if_pos ⟨not_not.mp hs, by simpa using hv⟩]
          exact hsel

theorem imageBlobs_addr_ne (env : Env) (inp : HandleInput) (start p : Nat) :
    ∀ s ∈ (imageBlobs env inp start p).1, s.addr ≠ 0 := by
  fun_induction imageBlobs env inp start p with
  | case1 p status e at_end hend hs rest ih =>
    obtain ⟨rfl, rfl⟩ := hs
    intro s hmem
    rcases List.mem_cons.mp hmem with rfl | hmem
    · exact (accepted_entry hend).1
    · exact ih s hmem
  | case2 => intro s hmem; cases hmem

/-- A run over blobs that succeeds keeps the searches going. -/
theorem examineAll_best {env : Env} {size : Nat} {prop : ChipPlatInfo} {props : List PropertyEntry} {status : Int}
    (hn : env.NoFail) {w' : WalkState} (l : List Segment) : ∀ (found : List HandleEntry) (c : Chosen) (w : WalkState),
      (∀ s ∈ l, s.addr ≠ 0) → c.Best env prop found → c.Rep w →
      (examineAll env (initHandleInput size prop props) status l w).val = .ok (SUCCESS, w') →
      ∃ c' : Chosen, c'.Best env prop (found ++ l.filterMap (candidateOf env (initHandleInput size prop props))) ∧
        c'.Rep w' := by
  induction l with
  | nil =>
    intro found c w _ hb hr h
    cases h
    exact ⟨c, by simpa using hb, hr⟩
  | cons s l ih =>
    intro found c w h0 hb hr h
    rw [examineAll_cons] at h
    cases hx : (examineBlob env (initHandleInput size prop props) (w.visit s.size)
        (acceptedEntry s.addr s.size)).val with
    | error x => rw [hx] at h; cases h
    | ok r =>
      obtain ⟨r, w1⟩ := r
      rw [hx] at h
      simp only at h
      split at h
      · rename_i hs
        cases h
        exact absurd rfl hs
      · rename_i hs
        rw [not_not] at hs
        subst hs
        have hsel := examineBlob_candidate hx
        have hl : ∀ s ∈ l, s.addr ≠ 0 := fun t ht => h0 t (List.mem_cons_of_mem _ ht)
        have hvisit : c.Rep (w.visit s.size) := ⟨hr.1, hr.2, hr.3, hr.4⟩
        have hadvance {c : Chosen} {w : WalkState} (hr : c.Rep w) : c.Rep (w.advance s.size) :=
          ⟨hr.1, hr.2, hr.3, hr.4⟩
        cases hc : candidateOf env (initHandleInput size prop props) s with
        | none =>
          rw [hc] at hsel
          subst hsel
          obtain ⟨c', hb', hr'⟩ := ih found c _ hl hb (hadvance hvisit) h
          exact ⟨c', by rw [List.filterMap_cons_none hc]; exact hb', hr'⟩
        | some e =>
          rw [hc] at hsel
          have he : e.node.blob ≠ 0 := by
            have := candidateOf_segment hc
            rw [show e.node.blob = s.addr from congrArg Segment.addr this]
            exact h0 s (.head l)
          have hr1 := selectEntry_rep hn hvisit he (candidateOf_fits hc) hsel
          obtain ⟨c', hb', hr'⟩ := ih (found ++ [e]) (c.add env prop e) _ hl (hb.snoc e) (hadvance hr1) h
          refine ⟨c', ?_, hr'⟩
          rw [List.filterMap_cons_some hc]
          simpa using hb'

/-- What the walk selects: of the blobs of the image that the filter accepts,
the first base tree of version 1.0, and the earliest best SOC and platform
overlays. A category without a blob has a null pair. -/
theorem selection_optimal (env : Env) (hn : env.NoFail) (size start : Nat) (prop : ChipPlatInfo)
    (props : List PropertyEntry) (w : WalkState)
    (h : (selectDtbAndDtbos env (initHandleInput size prop props) (initHandleData start)).val = .ok (SUCCESS, w)) :
    ∃ base soc plat : Option HandleEntry,
      let entries := (imageBlobs env (initHandleInput size prop props) start start).1.filterMap
        (candidateOf env (initHandleInput size prop props))
      IsFirstMax baseKey (entries.filter BaseFits) base ∧
      IsFirstMax socKey (entries.filter (SocFits prop)) soc ∧
      IsFirstMax platKey (entries.filter (PlatFits env prop)) plat ∧
      w.handle.pairs = [pairOf base, pairOf soc, pairOf plat] := by
  rw [selectDtbAndDtbos_eq] at h
  have hinit : Chosen.Rep ⟨none, none, none⟩ (initWalkState (initHandleData start)) :=
    ⟨rfl, fun e he => (nomatch he), rfl, rfl⟩
  obtain ⟨c, hb, hr⟩ := examineAll_best hn _ [] ⟨none, none, none⟩ _ (imageBlobs_addr_ne _ _ _ _)
    ⟨.nil, .nil, .nil⟩ hinit h
  exact ⟨c.base, c.soc, c.plat, hb.base, hb.soc, hb.plat, hr.pairs⟩

/-- One blob of each category. -/
theorem selection_optimal_image : ∃ base soc plat : Option HandleEntry,
    let env := imageEnv 0x1000 [baseBlob [] 6, socBlob [] 7, platBlob [] 4] false
    let entries := (imageBlobs env (initHandleInput 456 imageProp []) 0x1000 0x1000).1.filterMap
      (candidateOf env (initHandleInput 456 imageProp []))
    IsFirstMax baseKey (entries.filter BaseFits) base ∧
    IsFirstMax socKey (entries.filter (SocFits imageProp)) soc ∧
    IsFirstMax platKey (entries.filter (PlatFits env imageProp)) plat ∧
    [⟨0x1000, 128⟩, ⟨0x1080, 152⟩, ⟨0x1118, 176⟩] = [pairOf base, pairOf soc, pairOf plat] :=
  selection_optimal _ (imageEnv_noFail _ _ _) 456 0x1000 imageProp [] sampleWalk sampleWalk_run

end DTFramework.Select
