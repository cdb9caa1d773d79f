import DTFramework.Select.Candidate

/-!
# Choosing among the candidates

The three selectors: an accepted base tree is taken when it is the first of
version 1.0, an accepted overlay when it ranks above the best one so far. A
rank counts which of the overlay's identities are set (a set one equals the
device's); versions break ties, and an exact tie keeps the earlier blob.
-/
namespace DTFramework.Select

open DTFramework.Fdt DTFramework.Extn DTFramework.Lib

/-- mirrors libs/DTSelectLib/dt_select.c:1951-1980 -/
def validateAndSelectBaseDtb (h : HandleData) (e : HandleEntry) : Int × HandleEntry :=
  let e := INVALID_CANDIDATE e
  if h.base_dtb_ptr = 0 ∧ e.chipinfo.id = 0 ∧ e.chipinfo.major = 1 ∧ e.chipinfo.minor = 0 then
    (SUCCESS, VALID_CANDIDATE e)
  else (SUCCESS, e)

/-- mirrors libs/DTSelectLib/dt_select.c:1995-2087 -/
def validateAndSelectSocDtbo (inp : HandleInput) (soc : SelectedDtbo) (e : HandleEntry) : Int × HandleEntry :=
  let e := INVALID_CANDIDATE e
  if e.chipinfo.id ≠ 0 ∧ e.chipinfo.id ≠ inp.prop.chip_id then (SUCCESS, e)
  else
    let e := { e with rank := if e.chipinfo.id ≠ 0 then 1 else 0 }
    let e := { e with chipinfo_version_calc := chipVersion e.chipinfo.major e.chipinfo.minor }
    if e.chipinfo_version_calc > inp.chipinfo_version_calc then (SUCCESS, e)
    else if soc.rank > e.rank then (SUCCESS, e)
    else if soc.rank = e.rank then
      if e.chipinfo_version_calc > soc.chipinfo_version_calc then (SUCCESS, VALID_CANDIDATE e)
      else (SUCCESS, e)
    else (SUCCESS, VALID_CANDIDATE e)

/-- mirrors libs/DTSelectLib/dt_select.c:2098-2175 -/
def validateOemVariant (env : Env) (inp : HandleInput) (e : HandleEntry) : Prog (Int × HandleEntry) := do
  let f := e.fdt env
  let e := INVALID_CANDIDATE e
  let prop := getPropSize env.defs f e.node.offset OEM_VAR_PROP_NAME 0
  let size := prop.2
  if prop.1 ≠ FDT_ERR_QC_NOERROR ∨ size = 0 then
    if prop.1 = -FDT_ERR_NOTFOUND then return (SUCCESS, VALID_CANDIDATE e)
    else return (SUCCESS, e)
  else if size % SINGLE_OEM_VARIANT_ELEMENT_SIZE_BYTES ≠ 0 then return (SUCCESS, e)
  else do
    let ptr ← malloc env (.oemVar e.node.blob) size
    if ptr = 0 then return (MALLOC_FAIL, e)
    else do
      let (status, values) ← ofExcept (getUint32PropList env.defs f e.node.offset OEM_VAR_PROP_NAME size)
      free ptr size
      if status ≠ FDT_ERR_QC_NOERROR then return (SUCCESS, e)
      else if (values.take (size / SINGLE_OEM_VARIANT_ELEMENT_SIZE_BYTES)).contains inp.prop.oem_var then
        return (SUCCESS, VALID_CANDIDATE e)
      else return (SUCCESS, e)

/-- mirrors libs/DTSelectLib/dt_select.c:2327-2407 -/
def platformDtboVersionCheck (inp : HandleInput) (plat : SelectedDtbo) (e : HandleEntry) : Int × HandleEntry :=
  let e := INVALID_CANDIDATE e
  if e.platforminfo_version_calc > inp.platforminfo_version_calc ∨
      e.chipinfo_version_calc > inp.chipinfo_version_calc then (SUCCESS, e)
  else if plat.rank > e.rank then (SUCCESS, e)
  else if plat.rank = e.rank then
    if e.platforminfo_version_calc > plat.platforminfo_version_calc then (SUCCESS, VALID_CANDIDATE e)
    else if e.platforminfo_version_calc = plat.platforminfo_version_calc then
      if e.chipinfo_version_calc > plat.chipinfo_version_calc then (SUCCESS, VALID_CANDIDATE e)
      else (SUCCESS, e)
    else (SUCCESS, e)
  else (SUCCESS, VALID_CANDIDATE e)

/-- The rank of a platform overlay, from its subtype and chip id.
mirrors libs/DTSelectLib/dt_select.c:2272-2287 -/
def platformRank (subtype id : Nat) : Int :=
  if subtype ≠ 0 ∧ id ≠ 0 then 3
  else if subtype ≠ 0 ∧ id = 0 then 2
  else if subtype = 0 ∧ id ≠ 0 then 1
  else 0

/-- `_validate_and_select_platform_dtbo` once the type and the OEM variant fit. -/
def rankPlatformDtbo (inp : HandleInput) (plat : SelectedDtbo) (e : HandleEntry) : Int × HandleEntry :=
  let e := INVALID_CANDIDATE e
  if e.platforminfo.subtype ≠ 0 ∧ e.platforminfo.subtype ≠ inp.prop.platform_subtype then (SUCCESS, e)
  else if e.chipinfo.id ≠ 0 ∧ e.chipinfo.id ≠ inp.prop.chip_id then (SUCCESS, e)
  else
    let e := { e with rank := platformRank e.platforminfo.subtype e.chipinfo.id }
    let e := { e with
      chipinfo_version_calc := chipVersion e.chipinfo.major e.chipinfo.minor
      platforminfo_version_calc := platVersion e.platforminfo.major e.platforminfo.minor }
    let (status, e) := platformDtboVersionCheck inp plat e
    if status ≠ SUCCESS then (FAIL, e) else (SUCCESS, e)

/-- mirrors libs/DTSelectLib/dt_select.c:2191-2317; every error becomes `FAIL`. -/
def validateAndSelectPlatformDtbo (env : Env) (inp : HandleInput) (plat : SelectedDtbo) (e : HandleEntry) :
    Prog (Int × HandleEntry) := do
  let e := INVALID_CANDIDATE e
  if e.platforminfo.type ≠ inp.prop.platform_type then return (SUCCESS, e)
  else do
    let (status, e) ← validateOemVariant env inp e
    if status ≠ SUCCESS then return (FAIL, e)
    else if !e.candidacy_status then return (SUCCESS, e)
    else return rankPlatformDtbo inp plat e

end DTFramework.Select
