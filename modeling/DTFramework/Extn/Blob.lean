import DTFramework.Extn.Prop

/-!
# Validating a blob

The sanity check DTBExtnLib makes before a blob is registered, and the size of
a blob. Both read the header only.
-/
namespace DTFramework.Extn

open DTFramework.Fdt

/-- mirrors libs/DTBExtnLib/DTBExtnLib_blob.c:48-117. The sums of fields are
`uint32_t`. -/
def checkForValidBlob (d : DTBDefs) (m : Mem) (blob bsize : Nat) : Int :=
  let f := blobAt m blob
  if blob = 0 then -d.FDT_ERR_QC_NULLPTR
  else if bsize < FDT_V17_SIZE then -FDT_ERR_NOSPACE
  else if checkHeader f ≠ FDT_ERR_QC_NOERROR then -FDT_ERR_BADMAGIC
  else if bsize < totalsize f then -FDT_ERR_NOSPACE
  else if bsize < offDtStruct f then -FDT_ERR_NOSPACE
  else if bsize < offDtStrings f then -FDT_ERR_NOSPACE
  else if bsize < offMemRsvmap f then -FDT_ERR_NOSPACE
  else if bsize < (offDtStrings f + sizeDtStrings f) % 0x100000000 then -FDT_ERR_NOSPACE
  else if bsize < (offDtStruct f + sizeDtStruct f) % 0x100000000 then -FDT_ERR_NOSPACE
  else FDT_ERR_QC_NOERROR

/-- mirrors libs/DTBExtnLib/DTBExtnLib_blob.c:235-262: the status and `*size`. -/
def getBlobSize (d : DTBDefs) (m : Mem) (node : NodeHandle) : Int × Nat :=
  if node.blob = 0 then (-d.FDT_ERR_QC_NULLPTR, 0)
  else (FDT_ERR_QC_NOERROR, totalsize (blobAt m node.blob))

end DTFramework.Extn
