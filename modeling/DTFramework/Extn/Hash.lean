import DTFramework.Extn.Blob
import DTFramework.Fdt.Scan

/-!
# Registered blobs, and the hash table of their nodes

`fdt_set_blob_handle` registers a blob under an id. Built with
`ENABLE_HASH_FOR_DTB`, it also enters every node of the blob into a table: a
list of blobs for each of ten levels, and under each blob a list of nodes with
the hash of their full path. `fdt_get_node_handle` looks a path up in the table,
then the directory of the path, and asks libfdt last. A second cache holds the
offsets of the nodes by phandle.

The lists of the C code are lists here, newest first. `LibState` is the static
state of the library; `dtb_config`, which only turns messages on, and
`parent_path`, which every lookup fills before it reads it, are not in it.
Pointers a caller passes for a result are not null.

What `setBlobHandle`, `getNodeHandle` and the lookup by phandle do is said in
`Extn.Register`, `Extn.Bounds`, `Extn.Table`, `Extn.Lookup` and `Extn.Phandles`.
-/
namespace DTFramework.Extn

open DTFramework.Fdt

abbrev hash_table_level : Nat := 10
abbrev MAX_PHANDLE_CACHE_SIZE : Int := 1000
/-- The sizes of `parent_path`, `basename` and `fullname`. -/
abbrev PATH_SIZE : Nat := 256

/-- Where a call leaves the memory it may use. -/
inductive HashFault
  /-- An index beyond `phead_hash_node_table`. -/
  | tableIndex
  /-- A write beyond `parent_path` or `basename`. -/
  | pathBuffer
  /-- The array of a phandle cache is cleared with a size that has wrapped. -/
  | cacheArray
  | nullDeref
deriving DecidableEq, Repr

structure HashNode where
  node : NodeHandle
  node_name_hash_value : UInt64
deriving DecidableEq, Repr

structure BlobListNode where
  blob : Nat
  hash_node : List HashNode
deriving DecidableEq, Repr

/-- `phandle_to_node_cache`; `size` is the length of the array. -/
structure PhandleCache where
  blob : Nat
  array : List Nat
deriving DecidableEq, Repr

/-- The static variables of `DTBExtnLib_blob.c` and `DTBExtnLib_node.c`, and how
many times memory was asked for. -/
structure LibState where
  dtb_blob : Int → Nat
  phead_hash_node_table : Fin hash_table_level → List BlobListNode
  phandle_cache : List PhandleCache
  basename : Str
  mallocs : Nat

/-- The state before the first call. -/
def LibState.init : LibState := ⟨fun _ => 0, fun _ => [], [], [], 0⟩

/-- The build, the memory the blobs are in, and which calls of `__dtb_malloc`
fail. -/
structure LibEnv where
  d : DTBDefs
  ENABLE_HASH_FOR_DTB : Bool
  m : Mem
  malloc_fails : Nat → Bool

theorem except_bind_ok {ε α β : Type} {x : Except ε α} {f : α → Except ε β} {r : β} (h : x >>= f = .ok r) :
    ∃ a, x = .ok a ∧ f a = .ok r := by
  cases x with
  | error e => cases h
  | ok a => exact ⟨a, rfl, h⟩

/-! ## Paths -/

/-- mirrors libs/DTBExtnLib/DTBExtnLib_node.c:370-385 -/
def pathDepth (path : Str) : Nat := path.count SLASH

/-- DJB2. mirrors libs/DTBExtnLib/DTBExtnLib_node.c:425-439 -/
def Hash (str : Str) : UInt64 := str.foldl (fun hash c => (hash <<< 5) + hash + c.toUInt64) 5381

/-- The parts of a path before and after its last slash (`strr_chr`). -/
def splitLast : Str → Option (Str × Str)
  | [] => none
  | c :: s =>
    match splitLast s with
    | some (a, b) => some (c :: a, b)
    | none => if c = SLASH then some ([], s) else none

theorem splitLast_eq {p a b : Str} (h : splitLast p = some (a, b)) : p = a ++ SLASH :: b ∧ SLASH ∉ b := by
  induction p generalizing a b with
  | nil => cases h
  | cons c s ih =>
    unfold splitLast at h
    split at h
    · rename_i a' b' hs
      cases h
      obtain ⟨h1, h2⟩ := ih hs
      exact ⟨by rw [h1]; rfl, h2⟩
    · rename_i hs
      split at h
      · rename_i hc
        cases h
        refine ⟨by rw [hc]; rfl, fun hmem => ?_⟩
        exact splitLast_ne_none hmem hs
      · cases h
where
  splitLast_ne_none {s : Str} (hmem : SLASH ∈ s) : splitLast s ≠ none := by
    induction s with
    | nil => cases hmem
    | cons c s ih =>
      unfold splitLast
      split
      · simp
      · rename_i hs
        rcases List.mem_cons.mp hmem with rfl | hmem
        · simp
        · exact absurd hs (ih hmem)

/-- The directory of a path, and what is written to `basename`.
mirrors libs/DTBExtnLib/DTBExtnLib_node.c:519-560 -/
def dirname (path : Str) : Str × Option Str :=
  match _h : splitLast path with
  | none => ([46], none)
  | some (dir, base) =>
    if dir = [] then ([SLASH], if base = [] then none else some base)
    else if dir = [SLASH] then ([SLASH], some base)
    else if base = [] then dirname dir
    else (dir, some base)
termination_by path.length
decreasing_by
  rw [(splitLast_eq _h).1]
  simp

/-! ## The table -/

/-- The node under a blob with a hash value. -/
def lookup (list : List BlobListNode) (blob : Nat) (hash : UInt64) : Option HashNode :=
  match list.find? (fun b => b.blob = blob) with
  | none => none
  | some b => b.hash_node.find? (fun n => n.node_name_hash_value = hash)

/-- mirrors libs/DTBExtnLib/DTBExtnLib_node.c:449-497 -/
def findNode (s : LibState) (name : Str) (blob : Nat) : Except HashFault (Option HashNode) :=
  if h : pathDepth name < hash_table_level then
    .ok (lookup (s.phead_hash_node_table ⟨pathDepth name, h⟩) blob (Hash name))
  else .error .tableIndex

/-- A node goes to the head of its blob's list; without such a list it is dropped. -/
def insertUnder (p : HashNode) : List BlobListNode → List BlobListNode
  | [] => []
  | b :: l => if p.node.blob = b.blob then { b with hash_node := p :: b.hash_node } :: l else b :: insertUnder p l

/-- The state with another list on a level. -/
def LibState.setLevel (s : LibState) (level : Fin hash_table_level) (list : List BlobListNode) : LibState :=
  { s with phead_hash_node_table := Function.update s.phead_hash_node_table level list }

/-- mirrors libs/DTBExtnLib/DTBExtnLib_node.c:566-585 -/
def addHashNode (s : LibState) (p : HashNode) (level : Nat) : Except HashFault LibState :=
  if h : level < hash_table_level then
    .ok (s.setLevel ⟨level, h⟩ (insertUnder p (s.phead_hash_node_table ⟨level, h⟩)))
  else .error .tableIndex

/-- `__dtb_malloc`: whether it fails, and the state after it. -/
def dtbMalloc (e : LibEnv) (s : LibState) : Bool × LibState :=
  (e.malloc_fails s.mallocs, { s with mallocs := s.mallocs + 1 })

/-- mirrors libs/DTBExtnLib/DTBExtnLib_node.c:1762-1796 -/
def addHash (e : LibEnv) (node_offset : Int) (blob : Nat) (full_name : Str) (node_depth : Nat) (s : LibState) :
    Except HashFault (Option HashNode × LibState) :=
  if node_offset < 0 ∨ blob = 0 then .ok (none, s)
  else if (dtbMalloc e s).1 then .ok (none, (dtbMalloc e s).2)
  else do
    let s ← addHashNode (dtbMalloc e s).2 ⟨⟨blob, node_offset⟩, Hash full_name⟩ node_depth
    return (some ⟨⟨blob, node_offset⟩, Hash full_name⟩, s)

/-- The loop of `init_root`: an empty list for the blob on every level from `i` on. -/
def initLevels (e : LibEnv) (blob i : Nat) (s : LibState) : Bool × LibState :=
  if h : i < hash_table_level then
    if (dtbMalloc e s).1 then (false, (dtbMalloc e s).2)
    else initLevels e blob (i + 1) ((dtbMalloc e s).2.setLevel ⟨i, h⟩ (⟨blob, []⟩ :: s.phead_hash_node_table ⟨i, h⟩))
  else (true, s)
termination_by hash_table_level - i

/-- mirrors libs/DTBExtnLib/DTBExtnLib_node.c:1806-1857 -/
def initRoot (e : LibEnv) (blob : Nat) (root_name : Str) (s : LibState) :
    Except HashFault (Option HashNode × LibState) :=
  let offset := pathOffset (blobAt e.m blob) root_name
  let lists := initLevels e blob 0 s
  if !lists.1 then .ok (none, lists.2)
  else if 0 ≤ offset ∧ root_name.head? = some SLASH then
    if (dtbMalloc e lists.2).1 then .ok (none, (dtbMalloc e lists.2).2)
    else do
      let s ← addHashNode (dtbMalloc e lists.2).2 ⟨⟨blob, offset⟩, Hash root_name⟩ 1
      return (some ⟨⟨blob, offset⟩, Hash root_name⟩, s)
  else .ok (none, lists.2)

/-! ## Building it -/

/-- The phandle of a node goes to the array of the newest cache. -/
def fillPhandle (s : LibState) (phandle_value sub_node_offset : Int) : Except HashFault LibState :=
  if 0 < phandle_value then
    match s.phandle_cache with
    | [] => .error .nullDeref
    | c :: l =>
      if phandle_value < c.array.length then
        .ok { s with phandle_cache := { c with array := c.array.set phandle_value.toNat (u32 sub_node_offset) } :: l }
      else .ok s
  else .ok s

/-- `snprintf` of the path of a subnode into `fullname`. -/
def fullName (name subname : Str) : Str :=
  (if name ≠ [SLASH] then name ++ SLASH :: subname else name ++ subname).take (PATH_SIZE - 1)

/-- "<null string>", which is what `AsciiSPrint` writes for a null pointer. -/
abbrev NULL_STRING : Str := [60, 110, 117, 108, 108, 32, 115, 116, 114, 105, 110, 103, 62]

/-- The name of a node as it is printed; for a tree of a version before 16 libfdt
may have none. -/
def subName (f : Blob) (offset : Int) : Str := (getName f offset).toOption.getD NULL_STRING

/-- One turn of the loop of `Recursive_find_subnode`, down to the recursive call. -/
def enterNode (e : LibEnv) (blob : Nat) (sub_node_offset : Int) (depth : Nat) (fullname : Str) (s : LibState) :
    Except HashFault (Bool × LibState) := do
  let s ← fillPhandle s (int32 (getPhandle (blobAt e.m blob) sub_node_offset)) sub_node_offset
  let (p, s) ← addHash e sub_node_offset blob fullname depth s
  return (p.isSome, s)

/-- The loop of `Recursive_find_subnode` over the subnodes of a node, from one of
them on, with what is done to a node and the code for a node that is not made. -/
def visitSubnodes {σ ε : Type} (f : Blob) (enter : Int → Nat → Str → σ → Except ε (Bool × σ)) (code : Int) (name : Str)
    (depth : Nat) (sub_node_offset : Int) (s : σ) : Except ε (Int × σ) :=
  if _h : sub_node_offset < 0 then .ok (FDT_ERR_QC_NOERROR, s)
  else
    let fullname := fullName name (subName f sub_node_offset)
    match enter sub_node_offset (depth + 1) fullname s with
    | .error fault => .error fault
    | .ok (false, s) => .ok (code, s)
    | .ok (true, s) =>
      match visitSubnodes f enter code fullname (depth + 1) (firstSubnode f sub_node_offset) s with
      | .error fault => .error fault
      | .ok (ret_value, s) =>
        if ret_value ≠ FDT_ERR_QC_NOERROR then .ok (ret_value, s)
        else visitSubnodes f enter code name depth (nextSubnode f sub_node_offset) s
termination_by subRoom sub_node_offset
decreasing_by
  · exact firstSubnode_room (Int.not_lt.mp _h)
  · exact nextSubnode_room (Int.not_lt.mp _h)

/-- mirrors libs/DTBExtnLib/DTBExtnLib_node.c:1900-1954 -/
def recursiveFindSubnode (e : LibEnv) (blob : Nat) (name : Str) (depth : Nat) (sub_node_offset : Int) (s : LibState) :
    Except HashFault (Int × LibState) :=
  visitSubnodes (blobAt e.m blob) (enterNode e blob) e.d.FDT_ERR_QC_MEMALLOC name depth sub_node_offset s

/-- `Recursive_find_subnode` for a tree that is not in the table yet.
mirrors libs/DTBExtnLib/DTBExtnLib_node.c:1885-1899 -/
def recursiveFindRoot (e : LibEnv) (blob : Nat) (name : Str) (s : LibState) : Except HashFault (Int × LibState) :=
  if name.head? ≠ some SLASH then .ok (e.d.FDT_ERR_QC_INPUT_ARG_ERR, s)
  else do
    let (root, s) ← initRoot e blob name s
    match root with
    | none => return (e.d.FDT_ERR_QC_MEMALLOC, s)
    | some root => recursiveFindSubnode e blob name 0 (firstSubnode (blobAt e.m blob) root.node.offset) s

/-- mirrors libs/libfdt/libfdt.h:398-408 (`fdt_get_max_phandle`) -/
def getMaxPhandle (f : Blob) : Nat :=
  match findMaxPhandle f with
  | .error _ => 0xffffffff
  | .ok phandle => phandle

/-- `max_phandle`, limited. -/
def maxPhandle (f : Blob) : Int := min (int32 (getMaxPhandle f)) MAX_PHANDLE_CACHE_SIZE

/-- mirrors libs/DTBExtnLib/DTBExtnLib_node.c:593-655: the status and the state.
The sizes are `size_t`: a negative `max_phandle + 1` clears almost all memory. -/
def allocPhandleToNodeCacheSpace (e : LibEnv) (blob : Nat) (s : LibState) : Except HashFault (Int × LibState) :=
  let max_phandle := maxPhandle (blobAt e.m blob)
  if s.phandle_cache.any (fun c => c.blob = blob) then .ok (0, s)
  else if max_phandle = 0 then .ok (0, s)
  else if (dtbMalloc e s).1 then .ok (-1, (dtbMalloc e s).2)
  else
    let s := (dtbMalloc e s).2
    if (dtbMalloc e s).1 then .ok (-1, (dtbMalloc e s).2)
    else if max_phandle + 1 < 0 then .error .cacheArray
    else .ok (0, { (dtbMalloc e s).2 with
      phandle_cache := ⟨blob, List.replicate (max_phandle + 1).toNat 0⟩ :: s.phandle_cache })

/-- mirrors libs/DTBExtnLib/DTBExtnLib_node.c:739-760 -/
def isMergeDtb (s : LibState) (blob : Nat) : Bool :=
  decide (∃ i, ∃ b ∈ s.phead_hash_node_table i, b.blob = blob)

/-- `free_hash_tables` and `free_phandle_to_node_cache`.
mirrors libs/DTBExtnLib/DTBExtnLib_node.c:661-731 -/
def LibState.freeTables (s : LibState) : LibState :=
  { s with phead_hash_node_table := fun _ => [], phandle_cache := [] }

/-- "/" -/
abbrev ROOT : Str := [SLASH]

/-- mirrors libs/DTBExtnLib/DTBExtnLib_node.c:2036-2086 -/
def creatDtbHashTable (e : LibEnv) (blob : Nat) (s : LibState) : Except HashFault (Int × LibState) :=
  if !e.ENABLE_HASH_FOR_DTB then .ok (FDT_ERR_QC_NOERROR, s)
  else if isMergeDtb s blob then .ok (FDT_ERR_QC_NOERROR, s.freeTables)
  else do
    let (ret_value, s) ← allocPhandleToNodeCacheSpace e blob s
    if ret_value ≠ 0 then return (-1, s) else recursiveFindRoot e blob ROOT s

/-! ## The interface -/

/-- mirrors libs/DTBExtnLib/DTBExtnLib_blob.c:193-225: the status, and `*blob`
when it was written. -/
def getBlobHandle (d : DTBDefs) (s : LibState) (blob_id : Int) : Int × Option Nat :=
  if blob_id < 0 ∨ (d.MAX_BLOB_ID : Int) ≤ blob_id then (-d.FDT_ERR_QC_BLOBID, none)
  else if s.dtb_blob blob_id = 0 then (-d.FDT_ERR_QC_NULLPTR, none)
  else (FDT_ERR_QC_NOERROR, some (s.dtb_blob blob_id))

/-- What `fdt_get_node_handle` answers: the status, the node on success, and the
state. -/
abbrev NodeAnswer := Int × Option NodeHandle × LibState

/-- The way without the table. -/
def pathAnswer (e : LibEnv) (blob : Nat) (name : Str) (s : LibState) : NodeAnswer :=
  let offset := pathOffset (blobAt e.m blob) name
  if 0 ≤ offset then (FDT_ERR_QC_NOERROR, some ⟨blob, offset⟩, s) else (offset, none, s)

/-- `parent_path` and `basename` filled with the parts of a name. -/
def splitName (name : Str) (s : LibState) : Except HashFault (Str × LibState) :=
  if PATH_SIZE ≤ name.length then .error .pathBuffer
  else match dirname name with
  | (dir, none) => .ok (dir, s)
  | (dir, some base) => if PATH_SIZE ≤ base.length then .error .pathBuffer else .ok (dir, { s with basename := base })

/-- The way through the table, for a blob that is not null. -/
def tableAnswer (e : LibEnv) (blob : Nat) (name : Str) (s : LibState) : Except HashFault NodeAnswer := do
  match ← findNode s name blob with
  | some p => return (FDT_ERR_QC_NOERROR, some p.node, s)
  | none =>
    let (dir, s) ← splitName name s
    match ← findNode s dir blob with
    | none => return pathAnswer e blob name s
    | some p =>
      let subnode_offset := subnodeOffset (blobAt e.m p.node.blob) p.node.offset s.basename
      if 0 ≤ subnode_offset then return (FDT_ERR_QC_NOERROR, some ⟨p.node.blob, subnode_offset⟩, s)
      else return pathAnswer e blob name s

/-- mirrors libs/DTBExtnLib/DTBExtnLib_node.c:774-899 -/
def getNodeHandle (e : LibEnv) (blob : Nat) (name : Str) (s : LibState) : Except HashFault NodeAnswer :=
  match if blob = 0 then getBlobHandle e.d s e.d.DEFAULT_BLOB_ID else (FDT_ERR_QC_NOERROR, some blob) with
  | (ret_value, none) => .ok (ret_value, none, s)
  | (_, some blob) => if e.ENABLE_HASH_FOR_DTB then tableAnswer e blob name s else .ok (pathAnswer e blob name s)

/-- "/sw/boot" -/
abbrev SW_BOOT : Str := [47, 115, 119, 47, 98, 111, 111, 116]

/-- mirrors libs/DTBExtnLib/DTBExtnLib_blob.c:132-184 -/
def setBlobHandle (e : LibEnv) (blob bsize : Nat) (blob_id : Int) (s : LibState) : Except HashFault (Int × LibState) :=
  if blob = 0 then .ok (-e.d.FDT_ERR_QC_NULLPTR, s)
  else if blob_id < 0 ∨ (e.d.MAX_BLOB_ID : Int) ≤ blob_id then .ok (-e.d.FDT_ERR_QC_BLOBID, s)
  else if checkForValidBlob e.d e.m blob bsize = FDT_ERR_QC_NOERROR then do
    let (_, _, s) ← getNodeHandle e blob SW_BOOT s
    creatDtbHashTable e blob { s with dtb_blob := Function.update s.dtb_blob blob_id blob }
  else creatDtbHashTable e blob s

/-- What the cache holds for a phandle of a blob; 0 where it holds nothing. -/
def cachedOffset (s : LibState) (blob phandle : Nat) : Int :=
  match s.phandle_cache.find? (fun c => c.blob = blob && phandle < c.array.length) with
  | none => 0
  | some c => int32 (c.array.getD phandle 0)

/-- mirrors libs/DTBExtnLib/DTBExtnLib_node.c:912-984: the status, and the node
on success. -/
def getPhandleNode (e : LibEnv) (s : LibState) (blob phandle : Nat) : Int × Option NodeHandle :=
  if e.ENABLE_HASH_FOR_DTB ∧ 0 < cachedOffset s blob phandle then
    (FDT_ERR_QC_NOERROR, some ⟨blob, cachedOffset s blob phandle⟩)
  else
    let offset := nodeOffsetByPhandle (blobAt e.m blob) phandle
    if offset < 0 then (offset, none) else (FDT_ERR_QC_NOERROR, some ⟨blob, offset⟩)

end DTFramework.Extn
