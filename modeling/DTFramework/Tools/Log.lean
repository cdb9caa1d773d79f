import DTFramework.Extn.Table

/-!
# The library's log

Built with `ENABLE_DTB_PROFILING`, the library logs each registration of a blob
and each lookup of a node. Modelled are the texts of its messages, and the log
of a sequence of calls that succeed.

How a target renders numbers is a parameter (`Printf`); so are the counters and
times of the profile, which come with the calls. On XBL and Q6 a message goes
through a buffer of 256 bytes.

Results:

* `mem_printAllDtbNodes`: what is logged below a node are the nodes visited below it.
-/
namespace DTFramework.Tools

open DTFramework.Fdt DTFramework.Extn

inductive Target
  | uefi
  | xbl
  | q6
deriving DecidableEq, Repr

abbrev dtb_log_buffer_size : Nat := 256

/-- The bytes of a format. -/
def bytes (s : String) : Str := s.toList.map fun c => UInt8.ofNat c.toNat

/-- The rendering of a number of 64 bits: visible characters, no brackets. -/
def Numeral (s : Str) : Prop :=
  s ≠ [] ∧ s.length ≤ 20 ∧ ∀ b ∈ s, 33 ≤ b.toNat ∧ b.toNat < 127 ∧ b.toNat ≠ 91 ∧ b.toNat ≠ 93

/-- What a target renders for `%p`, `%d`, `%016x` and `%llu`. -/
structure Printf where
  p : Nat → Str
  d : Int → Str
  x : Nat → Str
  u : Nat → Str
  numeral : (∀ n, Numeral (p n)) ∧ (∀ n, Numeral (d n)) ∧ (∀ n, Numeral (x n)) ∧ ∀ n, Numeral (u n)

/-- mirrors libs/DTBExtnLib/DTBExtnLib_env.h:33-49 -/
def dtbLog : Target → Str → Str
  | .uefi, text => text
  | .xbl, text | .q6, text => text.take (dtb_log_buffer_size - 1)

/-! ## Messages -/

section
variable (pf : Printf)

def startMessage (blob : Nat) : Str := bytes "start creat dtb hash table..blob address[" ++ pf.p blob ++ bytes "]\n"

def existMessage : Str := bytes "current dtb hash table already exist, will disable dtb hash table feture\n"

def endMessage (time : Nat) (total_node : Int) : Str :=
  bytes "end create dtb hash table..creat hash table cost time:[" ++ pf.u time ++ bytes "]..total node:[" ++
    pf.d total_node ++ bytes "]\n"

/-- The message for a node when its parent is printed. -/
def subnodeMessage (fullname : Str) (offset : Int) : Str :=
  bytes "found dtb node:[" ++ fullname ++ bytes "]..hash value[" ++ pf.x (Hash fullname).toNat ++
    bytes "]..node offset[" ++ pf.x (u32 offset) ++ bytes "]\n"

/-- The message for a node when it is printed itself. -/
def nodeMessage (name : Str) : Str := bytes "found dtb node:[" ++ name ++ bytes "]\n"

/-- `total_used_node`, `total_access_node` and `total_access_node_time`. -/
structure Counters where
  used : Int
  access : Int
  time : Int

/-- What follows the name, and the count of used nodes, in the message of a lookup. -/
def lookupTail (c : Counters) (blob : Nat) (offset : Str) : Str :=
  bytes "]..access_node[" ++ pf.d c.access ++ bytes "]..total_access_time[" ++ pf.d c.time ++
    bytes "]..blob address[" ++ pf.p blob ++ bytes "]..node offset[" ++ offset ++ bytes "]\n"

def hashTableMessage (name : Str) (c : Counters) (blob : Nat) (offset : Int) : Str :=
  bytes "lookup in dtb hash table: current_node[" ++ name ++ bytes "]..used_node[" ++ pf.d c.used ++
    lookupTail pf c blob (pf.x (u32 offset))

def parentTableMessage (name : Str) (c : Counters) (blob : Nat) (offset : Int) : Str :=
  bytes "lookup in parent hash table: current_node[" ++ name ++ bytes "]..used_node[" ++ pf.d c.used ++
    lookupTail pf c blob (pf.x (u32 offset))

def blobMessage (name : Str) (c : Counters) (blob : Nat) (offset : Int) : Str :=
  bytes "lookup in dtb blob: current_node[" ++ name ++ lookupTail pf c blob (pf.x (u32 offset))

def phandleMessage (name : Str) (c : Counters) (blob : Nat) (offset : Int) : Str :=
  bytes "lookup in dtb blob form phandle:...current_node[" ++ name ++ lookupTail pf c blob (pf.d offset)

/-- There is no line end in it. -/
def costMessage (time : Int) : Str := bytes "fdt_get_cache_of_subnodes cost time[" ++ pf.d time ++ bytes "]"

def parentMessage (name : Str) (access : Int) (blob : Nat) : Str :=
  bytes "lookup in dtb blob form parent: current_node[" ++ name ++ bytes "]..access_node[" ++ pf.d access ++
    bytes "]..blob address[" ++ pf.p blob ++ bytes "]\n"

/-! ## Calls -/

/-- The messages of `print_all_dtb_nodes` for the subnodes of a node, from one of
them on.
mirrors libs/DTBExtnLib/DTBExtnLib_node.c:1969-2022 -/
def printAllDtbNodes (f : Blob) (name : Str) (sub_node_offset : Int) : List Str :=
  if _h : sub_node_offset < 0 then []
  else
    let fullname := fullName name (subName f sub_node_offset)
    subnodeMessage pf fullname sub_node_offset :: ((if fullname ≠ ROOT then [nodeMessage fullname] else []) ++
      (printAllDtbNodes f fullname (firstSubnode f sub_node_offset) ++
        printAllDtbNodes f name (nextSubnode f sub_node_offset)))
termination_by subRoom sub_node_offset
decreasing_by
  · exact firstSubnode_room (Int.not_lt.mp _h)
  · exact nextSubnode_room (Int.not_lt.mp _h)

/-- The nodes that are entered into the table, and printed. -/
def treeOf (f : Blob) : List Visit := pathVisits f ROOT 0 (firstSubnode f 0)

/-- What is printed below a node are the nodes that are visited below it. -/
theorem mem_printAllDtbNodes (f : Blob) (name : Str) (depth : Nat) (sub : Int) (m : Str) :
    m ∈ printAllDtbNodes pf f name sub ↔
    ∃ v ∈ pathVisits f name depth sub, m = subnodeMessage pf v.fullname v.offset ∨
      v.fullname ≠ ROOT ∧ m = nodeMessage v.fullname := by
  fun_induction printAllDtbNodes pf f name sub generalizing depth with
  | case1 name sub h =>
    rw [pathVisits, dif_pos h]
    simp
  | case2 name sub h fullname ih1 ih2 =>
    have hvisits : pathVisits f name depth sub = ⟨sub, depth + 1, fullname⟩ ::
        (pathVisits f fullname (depth + 1) (firstSubnode f sub) ++ pathVisits f name depth (nextSubnode f sub)) := by
      rw [pathVisits, dif_neg h]
    clear_value fullname
    rw [hvisits, List.mem_cons, List.mem_append, List.mem_append, ih1 (depth + 1), ih2 depth]
    simp only [List.mem_cons, List.mem_append, or_and_right, exists_or]
    by_cases hroot : fullname = ROOT
    · simp [hroot]
    · simp [hroot, or_assoc]

/-- mirrors libs/DTBExtnLib/DTBExtnLib_node.c:2036-2086 -/
def creatDtbHashTableLog (e : LibEnv) (blob time : Nat) (s : LibState) : List Str :=
  if !e.ENABLE_HASH_FOR_DTB then []
  else startMessage pf blob ::
    if isMergeDtb s blob then [existMessage]
    else printAllDtbNodes pf (blobAt e.m blob) ROOT (firstSubnode (blobAt e.m blob) 0) ++
      [endMessage pf time ((treeOf (blobAt e.m blob)).length + 1 : Nat)]

/-- The message of a lookup that asks libfdt. -/
def pathLog (e : LibEnv) (blob : Nat) (name : Str) (c : Counters) : List Str :=
  let offset := pathOffset (blobAt e.m blob) name
  if 0 ≤ offset then [blobMessage pf name c blob offset] else []

/-- mirrors libs/DTBExtnLib/DTBExtnLib_node.c:794-887, for a blob that is not null -/
def tableLog (e : LibEnv) (blob : Nat) (name : Str) (c : Counters) (s : LibState) : Except HashFault (List Str) := do
  match ← findNode s name blob with
  | some p => return [hashTableMessage pf name c blob p.node.offset]
  | none =>
    let (dir, s) ← splitName name s
    match ← findNode s dir blob with
    | none => return pathLog pf e blob name c
    | some p =>
      let subnode_offset := subnodeOffset (blobAt e.m p.node.blob) p.node.offset s.basename
      if 0 < subnode_offset then return [parentTableMessage pf name c blob subnode_offset]
      else if 0 ≤ subnode_offset then return []
      else return pathLog pf e blob name c

/-- The messages of `fdt_get_node_handle`. -/
def nodeHandleLog (e : LibEnv) (blob : Nat) (name : Str) (c : Counters) (s : LibState) : List Str :=
  match if blob = 0 then getBlobHandle e.d s e.d.DEFAULT_BLOB_ID else (FDT_ERR_QC_NOERROR, some blob) with
  | (_, none) => []
  | (_, some blob) =>
    if e.ENABLE_HASH_FOR_DTB then (tableLog pf e blob name c s).toOption.getD [] else pathLog pf e blob name c

/-- A call that is logged, with what the profile counts. -/
inductive Call
  | register (blob bsize : Nat) (blob_id : Int) (boot : Counters) (time : Nat)
  | node (blob : Nat) (name : Str) (c : Counters)
  /-- From the node at `offset`; `name` is the path of the node that is found. -/
  | phandle (blob : Nat) (offset : Int) (phandle : Nat) (name : Str) (c : Counters)
  /-- The paths of the subnodes that are found, each with the count. -/
  | subnodes (blob : Nat) (time : Int) (found : List (Str × Int))

/-- The status of a call, and the state after it. -/
def Call.run (e : LibEnv) (s : LibState) : Call → Except HashFault (Int × LibState)
  | .register blob bsize blob_id _ _ => setBlobHandle e blob bsize blob_id s
  | .node blob name _ => do
    let (ret_value, _, s) ← getNodeHandle e blob name s
    return (ret_value, s)
  | .phandle blob _ value _ _ => .ok ((getPhandleNode e s blob value).1, s)
  | .subnodes .. => .ok (FDT_ERR_QC_NOERROR, s)

/-- The messages of lookups. A registration looks a node up before it makes the
table. -/
def Call.lookups (e : LibEnv) (s : LibState) : Call → List Str
  | .register blob bsize _ boot _ =>
    if checkForValidBlob e.d e.m blob bsize = FDT_ERR_QC_NOERROR then nodeHandleLog pf e blob SW_BOOT boot s else []
  | .node blob name c => nodeHandleLog pf e blob name c s
  | .phandle blob offset _ name c => [phandleMessage pf name c blob offset]
  | .subnodes blob time found => costMessage pf time :: found.map fun x => parentMessage pf x.1 x.2 blob

/-- The messages of a call that succeeds. -/
def Call.log (e : LibEnv) (s : LibState) : Call → List Str
  | .register blob bsize blob_id boot time =>
    (Call.register blob bsize blob_id boot time).lookups pf e s ++ creatDtbHashTableLog pf e blob time s
  | c => c.lookups pf e s

/-- The log of calls one after another, if all succeed. -/
def logOf (target : Target) (e : LibEnv) : List Call → LibState → Option Str
  | [], _ => some []
  | c :: calls, s =>
    match c.run e s with
    | .ok (ret_value, s') =>
      if ret_value = FDT_ERR_QC_NOERROR then
        (logOf target e calls s').map fun log => (c.log pf e s).flatMap (dtbLog target) ++ log
      else none
    | .error _ => none

end

/-- The blobs that are registered, in the order of the calls. -/
def registrations (calls : List Call) : List Nat :=
  calls.filterMap fun
    | .register blob _ _ _ _ => some blob
    | _ => none

end DTFramework.Tools
