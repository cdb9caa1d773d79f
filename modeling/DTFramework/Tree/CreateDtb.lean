import DTFramework.Extn.AddProp
import DTFramework.Tree.Empty

/-!
# Building a tree

A program makes a tree with `fdt_add_tree` and adds nodes and lists of values to
it, each under the path of a node. However the calls follow each other, the blob
is the tree that the calls describe (`create_session`): a call is made on the tree
as a whole, or it finds no room and leaves the tree. In a buffer that is large
enough there is room for every call.

What `fdt_add_prop_list_uX` puts in the blob the getters give back
(`list_reads`).

Results:

* `Values.add_eq`, `Addition.add_node`: a call is an edit at a node;
* `CreateCall.step`: what one call does to blob and tree;
* `create_session`: what any sequence of calls does;
* `list_reads`: a list reads back as it was before the call.
-/
namespace DTFramework.Extn

open DTFramework.Fdt DTFramework.Lib

/-! ## The calls -/

/-- mirrors libs/DTBExtnLib/DTBExtnLib_create-dtb.c:44-55: the status, the handle
and the memory after the call. -/
def addTree (d : DTBDefs) (m : Mem) (node : NodeHandle) (size : Int) : Except Fault (Int × NodeHandle × Mem) :=
  if node.blob = 0 then .ok (-d.FDT_ERR_QC_NULLPTR, node, m)
  else (createEmptyTree m node.blob size).map fun r => (r.1, { node with offset := 0 }, r.2)

/-- mirrors libs/DTBExtnLib/DTBExtnLib_create-dtb.c:68-94: the status, what is
stored at `offset`, and the memory after the call. -/
def addNode (m : Mem) (node : NodeHandle) (path : Str) : Int × Option Int × Mem :=
  if node.offset < 0 then (-FDT_ERR_BADOFFSET, none, m)
  else if SLASH ∈ path then (-FDT_ERR_BADPATH, none, m)
  else
    let r := addSubnode m node.blob node.offset path
    if 0 ≤ r.1 then (FDT_ERR_QC_NOERROR, some r.1, r.2) else (r.1, none, r.2)

/-- mirrors libs/DTBExtnLib/DTBExtnLib_create-dtb.c:108-118 -/
def addPropListU8 (m : Mem) (node : NodeHandle) (prop_name : Str) (val : List UInt8) : Int × Mem :=
  setprop m node.blob node.offset prop_name val

/-- mirrors libs/DTBExtnLib/DTBExtnLib_create-dtb.c:219-229 -/
def addPropListString (m : Mem) (node : NodeHandle) (prop_name val : Str) : Int × Mem :=
  setprop m node.blob node.offset prop_name val

/-- `fdt_setprop` on the blob at `p`, with a length that is not negative. -/
def blobEditor (p : Nat) : Editor Mem Int where
  blob m := blobAt m p
  offset _ o := o
  setprop m o prop_name val len := setprop m p o prop_name (val.take len.toNat)

/-- The lists a property is made of. -/
inductive Values
  | u8 (val : List UInt8)
  | u16 (val : List Nat)
  | u32 (val : List Nat)
  | u64 (val : List Nat)
  | string (val : Str)

/-- The call for a list: the status and the memory. -/
def Values.add (m : Mem) (node : NodeHandle) (prop_name : Str) : Values → Except Fault (Int × Mem)
  | .u8 val => .ok (addPropListU8 m node prop_name val)
  | .u16 val => (addPropListU16 (blobEditor node.blob) m node.offset prop_name val).map fun r => (r.1, r.2.1)
  | .u32 val => (addPropListU32 (blobEditor node.blob) m node.offset prop_name val).map fun r => (r.1, r.2.1)
  | .u64 val => (addPropListU64 (blobEditor node.blob) m node.offset prop_name val).map fun r => (r.1, r.2.1)
  | .string val => .ok (addPropListString m node prop_name val)

/-- What a program adds to a node. -/
inductive Addition
  | node (name : Str)
  | list (prop_name : Str) (val : Values)

def Addition.add (m : Mem) (node : NodeHandle) : Addition → Except Fault (Int × Mem)
  | .node name => .ok ((addNode m node name).1, (addNode m node name).2.2)
  | .list prop_name val => val.add m node prop_name

/-- An addition, and the path of the node it is made to. -/
structure CreateCall where
  path : Str
  what : Addition

/-- The node is looked up anew for every call, since its offset moves. -/
def CreateCall.run (c : CreateCall) (m : Mem) (p : Nat) : Except Fault (Int × Mem) :=
  if pathOffset (blobAt m p) c.path < 0 then .ok (pathOffset (blobAt m p) c.path, m)
  else c.what.add m ⟨p, pathOffset (blobAt m p) c.path⟩

/-- The statuses of the calls, and the memory after them. -/
def runCalls (m : Mem) (p : Nat) : List CreateCall → Except Fault (List Int × Mem)
  | [] => .ok ([], m)
  | c :: calls => do
    let r ← c.run m p
    let rest ← runCalls r.2 p calls
    return (r.1 :: rest.1, rest.2)

/-! ## What they do to a tree -/

/-- The bytes of a list in the blob. -/
def Values.bytes : Values → Str
  | .u8 val => val
  | .u16 val => val.flatMap fun v => (hostBytes 2 v).reverse
  | .u32 val => val.flatMap fun v => (hostBytes 4 v).reverse
  | .u64 val => val.flatMap fun v => (hostBytes 8 v).reverse
  | .string val => val

/-- The room an addition takes at most. -/
def Addition.need : Addition → Nat
  | .node name => nodeNeed name
  | .list prop_name val => propNeed prop_name val.bytes

/-- Names are C strings, and what is added fits an `int`. -/
def Addition.Ok : Addition → Prop
  | .node name => 0 ∉ name ∧ nodeNeed name ≤ INT_MAX
  | .list prop_name val => 0 ∉ prop_name ∧ prop_name.length < INT_MAX ∧ 12 + tagAlign val.bytes.length ≤ INT_MAX

instance : DecidablePred Addition.Ok
  | .node name => inferInstanceAs (Decidable (0 ∉ name ∧ nodeNeed name ≤ INT_MAX))
  | .list prop_name val =>
    inferInstanceAs (Decidable (0 ∉ prop_name ∧ prop_name.length < INT_MAX ∧ 12 + tagAlign val.bytes.length ≤ INT_MAX))

/-- The status of an addition to a node of a tree, and the tree. -/
def Addition.onNode (n : Place NodeData) : Addition → Int × Forest NodeData
  | .node name =>
    if SLASH ∈ name then (-FDT_ERR_BADPATH, n.forest)
    else if (childNamed n name).isSome then (-FDT_ERR_EXISTS, n.forest)
    else (FDT_ERR_QC_NOERROR, n.put n.label (.node ⟨name, []⟩ .nil n.subs))
  | .list prop_name val => (FDT_ERR_QC_NOERROR, n.put (n.label.setprop prop_name val.bytes) n.subs)

def CreateCall.onTree (c : CreateCall) (t : Forest NodeData) : Int × Forest NodeData :=
  (find t c.path).elim (-FDT_ERR_NOTFOUND, t) c.what.onNode

/-- The statuses of the calls, and the tree after them. -/
def runTree (t : Forest NodeData) : List CreateCall → List Int × Forest NodeData
  | [] => ([], t)
  | c :: calls => ((c.onTree t).1 :: (runTree (c.onTree t).2 calls).1, (runTree (c.onTree t).2 calls).2)

/-- Each call is made on the tree, or has no room and leaves it. -/
inductive Follows : Forest NodeData → List CreateCall → List Int → Forest NodeData → Prop
  | done (t : Forest NodeData) : Follows t [] [] t
  | made {t t' : Forest NodeData} {c : CreateCall} {calls : List CreateCall} {statuses : List Int}
      (h : Follows (c.onTree t).2 calls statuses t') : Follows t (c :: calls) ((c.onTree t).1 :: statuses) t'
  | full {t t' : Forest NodeData} {c : CreateCall} {calls : List CreateCall} {statuses : List Int}
      (h : Follows t calls statuses t') : Follows t (c :: calls) (-FDT_ERR_NOSPACE :: statuses) t'

/-! ## Bytes of a value -/

theorem hostBytes_succ (w v : Nat) : hostBytes (w + 1) v = UInt8.ofNat (v % 256) :: hostBytes w (v / 256) := by
  have hbyte : ∀ i, extractByte v (i + 1) = extractByte (v / 256) i := fun i => by
    unfold extractByte
    rw [Nat.div_div_eq_div_mul, Nat.pow_succ']
  unfold hostBytes
  rw [List.range_succ_eq_map, List.map_cons, List.map_map]
  refine congrArg₂ _ (by simp [extractByte]) (List.map_congr_left fun i _ => ?_)
  exact congrArg UInt8.ofNat (hbyte i)

/-- The host's bytes of a big-endian number are its bytes the other way round. -/
theorem hostBytes_bigEndian (l : List UInt8) : hostBytes l.length (bigEndian l.reverse) = l := by
  induction l with
  | nil => rfl
  | cons b l ih =>
    have hb : b.toNat < 256 := b.toNat_lt
    have hmod : (bigEndian l.reverse * 256 + b.toNat) % 256 = b.toNat := by omega
    have hdiv : (bigEndian l.reverse * 256 + b.toNat) / 256 = bigEndian l.reverse := by omega
    rw [List.length_cons, List.reverse_cons, bigEndian_snoc, hostBytes_succ, hmod, hdiv, ih, UInt8.ofNat_toNat]

theorem hostBytes_cpuToFdt (w v : Nat) : hostBytes w (cpuToFdt w v) = (hostBytes w v).reverse := by
  have h := hostBytes_bigEndian (hostBytes w v).reverse
  rwa [List.reverse_reverse, List.length_reverse, hostBytes_length] at h

theorem bigEndian_reverse (w v : Nat) : bigEndian (hostBytes w v).reverse = v % 256 ^ w := by
  induction w generalizing v with
  | zero => simp [hostBytes, bigEndian, Nat.mod_one]
  | succ w ih =>
    have hbyte : (UInt8.ofNat (v % 256)).toNat = v % 256 := by
      rw [UInt8.toNat_ofNat']
      exact Nat.mod_mod v 256
    rw [hostBytes_succ, List.reverse_cons, bigEndian_snoc, ih, hbyte, Nat.pow_succ', Nat.mod_mul, Nat.mul_comm,
      Nat.add_comm]

/-- Bringing a value into big-endian order twice changes nothing. -/
theorem cpuToFdt_twice {w v : Nat} (h : v < 256 ^ w) : cpuToFdt w (cpuToFdt w v) = v := by
  have hbytes : bigEndian (hostBytes w (cpuToFdt w v)) = v := by
    rw [hostBytes_cpuToFdt, bigEndian_reverse, Nat.mod_eq_of_lt h]
  exact hbytes

/-! ## One call -/

section
variable {m : Mem} {p : Nat} {o : Int} {n : Place NodeData} {t : Forest NodeData}

theorem flatMap_reverse_length (w : Nat) (val : List Nat) :
    (val.flatMap fun v => (hostBytes w v).reverse).length = val.length * w := by
  rw [← flatMap_hostBytes_length, List.length_flatMap, List.length_flatMap]
  simp only [List.length_reverse]

theorem swapped_bytes (w : Nat) (val : List Nat) :
    (val.map (cpuToFdt w)).flatMap (hostBytes w) = val.flatMap fun v => (hostBytes w v).reverse := by
  rw [List.flatMap_map]
  exact congrArg (List.flatMap · val) (funext (hostBytes_cpuToFdt w))

/-- The array is brought into big-endian order, and so it is stored. -/
theorem addPropList_blob {w : Nat} (hw : 0 < w) {val : List Nat} (hlen : val.length * w < 0x80000000)
    (prop_name : Str) :
    addPropList (blobEditor p) w m o prop_name val =
      .ok ((setprop m p o prop_name (val.flatMap fun v => (hostBytes w v).reverse)).1,
        (setprop m p o prop_name (val.flatMap fun v => (hostBytes w v).reverse)).2, val.map (cpuToFdt w)) := by
  have hcount : val.length ≤ val.length * w := Nat.le_mul_of_pos_right _ hw
  have htake : ((val.map (cpuToFdt w)).flatMap (hostBytes w)).take (int32 (val.length * w : Nat)).toNat =
      val.flatMap fun v => (hostBytes w v).reverse := by
    rw [int32_ofNat hlen, Int.toNat_natCast, swapped_bytes, ← flatMap_reverse_length, List.take_length]
  have hset : (blobEditor p).setprop m o prop_name ((val.map (cpuToFdt w)).flatMap (hostBytes w))
    (int32 (val.length * w : Nat)) =
      setprop m p o prop_name (val.flatMap fun v => (hostBytes w v).reverse) :=
        congrArg (setprop m p o prop_name) htake
  unfold addPropList
  rw [if_neg (by omega)]
  dsimp only
  rw [hset]

/-- Every list goes to `fdt_setprop` as its bytes. -/
theorem Values.add_eq (v : Values) (hlen : v.bytes.length < 0x80000000) (node : NodeHandle) (prop_name : Str) :
    v.add m node prop_name = .ok (setprop m node.blob node.offset prop_name v.bytes) := by
  cases v with
  | u8 val => rfl
  | string val => rfl
  | u16 val =>
    have hlen' : val.length * 2 < 0x80000000 := by rwa [← flatMap_reverse_length]
    exact congrArg (Except.map fun r => (r.1, r.2.1)) (addPropList_blob (by decide) hlen' prop_name)
  | u32 val =>
    have hlen' : val.length * 4 < 0x80000000 := by rwa [← flatMap_reverse_length]
    exact congrArg (Except.map fun r => (r.1, r.2.1)) (addPropList_blob (by decide) hlen' prop_name)
  | u64 val =>
    have hlen' : val.length * 8 < 0x80000000 := by rwa [← flatMap_reverse_length]
    exact congrArg (Except.map fun r => (r.1, r.2.1)) (addPropList_blob (by decide) hlen' prop_name)

/-- An addition to a node is made on the tree, or has no room. -/
theorem Addition.add_node (h : Fdt.NodeAt m p o n) (a : Addition) (ha : a.Ok) :
    ∃ status m', a.add m ⟨p, o⟩ = .ok (status, m') ∧ Within p m m' ∧
      dataSize (blobAt m' p) ≤ dataSize (blobAt m p) + a.need ∧
      ((∃ t, a.onNode n = (status, t) ∧ Carries m' p t ∧ (root t).isSome = true) ∨
        (status = -FDT_ERR_NOSPACE ∧ Carries m' p n.forest ∧
          totalsize (blobAt m p) < dataSize (blobAt m p) + a.need)) := by
  have hroot := plug_root n.ctx n.label n.subs n.rest
  cases a with
  | list prop_name val =>
    obtain ⟨hz, hname, hval⟩ := ha
    have hlen : 12 + val.bytes.length ≤ 2147483647 := Nat.le_trans (Nat.add_le_add_left (le_tagAlign _) 12) hval
    obtain ⟨hwithin, hgrows, hset⟩ := h.setprop hz hname hval
    refine ⟨_, _, Values.add_eq val (by omega) ⟨p, o⟩ prop_name, hwithin, hgrows, ?_⟩
    rcases hset with ⟨hst, hnode⟩ | ⟨hst, hnode, hfull⟩
    · exact Or.inl ⟨_, Prod.ext hst.symm rfl, hnode.carries, plug_root n.ctx _ n.subs n.rest⟩
    · exact Or.inr ⟨hst, hnode.carries, hfull⟩
  | node name =>
    obtain ⟨hz, hn⟩ := ha
    have ho : ¬o < 0 := Int.not_lt.mpr h.nonneg
    have hadded : ∀ {r}, addNode m ⟨p, o⟩ name = r → (Addition.node name).add m ⟨p, o⟩ = .ok (r.1, r.2.2) :=
        fun {r} hr =>
      congrArg (fun r : Int × Option Int × Mem => (Except.ok (r.1, r.2.2) : Except Fault (Int × Mem))) hr
    by_cases hslash : SLASH ∈ name
    · have htree : (Addition.node name).onNode n = (-FDT_ERR_BADPATH, n.forest) := if_pos hslash
      exact ⟨_, m, hadded ((if_neg ho).trans (if_pos hslash)), Within.refl m, Nat.le_add_right _ _,
        Or.inl ⟨_, htree, h.carries, hroot⟩⟩
    have hcall : addNode m ⟨p, o⟩ name = if 0 ≤ (addSubnode m p o name).1
        then (FDT_ERR_QC_NOERROR, some (addSubnode m p o name).1, (addSubnode m p o name).2)
        else ((addSubnode m p o name).1, none, (addSubnode m p o name).2) := (if_neg ho).trans (if_neg hslash)
    have htree : (Addition.node name).onNode n = if (childNamed n name).isSome then (-FDT_ERR_EXISTS, n.forest)
        else (FDT_ERR_QC_NOERROR, n.put n.label (.node ⟨name, []⟩ .nil n.subs)) := if_neg hslash
    obtain ⟨hwithin, hgrows, hadd⟩ := h.addSubnode hz hn
    cases hchild : childNamed n name with
    | some l =>
      rw [hchild] at hadd htree
      obtain ⟨hst, hnode⟩ := hadd
      have hneg : ¬0 ≤ (addSubnode m p o name).1 := by rw [hst]; decide
      refine ⟨_, _, hadded (hcall.trans (if_neg hneg)), hwithin, hgrows,
        Or.inl ⟨_, htree.trans ?_, hnode.carries, hroot⟩⟩
      exact Prod.ext hst.symm rfl
    | none =>
      rw [hchild] at hadd htree
      rcases hadd with ⟨hst, hnode⟩ | ⟨hst, hnode, hfull⟩
      · exact ⟨_, _, hadded (hcall.trans (if_pos hst)), hwithin, hgrows,
          Or.inl ⟨_, htree, hnode.carries, plug_root n.ctx n.label _ n.rest⟩⟩
      · have hneg : ¬0 ≤ (addSubnode m p o name).1 := by rw [hst]; decide
        exact ⟨_, _, hadded (hcall.trans (if_neg hneg)), hwithin, hgrows, Or.inr ⟨hst, hnode.carries, hfull⟩⟩

/-- So is a call, which leaves a tree in which it does not find the node. -/
theorem CreateCall.step (h : Carries m p t) (hroot : (root t).isSome = true) (c : CreateCall)
    (hslash : c.path.head? = some SLASH) (hc : c.what.Ok) :
    ∃ status m', c.run m p = .ok (status, m') ∧ Within p m m' ∧
      dataSize (blobAt m' p) ≤ dataSize (blobAt m p) + c.what.need ∧
      ((∃ t', c.onTree t = (status, t') ∧ Carries m' p t' ∧ (root t').isSome = true) ∨
        (status = -FDT_ERR_NOSPACE ∧ Carries m' p t ∧
          totalsize (blobAt m p) < dataSize (blobAt m p) + c.what.need)) := by
  have hpath := h.pathOffset hslash hroot
  unfold CreateCall.run CreateCall.onTree
  cases hfind : find t c.path with
  | none =>
    rw [hfind] at hpath
    have hneg : pathOffset (blobAt m p) c.path < 0 := by rw [hpath]; decide
    rw [if_pos hneg, hpath]
    exact ⟨_, m, rfl, Within.refl m, Nat.le_add_right _ _, Or.inl ⟨t, rfl, h, hroot⟩⟩
  | some n =>
    rw [hfind] at hpath
    have ht := find_forest hfind
    subst ht
    rw [if_neg (Int.not_lt.mpr hpath.nonneg)]
    exact Addition.add_node hpath c.what hc

/-! ## Runs -/

theorem runCalls_follows (calls : List CreateCall) (hcalls : ∀ c ∈ calls, c.path.head? = some SLASH ∧ c.what.Ok)
    (h : Carries m p t) (hroot : (root t).isSome = true) :
    ∃ statuses m' t', runCalls m p calls = .ok (statuses, m') ∧ Follows t calls statuses t' ∧ Carries m' p t' ∧
      (root t').isSome = true ∧ Within p m m' ∧
      (dataSize (blobAt m p) + (calls.map (·.what.need)).sum ≤ totalsize (blobAt m p) → runTree t calls =
        (statuses, t')) := by
  induction calls generalizing m t with
  | nil => exact ⟨[], m, t, rfl, .done t, h, hroot, Within.refl m, fun _ => rfl⟩
  | cons c calls ih =>
    obtain ⟨hslash, hc⟩ := hcalls c List.mem_cons_self
    obtain ⟨status, m1, hrun, hwithin, hgrows, hstep⟩ := c.step h hroot hslash hc
    have hrest : ∀ c' ∈ calls, c'.path.head? = some SLASH ∧ c'.what.Ok := fun c' hc' =>
      hcalls c' (List.mem_cons_of_mem c hc')
    have hbind : ∀ {sts m2}, runCalls m1 p calls = .ok (sts, m2) →
        runCalls m p (c :: calls) = .ok (status :: sts, m2) := fun {sts m2} h2 => by
      unfold runCalls
      rw [hrun]
      change (do let rest ← runCalls m1 p calls; return (status :: rest.1, rest.2)) = _
      rw [h2]
      rfl
    rw [List.map_cons, List.sum_cons]
    rcases hstep with ⟨t1, htree, hcarries, hroot1⟩ | ⟨hst, hcarries, hfull⟩
    · obtain ⟨sts, m2, t2, hrun2, hfollows, hcarries2, hroot2, hwithin2, hall⟩ := ih hrest hcarries hroot1
      have hst : (c.onTree t).1 = status := congrArg Prod.fst htree
      have ht1 : (c.onTree t).2 = t1 := congrArg Prod.snd htree
      refine ⟨status :: sts, m2, t2, hbind hrun2, ?_, hcarries2, hroot2, hwithin.trans hwithin2, fun hroom => ?_⟩
      · rw [← hst]
        exact .made (ht1 ▸ hfollows)
      · have hafter := hall (by rw [hwithin.total]; omega)
        unfold runTree
        rw [ht1, hafter, hst]
    · obtain ⟨sts, m2, t2, hrun2, hfollows, hcarries2, hroot2, hwithin2, -⟩ := ih hrest hcarries hroot
      refine ⟨status :: sts, m2, t2, hbind hrun2, ?_, hcarries2, hroot2, hwithin.trans hwithin2, fun hroom => ?_⟩
      · rw [hst]
        exact .full hfollows
      · omega

/-- The tree of one node without a name. -/
def bareTree : Forest NodeData := .node ⟨[], []⟩ .nil .nil

/-- However a tree is built, the blob is the tree that the calls describe, but for
those that had no room; in a buffer with room for all of them it is the tree that
they describe. Nothing is written outside the buffer. -/
theorem create_session (d : DTBDefs) (m : Mem) (o : Int) {size : Nat} (hp : p % 8 = 0) (hne : p ≠ 0) (h80 : 80 ≤ size)
    (hsize : size < INT_MAX) (calls : List CreateCall)
    (hcalls : ∀ c ∈ calls, c.path.head? = some SLASH ∧ c.what.Ok) :
    ∃ m1 statuses m' t, addTree d m ⟨p, o⟩ size = .ok (0, ⟨p, 0⟩, m1) ∧ runCalls m1 p calls = .ok (statuses, m') ∧
      Follows bareTree calls statuses t ∧ ReadsAs (blobAt m' p) t ∧ Kept p size m m' ∧
      (80 + (calls.map (·.what.need)).sum ≤ size → runTree bareTree calls = (statuses, t)) := by
  rcases createEmptyTree_bare m hp hsize with ⟨-, m1, hcreate, hbare, htotal, hdata, hkept⟩ | ⟨hsmall, -⟩
  · obtain ⟨statuses, m', t, hrun, hfollows, hcarries, hroot, hwithin, hall⟩ := runCalls_follows calls hcalls hbare rfl
    have hadd : addTree d m ⟨p, o⟩ size = .ok (0, ⟨p, 0⟩, m1) := by
      unfold addTree
      rw [if_neg hne]
      change (createEmptyTree m p size).map _ = _
      rw [hcreate]
      rfl
    rw [htotal, hdata] at hall
    have hinside := hwithin.kept
    rw [htotal] at hinside
    exact ⟨m1, statuses, m', t, hadd, hrun, hfollows, hcarries.readsAs hroot, hkept.trans hinside, hall⟩
  · omega

/-- A node is put below the root, and a cell is put there. -/
def smallCalls : List CreateCall :=
  [⟨[SLASH], .node [99, 112, 117, 64, 48]⟩, ⟨[SLASH, 99, 112, 117], .list REG (.u32 [7])⟩]

theorem create_small : ∃ m1 m', addTree cellsDefs (fun _ => 0) ⟨8, -1⟩ 400 = .ok (0, ⟨8, 0⟩, m1) ∧
    runCalls m1 8 smallCalls = .ok ([0, 0], m') ∧
    ReadsAs (blobAt m' 8) (.node ⟨[], []⟩ (.node ⟨[99, 112, 117, 64, 48], [(REG, [0, 0, 0, 7])]⟩ .nil .nil) .nil) := by
  obtain ⟨m1, statuses, m', t, hadd, hrun, -, hreads, -, hall⟩ := create_session cellsDefs (fun _ => 0) (-1)
    (show 8 % 8 = 0 by decide) (by decide) (show 80 ≤ 400 by decide) (by decide) smallCalls (by decide)
  have hroom := hall (by decide)
  have htree : runTree bareTree smallCalls = ([0, 0], .node ⟨[], []⟩ (.node ⟨[99, 112, 117, 64, 48],
    [(REG, [0, 0, 0, 7])]⟩ .nil .nil) .nil) := by decide
  rw [htree] at hroom
  obtain ⟨rfl, rfl⟩ := Prod.mk.inj hroom
  exact ⟨m1, m', hadd, hrun, hreads⟩

/-! ## Lists -/

/-- A property of a node is in the blob. -/
theorem property_holds (h : Fdt.NodeAt m p o n) {name v : Str} (hv : n.label.value name = some v) :
    Holds (blobEditor p) m (o, name) v := by
  rcases h.getprop name with ⟨hnone, -⟩ | ⟨v', q, hv', hget, hat, hlen⟩
  · exact absurd (hv.symm.trans hnone) (Option.some_ne_none v)
  · cases Option.some.inj (hv.symm.trans hv')
    exact ⟨q, ⟨hget, Int.natCast_nonneg _, Int.ofNat_le.mpr (Nat.le_of_lt hlen)⟩, range_at hat⟩

/-- A list that `fdt_add_prop_list_uX` stores reads back as the array was before
the call, which leaves the array swapped and the other properties as they were. -/
theorem list_reads (d : DTBDefs) (h : Fdt.NodeAt m p o n) {prop_name : Str} (hz : 0 ∉ prop_name)
    (hname : prop_name.length < INT_MAX) {type : DataType} {val val' : List Nat} {m' : Mem}
    (hroom : 12 + tagAlign (val.length * type.width) ≤ INT_MAX) (hval : ∀ v ∈ val, v < 256 ^ type.width)
    (hadd : addList (blobEditor p) m o prop_name val type = some (.ok (0, m', val'))) :
    getUintXPropList d (blobAt m' p) o prop_name (val.length * type.width) 0 0 type = .ok (FDT_ERR_QC_NOERROR, val) ∧
      val' = val.map (cpuToFdt type.width) ∧
      ∀ name, name ≠ prop_name → propertyBytes (blobAt m' p) o name = propertyBytes (blobAt m p) o name := by
  have hlist : type ≠ .boolean ∧ 0 < type.width ∧ addPropList (blobEditor p) type.width m o prop_name val =
      .ok (0, m', val') := by
    cases type with
    | boolean => cases hadd
    | uint8 => cases hadd
    | uint16 => exact ⟨by decide, by decide, Option.some.inj hadd⟩
    | uint32 => exact ⟨by decide, by decide, Option.some.inj hadd⟩
    | uint64 => exact ⟨by decide, by decide, Option.some.inj hadd⟩
  obtain ⟨htype, hw, hcall⟩ := hlist
  have hlen : val.length * type.width < 0x80000000 := by
    have hle : 12 + val.length * type.width ≤ 2147483647 := Nat.le_trans (Nat.add_le_add_left (le_tagAlign _) 12) hroom
    omega
  rw [addPropList_blob hw hlen] at hcall
  obtain ⟨hst, hpair⟩ := Prod.mk.inj (Except.ok.inj hcall)
  obtain ⟨rfl, rfl⟩ := Prod.mk.inj hpair
  rw [← flatMap_reverse_length] at hroom
  obtain ⟨-, -, ⟨-, hnode⟩ | ⟨hfull, -⟩⟩ := h.setprop hz hname hroom
  · refine ⟨?_, rfl, fun name hne => ?_⟩
    · have hvalue := NodeData.value_setprop n.label prop_name
        (val.flatMap fun v => (hostBytes type.width v).reverse) prop_name
      rw [if_pos rfl] at hvalue
      have hheld := property_holds hnode (hvalue.trans (congrArg some (swapped_bytes type.width val).symm))
      have hread := read_back (d := d) htype hw (by rwa [List.length_map]) hheld
      rw [List.length_map, Nat.mod_eq_of_lt (by omega), List.map_map] at hread
      have hsame : val.map (cpuToFdt type.width ∘ cpuToFdt type.width) = val :=
        (List.map_congr_left fun v hv => cpuToFdt_twice (hval v hv)).trans (List.map_id val)
      rw [hsame] at hread
      exact hread
    · rw [hnode.getters.2, h.getters.2, NodeData.value_setprop, if_neg hne]
  · rw [hfull] at hst
    cases hst

theorem list_small : ∃ m' val', addList (blobEditor 0) smallMem 28 REG [1] .uint32 = some (.ok (0, m', val')) ∧
    getUintXPropList cellsDefs (blobAt m' 0) 28 REG 4 0 0 .uint32 = .ok (FDT_ERR_QC_NOERROR, [1]) := by
  have hadd : addList (blobEditor 0) smallMem 28 REG [1] .uint32 =
    some (.ok ((setprop smallMem 0 28 REG [0, 0, 0, 1]).1,
      (setprop smallMem 0 28 REG [0, 0, 0, 1]).2, [1].map (cpuToFdt 4))) :=
    congrArg some (addPropList_blob (by decide) (show [1].length * 4 < 0x80000000 by decide) REG)
  obtain ⟨-, -, ⟨hst, -⟩ | ⟨-, -, hfull⟩⟩ := small_nodeAt.setprop (show 0 ∉ REG by decide) (by decide)
    (show 12 + tagAlign ([0, 0, 0, 1] : Str).length ≤ INT_MAX by decide)
  · rw [hst] at hadd
    exact ⟨_, _, hadd, (list_reads cellsDefs small_nodeAt (by decide) (by decide) (by decide) (by decide) hadd).1⟩
  · exact absurd hfull (by decide +kernel)

end

end DTFramework.Extn
