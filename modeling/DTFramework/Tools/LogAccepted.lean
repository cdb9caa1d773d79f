import Mathlib.Data.List.Dedup
import DTFramework.Extn.Phandles
import DTFramework.Extn.Register
import DTFramework.Tools.LogRead

/-!
# The log is accepted

The log of calls that succeed, read by the parser: accepted, with the nodes of
each blob under its index, if no blob is registered twice and the names are such
that their lines are found (`parser_accepts`). The library logs the start of a
registration that it then gives up: such a log is refused (`merge_refused`).

Results:

* `moves_tree`, `moves_creat`, `moves_calls`: the log of a tree, of a registration, and
  of a sequence of calls;
* `parser_accepts`: the whole log; `merge_refused` shows one that is refused.
-/
namespace DTFramework.Tools

open DTFramework.Fdt DTFramework.Extn DTFramework.Lib

/-! ## The blobs in the table -/

section
variable {e : LibEnv} {blob : Nat} {s s' : LibState} {l : List Nat}

/-- The table has lists of these blobs only. -/
def Tabled (s : LibState) (l : List Nat) : Prop := ∀ b, InTable s b → b ∈ l

theorem Tabled.same (h : Tabled s l) (heq : s'.phead_hash_node_table = s.phead_hash_node_table) : Tabled s' l := by
  intro b hb
  refine h b ?_
  unfold InTable at hb ⊢
  rwa [heq] at hb

theorem Tabled.malloc (h : Tabled s l) : Tabled (dtbMalloc e s).2 l := h.same rfl

theorem Tabled.setLevel (h : Tabled s l) {level : Fin hash_table_level} {list : List BlobListNode}
    (hlist : ∀ x ∈ list, x.blob ∈ l) :
    Tabled (s.setLevel level list) l := by
  rintro b ⟨i, x, hx, rfl⟩
  unfold LibState.setLevel at hx
  dsimp only at hx
  by_cases hi : i = level
  · subst hi
    rw [Function.update_self] at hx
    exact hlist x hx
  · rw [Function.update_of_ne hi] at hx
    exact h _ ⟨i, x, hx, rfl⟩

theorem Tabled.addHashNode (h : Tabled s l) {p : HashNode} {level : Nat} (hadd : addHashNode s p level = .ok s') :
    Tabled s' l := by
  unfold Extn.addHashNode at hadd
  split at hadd
  · cases hadd
    refine h.setLevel fun x hx => ?_
    have hmem := List.mem_map_of_mem (f := BlobListNode.blob) hx
    rw [insertUnder_blobs] at hmem
    obtain ⟨y, hy, hblob⟩ := List.mem_map.mp hmem
    exact h _ ⟨_, y, hy, hblob⟩
  · cases hadd

theorem Tabled.initLevels (hblob : blob ∈ l) (i : Nat) (h : Tabled s l) : Tabled (initLevels e blob i s).2 l := by
  fun_induction Extn.initLevels e blob i s with
  | case1 => exact h.same rfl
  | case2 i s hi _ ih =>
    refine ih ((h.same rfl).setLevel fun x hx => ?_)
    rcases List.mem_cons.mp hx with rfl | hx
    · exact hblob
    · exact h _ ⟨_, x, hx, rfl⟩
  | case3 => exact h

theorem Tabled.initRoot (hblob : blob ∈ l) (h : Tabled s l) {name : Str} {p : Option HashNode}
    (hinit : initRoot e blob name s = .ok (p, s')) : Tabled s' l := by
  have hlists := h.initLevels (e := e) hblob 0
  unfold Extn.initRoot at hinit
  simp only at hinit
  split at hinit
  · cases hinit; exact hlists
  split at hinit
  · split at hinit
    · cases hinit; exact hlists.same rfl
    · obtain ⟨s1, hadd, hinit⟩ := except_bind_ok hinit
      cases hinit
      exact hlists.malloc.addHashNode hadd
  · cases hinit; exact hlists

theorem Tabled.enterNode (h : Tabled s l) {offset : Int} {depth : Nat} {fullname : Str} {b : Bool}
    (henter : enterNode e blob offset depth fullname s = .ok (b, s')) : Tabled s' l := by
  unfold Extn.enterNode at henter
  obtain ⟨s1, hfill, henter⟩ := except_bind_ok henter
  have h1 : Tabled s1 l := by
    unfold fillPhandle at hfill
    repeat' split at hfill
    all_goals cases hfill
    all_goals exact h.same rfl
  obtain ⟨⟨p, s2⟩, hadd, henter⟩ := except_bind_ok henter
  cases henter
  unfold addHash at hadd
  split at hadd
  · cases hadd; exact h1
  split at hadd
  · cases hadd; exact h1.same rfl
  obtain ⟨s3, hadd, hend⟩ := except_bind_ok hadd
  cases hend
  exact h1.malloc.addHashNode hadd

theorem Tabled.creatDtbHashTable (hblob : blob ∈ l) (h : Tabled s l) {ret : Int}
    (hcreat : creatDtbHashTable e blob s = .ok (ret, s')) : Tabled s' l := by
  have hmem := e.d.extends_std e.d.FDT_ERR_QC_MEMALLOC (by simp)
  simp only [FDT_ERR_MAX] at hmem
  unfold Extn.creatDtbHashTable at hcreat
  split at hcreat
  · cases hcreat; exact h
  split at hcreat
  · cases hcreat
    rintro b ⟨i, x, hx, -⟩
    cases hx
  obtain ⟨⟨ret_value, s1⟩, hspace, hcreat⟩ := except_bind_ok hcreat
  have halloc : Tabled s1 l := by
    unfold allocPhandleToNodeCacheSpace at hspace
    simp only at hspace
    repeat' split at hspace
    all_goals cases hspace
    all_goals exact h.same rfl
  simp only at hcreat
  split at hcreat
  · cases hcreat; exact halloc
  unfold recursiveFindRoot at hcreat
  split at hcreat
  · cases hcreat; exact halloc
  obtain ⟨⟨root, s2⟩, hinit, hcreat⟩ := except_bind_ok hcreat
  have hroot := halloc.initRoot hblob hinit
  simp only at hcreat
  split at hcreat
  · cases hcreat; exact hroot
  · rw [recursiveFindSubnode, visitSubnodes_eq (by simp only [FDT_ERR_QC_NOERROR]; omega)] at hcreat
    exact (enterAll_keeps (I := fun t => Tabled t l) _ (fun _ _ _ _ _ ht h => ht.enterNode h) hroot hcreat).1

theorem Tabled.tableAnswer (h : Tabled s l) {name : Str} {a : NodeAnswer} (hget : tableAnswer e blob name s = .ok a) :
    Tabled a.2.2 l := by
  have hpath {s : LibState} (h : Tabled s l) : Tabled (pathAnswer e blob name s).2.2 l := by
    unfold pathAnswer
    dsimp only
    split
    · exact h
    · exact h
  unfold Extn.tableAnswer at hget
  obtain ⟨p, -, hget⟩ := except_bind_ok hget
  cases p with
  | some p => cases hget; exact h
  | none =>
    obtain ⟨⟨dir, s1⟩, hsplit, hget⟩ := except_bind_ok hget
    have h1 : Tabled s1 l := by
      unfold splitName at hsplit
      repeat' split at hsplit
      all_goals cases hsplit
      all_goals exact h.same rfl
    obtain ⟨p, -, hget⟩ := except_bind_ok hget
    cases p with
    | none => cases hget; exact hpath h1
    | some p =>
      dsimp only at hget
      split at hget
      · cases hget; exact h1
      · cases hget; exact hpath h1

theorem Tabled.getNodeHandle (h : Tabled s l) {name : Str} {a : NodeAnswer}
    (hget : getNodeHandle e blob name s = .ok a) :
    Tabled a.2.2 l := by
  unfold Extn.getNodeHandle at hget
  split at hget
  · cases hget; exact h
  · split at hget
    · exact h.tableAnswer hget
    · cases hget
      unfold pathAnswer
      dsimp only
      split
      · exact h
      · exact h

/-- A registration enters no other blob into the table. -/
theorem Tabled.run (h : Tabled s l) {c : Call} {status : Int} (hrun : c.run e s = .ok (status, s')) :
    Tabled s' (l ++ registrations [c]) := by
  have hmore (more : List Nat) : Tabled s (l ++ more) := fun b hb => List.mem_append_left _ (h b hb)
  cases c with
  | register blob bsize blob_id boot time =>
    have hin : blob ∈ l ++ registrations [.register blob bsize blob_id boot time] := by simp [registrations]
    have hrun : setBlobHandle e blob bsize blob_id s = .ok (status, s') := hrun
    unfold setBlobHandle at hrun
    split at hrun
    · cases hrun; exact hmore _
    split at hrun
    · cases hrun; exact hmore _
    split at hrun
    · obtain ⟨⟨_, _, s1⟩, hget, hcreat⟩ := except_bind_ok hrun
      have h1 := (hmore (registrations [.register blob bsize blob_id boot time])).getNodeHandle hget
      dsimp only at h1 hcreat
      refine Tabled.creatDtbHashTable hin ?_ hcreat
      exact h1.same rfl
    · exact Tabled.creatDtbHashTable hin (hmore _) hrun
  | node blob name c =>
    obtain ⟨⟨_, _, s1⟩, hget, hend⟩ := except_bind_ok hrun
    cases hend
    exact (hmore _).getNodeHandle hget
  | phandle => cases hrun; exact hmore _
  | subnodes => cases hrun; exact hmore _

end

/-! ## Lookups -/

theorem LookupLike.logged {m : Str} (h : LookupLike m) (target : Target) : LookupLike (dtbLog target m) := by
  obtain ⟨b, c, z, rfl, hbc⟩ := h
  cases target with
  | uefi => exact ⟨b, c, z, rfl, hbc⟩
  | xbl | q6 => exact ⟨b, c, z.take 253, rfl, hbc⟩

section
variable {pf : Printf} {e : LibEnv} {blob : Nat} {name : Str} {c : Counters} {s : LibState}

theorem pathLog_like : ∀ m ∈ pathLog pf e blob name c, LookupLike m := by
  intro m hm
  unfold pathLog at hm
  dsimp only at hm
  split at hm
  · rw [List.mem_singleton.mp hm]
    exact ⟨108, 111, _, rfl, by decide⟩
  · cases hm

theorem tableLog_like {ms : List Str} (h : tableLog pf e blob name c s = .ok ms) : ∀ m ∈ ms, LookupLike m := by
  unfold tableLog at h
  obtain ⟨p, -, h⟩ := except_bind_ok h
  cases p with
  | some p =>
    cases h
    intro m hm
    rw [List.mem_singleton.mp hm]
    exact ⟨108, 111, _, rfl, by decide⟩
  | none =>
    obtain ⟨⟨dir, s1⟩, -, h⟩ := except_bind_ok h
    obtain ⟨p, -, h⟩ := except_bind_ok h
    cases p with
    | none =>
      cases h
      exact pathLog_like
    | some p =>
      dsimp only at h
      split at h
      · cases h
        intro m hm
        rw [List.mem_singleton.mp hm]
        exact ⟨108, 111, _, rfl, by decide⟩
      · split at h
        · cases h
          exact fun m hm => nomatch hm
        · cases h
          exact pathLog_like

theorem nodeHandleLog_like : ∀ m ∈ nodeHandleLog pf e blob name c s, LookupLike m := by
  intro m hm
  unfold nodeHandleLog at hm
  split at hm
  · cases hm
  · split at hm
    · cases hlog : tableLog pf e _ name c s with
      | error fault =>
        rw [hlog] at hm
        cases hm
      | ok ms =>
        rw [hlog] at hm
        exact tableLog_like hlog m hm
    · exact pathLog_like m hm

theorem lookups_like (call : Call) : ∀ m ∈ call.lookups pf e s, LookupLike m := by
  intro m hm
  cases call with
  | register =>
    simp only [Call.lookups] at hm
    split at hm
    · exact nodeHandleLog_like m hm
    · cases hm
  | node => exact nodeHandleLog_like m hm
  | phandle =>
    rw [List.mem_singleton.mp hm]
    exact ⟨108, 111, _, rfl, by decide⟩
  | subnodes =>
    rcases List.mem_cons.mp hm with rfl | hm
    · exact ⟨102, 100, _, rfl, by decide⟩
    · obtain ⟨x, -, rfl⟩ := List.mem_map.mp hm
      exact ⟨108, 111, _, rfl, by decide⟩

end

/-! ## A tree -/

/-- The names read for some nodes. -/
def readNames (r : Reader) (vs : List Visit) : Set Text := {t | ∃ v ∈ vs, r.read v.fullname = some t}

theorem readNames_nil (r : Reader) : readNames r [] = ∅ := by
  ext t
  simp [readNames]

theorem readNames_cons {r : Reader} {v : Visit} {n : Text} (h : r.read v.fullname = some n) (vs : List Visit) :
    readNames r (v :: vs) = insert n (readNames r vs) := by
  ext t
  simp only [readNames, List.mem_cons, exists_eq_or_imp, h, Option.some.injEq, Set.mem_ofPred_eq, Set.mem_insert_iff]
  rw [eq_comm]

theorem readNames_append (r : Reader) (vs ws : List Visit) :
    readNames r (vs ++ ws) = readNames r vs ∪ readNames r ws := by
  ext t
  simp only [readNames, List.mem_append, or_and_right, exists_or, Set.mem_ofPred_eq, Set.mem_union]

theorem fullName_slash {name : Str} (h : name.head? = some SLASH) (sub : Str) :
    (fullName name sub).head? = some SLASH := by
  cases name with
  | nil => cases h
  | cons b name =>
    obtain rfl := Option.some.inj h
    unfold fullName
    split
    · rfl
    · rfl

section
variable {r : Reader} {pf : Printf} {target : Target}

theorem fine_ne {name : Str} {n : Text} (hslash : name.head? = some SLASH) (h : Fine r target name n) : n ≠ [] := by
  cases name with
  | nil => cases hslash
  | cons b name =>
    obtain rfl := Option.some.inj hslash
    have hread := r.visible [] SLASH name (by decide) (by decide)
    rw [List.nil_append, r.nil, h.read] at hread
    rintro rfl
    cases hz : r.read name with
    | none =>
      rw [hz] at hread
      cases hread
    | some u =>
      rw [hz] at hread
      cases hread

/-- Printing the nodes below a node makes the parser read their names. -/
theorem moves_tree (pf : Printf) (f : Blob) (name : Str) (sub : Int) :
    ∀ (depth : Nat) (done : List (Set Text)) (names : Set Text),
    name.head? = some SLASH → (∀ v ∈ pathVisits f name depth sub, ∃ n, Fine r target v.fullname n) →
    Moves r ((printAllDtbNodes pf f name sub).flatMap (dtbLog target)) (true, done ++ [names])
      (true, done ++ [names ∪ readNames r (pathVisits f name depth sub)]) := by
  fun_induction printAllDtbNodes pf f name sub with
  | case1 name sub h =>
    intro depth done names _ _
    rw [pathVisits, dif_pos h, readNames_nil, Set.union_empty]
    exact Moves.refl r _
  | case2 name sub h fullname ih1 ih2 =>
    intro depth done names hslash hfine
    have hvisits : pathVisits f name depth sub = ⟨sub, depth + 1, fullname⟩ ::
        (pathVisits f fullname (depth + 1) (firstSubnode f sub) ++ pathVisits f name depth (nextSubnode f sub)) := by
      rw [pathVisits, dif_neg h]
    have hfull : fullname.head? = some SLASH := fullName_slash hslash (subName f sub)
    clear_value fullname
    rw [hvisits] at hfine ⊢
    obtain ⟨⟨n, hn⟩, hfine⟩ := List.forall_mem_cons.mp hfine
    have hn : Fine r target fullname n := hn
    have hbelow := fun v hv => hfine v (List.mem_append_left _ hv)
    have hbehind := fun v hv => hfine v (List.mem_append_right _ hv)
    have h1 : Moves r
        ((subnodeMessage pf fullname sub :: if fullname ≠ ROOT then [nodeMessage fullname] else []).flatMap
        (dtbLog target))
        (true, done ++ [names]) (true, done ++ [insert n names]) := by
      have hne := fine_ne hfull hn
      by_cases hroot : fullname = ROOT
      · have hname : n = ['/'] := by
          have hread : r.read ROOT = some ['/'] := reads_chars (visible_all (by decide))
          have hname := hn.read
          rw [hroot, hread] at hname
          exact (Option.some.inj hname).symm
        rw [if_neg (not_not_intro hroot), hroot, hname, List.flatMap_cons, List.flatMap_nil, List.append_nil]
        exact moves_rootName target sub
      · rw [if_pos hroot, List.flatMap_cons, List.flatMap_cons, List.flatMap_nil, List.append_nil]
        exact moves_node target hne hn sub
    have h2 := ih1 (depth + 1) done (insert n names) hfull hbelow
    have h3 := ih2 depth done (insert n names ∪ readNames r (pathVisits f fullname (depth + 1) (firstSubnode f sub)))
      hslash hbehind
    have hall := h1.trans (h2.trans h3)
    have hset (A B : Set Text) : names ∪ insert n (A ∪ B) = insert n names ∪ A ∪ B := by
      rw [Set.union_insert, ← Set.insert_union, Set.union_assoc]
    rw [readNames_cons hn.read, readNames_append, hset]
    rw [← List.flatMap_append, ← List.flatMap_append, List.cons_append] at hall
    exact hall

/-- A blob that is not in the table yet is read from its start line to its end
line. -/
theorem moves_creat (pf : Printf) {e : LibEnv} {s : LibState} (blob time : Nat) {done : List (Set Text)}
    (henable : e.ENABLE_HASH_FOR_DTB = true) (hnew : isMergeDtb s blob = false) (h5 : done.length < 5)
    (hfine : ∀ v ∈ treeOf (blobAt e.m blob), ∃ n, Fine r target v.fullname n) :
    Moves r ((creatDtbHashTableLog pf e blob time s).flatMap (dtbLog target)) (false, done)
      (false, done ++ [readNames r (treeOf (blobAt e.m blob))]) := by
  have hstart : Moves r (dtbLog target (startMessage pf blob)) (false, done) (true, done ++ [∅]) :=
    moves_start blob target h5
  have htree := moves_tree pf (blobAt e.m blob) ROOT (firstSubnode (blobAt e.m blob) 0) 0 done ∅ rfl hfine
  rw [Set.empty_union] at htree
  have hend := moves_end r pf time ((treeOf (blobAt e.m blob)).length + 1 : Nat) target
    (List.append_ne_nil_of_right_ne_nil done (List.cons_ne_nil (readNames r (treeOf (blobAt e.m blob))) []))
  have hall := hstart.trans (htree.trans hend)
  unfold creatDtbHashTableLog
  rw [henable, hnew]
  simp only [Bool.not_true, Bool.false_eq_true, if_false, List.flatMap_cons, List.flatMap_append, List.flatMap_nil,
    List.append_nil]
  exact hall

end

/-! ## The calls -/

section
variable (r : Reader) (pf : Printf) (target : Target) (e : LibEnv)

/-- The lookups of the calls log messages in which no start line and no end line
is seen. -/
def LookupsHarmless : List Call → LibState → Prop
  | [], _ => True
  | c :: calls, s => (∀ m ∈ c.lookups pf e s, Harmless r (dtbLog target m)) ∧
      ∀ status s', c.run e s = .ok (status, s') → LookupsHarmless calls s'

/-- The parser returns 0, with the names of each blob's nodes under its index. -/
def Accepts (calls : List Call) (log : Str) : Prop :=
  ∃ g, getAllAndUsedDtbNodes r log .init = .ok (0, g) ∧
    ∀ (i : Nat) (blob : Nat), (registrations calls)[i]? = some blob → ∃ names, g.g_dtb_name[i]? = some names ∧
      ∀ t, t ∈ names.keys ↔ ∃ v ∈ treeOf (blobAt e.m blob), r.read v.fullname = some t

/-- Calls whose log is read back: a blob is registered, none twice, with names
that are read back, and lookups do not disturb the parser. -/
structure Readable (calls : List Call) : Prop where
  nonempty : registrations calls ≠ []
  once : (registrations calls).Nodup
  fine : ∀ blob ∈ registrations calls, ∀ v ∈ treeOf (blobAt e.m blob), ∃ n, Fine r target v.fullname n
  lookups : LookupsHarmless r pf target e calls .init

end

section
variable {r : Reader} {pf : Printf} {target : Target} {e : LibEnv}

theorem registrations_cons (c : Call) (calls : List Call) :
    registrations (c :: calls) = registrations [c] ++ registrations calls := by
  unfold registrations
  rw [← List.filterMap_append]
  rfl

theorem moves_call {c : Call} {s : LibState} (done : List (Set Text)) (henable : e.ENABLE_HASH_FOR_DTB = true)
    (hlookups : ∀ m ∈ c.lookups pf e s, Harmless r (dtbLog target m))
    (h5 : done.length + (registrations [c]).length ≤ 5)
    (hnew : ∀ blob ∈ registrations [c], isMergeDtb s blob = false)
    (hfine : ∀ blob ∈ registrations [c], ∀ v ∈ treeOf (blobAt e.m blob), ∃ n, Fine r target v.fullname n) :
    Moves r ((c.log pf e s).flatMap (dtbLog target)) (false, done)
      (false, done ++ (registrations [c]).map fun blob => readNames r (treeOf (blobAt e.m blob))) := by
  have hfirst := moves_lookups target (c.lookups pf e s) done
    (fun m hm => (lookups_like c m hm).logged target) hlookups
  cases c with
  | register blob bsize blob_id boot time =>
    have hmem : blob ∈ registrations [.register blob bsize blob_id boot time] := List.mem_singleton_self blob
    have hcreat := moves_creat pf blob time henable (hnew blob hmem) (Nat.lt_of_succ_le h5) (hfine blob hmem)
    unfold Call.log
    rw [List.flatMap_append]
    exact hfirst.trans hcreat
  | node | phandle | subnodes =>
    rw [show registrations [_] = [] by rfl, List.map_nil, List.append_nil]
    exact hfirst

/-- The whole log, from a state in which the table has the blobs registered so
far. -/
theorem moves_calls (henable : e.ENABLE_HASH_FOR_DTB = true) (calls : List Call) :
    ∀ (s : LibState) (log : Str) (before : List Nat) (done : List (Set Text)), logOf pf target e calls s = some log →
      Tabled s before → (before ++ registrations calls).Nodup → done.length + (registrations calls).length ≤ 5 →
      (∀ blob ∈ registrations calls, ∀ v ∈ treeOf (blobAt e.m blob), ∃ n, Fine r target v.fullname n) →
      LookupsHarmless r pf target e calls s →
      Moves r log (false, done) (false, done ++ (registrations calls).map fun blob =>
          readNames r (treeOf (blobAt e.m blob))) := by
  induction calls with
  | nil =>
    intro s log before done hlog _ _ _ _ _
    cases hlog
    rw [show registrations [] = [] by rfl, List.map_nil, List.append_nil]
    exact Moves.refl r _
  | cons c calls ih =>
    intro s log before done hlog htabled hnodup h5 hfine hlookups
    rw [registrations_cons] at hnodup h5 hfine ⊢
    rw [List.length_append] at h5
    obtain ⟨hharmless, hrest⟩ := hlookups
    unfold logOf at hlog
    split at hlog
    · rename_i status s' hrun
      split at hlog
      · obtain ⟨rest, hlogrest, rfl⟩ := Option.map_eq_some_iff.mp hlog
        have hnew : ∀ blob ∈ registrations [c], isMergeDtb s blob = false := by
          intro blob hblob
          rw [← Bool.not_eq_true, isMergeDtb_iff]
          intro hin
          have hdisjoint := (List.nodup_append.mp hnodup).2.2 blob (htabled blob hin) blob
            (List.mem_append_left _ hblob)
          exact hdisjoint rfl
        have hcall := moves_call done henable hharmless (by omega) hnew
          (fun blob hblob => hfine blob (List.mem_append_left _ hblob))
        have hcalls := ih s' rest (before ++ registrations [c])
          (done ++ (registrations [c]).map fun blob => readNames r (treeOf (blobAt e.m blob))) hlogrest
          (htabled.run hrun)
          (by rwa [List.append_assoc]) (by rw [List.length_append, List.length_map]; omega)
          (fun blob hblob => hfine blob (List.mem_append_right _ hblob)) (hrest status s' hrun)
        rw [List.map_append, ← List.append_assoc]
        exact hcall.trans hcalls
      · cases hlog
    · cases hlog

end

/-- The log of calls that all succeed, with at most five blobs registered, is
accepted when no blob is registered twice and the names are read back. -/
theorem parser_accepts (r : Reader) (pf : Printf) (target : Target) (e : LibEnv) (calls : List Call) (log : Str)
    (henable : e.ENABLE_HASH_FOR_DTB = true) (hlog : logOf pf target e calls .init = some log)
    (hfive : (registrations calls).dedup.length ≤ 5) (h : Readable r pf target e calls) : Accepts r e calls log := by
  have htabled : Tabled .init [] := by
    rintro b ⟨i, x, hx, -⟩
    cases hx
  rw [List.dedup_eq_self.mpr h.once] at hfive
  obtain ⟨-, t, ht, hmoves⟩ := moves_calls henable calls .init log [] [] hlog htabled h.once
    (by rw [List.length_nil, Nat.zero_add]; exact hfive) h.fine h.lookups
  obtain ⟨line, g, hquiet, -, hready, heq⟩ := hmoves (linesFrom [] t) [] .init [] ⟨by decide, by decide⟩
    (fun h => nomatch h) ready_init
  rw [List.append_nil] at heq
  have hlast : parseLines (linesFrom [] t) (linesFrom line []) false g = .ok (0, g) := by
    have haddress : g.g_blob_address ≠ [] := by
      refine List.ne_nil_of_length_pos ?_
      rw [hready.address, List.nil_append, List.length_map]
      exact List.length_pos_iff.mpr h.nonempty
    have hnil : parseLines (linesFrom [] t) [] false g = .ok (0, g) := by
      rw [parseLines, if_neg Bool.false_ne_true, if_pos haddress]
    rw [linesFrom]
    split
    · exact hnil
    · rw [parseLines_quiet _ _ hquiet, hnil]
  refine ⟨g, ?_, ?_⟩
  · unfold getAllAndUsedDtbNodes
    rw [ht]
    exact heq.trans hlast
  · intro i blob hblob
    have hi : i < g.g_dtb_name.length := by
      have hlt := (List.getElem?_eq_some_iff.mp hblob).1
      rw [hready.dtb]
      omega
    refine ⟨g.g_dtb_name[i], List.getElem?_eq_getElem hi, fun t => ?_⟩
    have hnames := hready.names i t
    rw [List.getD_eq_getElem?_getD, List.getD_eq_getElem?_getD, List.getElem?_eq_getElem hi, List.nil_append,
      List.getElem?_map, hblob] at hnames
    exact hnames

/-! ## A log -/

def digit (n : Nat) : UInt8 := UInt8.ofNat (if n < 10 then 48 + n else 87 + n)

/-- The last `k` digits of a number, without leading zeros, before others. -/
def digits (base : Nat) : Nat → Nat → Str → Str
  | 0, _, others => others
  | k + 1, n, others => if n < base then digit n :: others else digits base k (n / base) (digit (n % base) :: others)

/-- A byte of a number. -/
def NumeralByte (b : UInt8) : Prop := 33 ≤ b.toNat ∧ b.toNat < 127 ∧ b.toNat ≠ 91 ∧ b.toNat ≠ 93

theorem digit_byte {n : Nat} (h : n < 16) : NumeralByte (digit n) := by
  have hall : ∀ n < 16, NumeralByte (digit n) := by
    unfold NumeralByte
    decide
  exact hall n h

theorem digits_numeral {base : Nat} (h0 : 0 < base) (hbase : base ≤ 16) (k : Nat) : ∀ (n : Nat) (others : Str),
    (0 < k ∨ others ≠ []) → k + others.length ≤ 20 → (∀ b ∈ others, NumeralByte b) →
      Numeral (digits base k n others) := by
  induction k with
  | zero =>
    intro n others hne hlen hall
    exact ⟨hne.resolve_left (Nat.lt_irrefl 0), by rw [Nat.zero_add] at hlen; exact hlen, hall⟩
  | succ k ih =>
    intro n others _ hlen hall
    unfold digits
    split
    · rename_i hn
      refine ⟨by simp, ?_, List.forall_mem_cons.mpr ⟨digit_byte (by omega), hall⟩⟩
      rw [List.length_cons]
      omega
    · have hmod := Nat.mod_lt n h0
      refine ih _ _ (Or.inr (by simp)) ?_ (List.forall_mem_cons.mpr ⟨digit_byte (by omega), hall⟩)
      rw [List.length_cons]
      omega

theorem numeral_cons {b : UInt8} {s : Str} (hb : NumeralByte b) (h : Numeral s) (hlen : s.length ≤ 19) :
    Numeral (b :: s) :=
  ⟨by simp, by rw [List.length_cons]; omega, List.forall_mem_cons.mpr ⟨hb, h.2.2⟩⟩

theorem digits_length (base k : Nat) : ∀ (n : Nat) (others : Str),
    (digits base k n others).length ≤ k + others.length := by
  induction k with
  | zero =>
    intro n others
    rw [Nat.zero_add]
    exact Nat.le_refl _
  | succ k ih =>
    intro n others
    unfold digits
    split
    · rw [List.length_cons]
      omega
    · have := ih (n / base) (digit (n % base) :: others)
      rw [List.length_cons] at this
      omega

/-- The usual rendering. -/
def plainPrintf : Printf where
  p n := 48 :: 120 :: digits 16 16 n []
  d n := if n < 0 then 45 :: digits 10 10 n.natAbs [] else digits 10 10 n.natAbs []
  x n := (List.range 16).map fun i => digit (n / 16 ^ (15 - i) % 16)
  u n := digits 10 20 n []
  numeral := by
    have hten (k n : Nat) (hk : 0 < k) (hlen : k ≤ 20) : Numeral (digits 10 k n []) :=
      digits_numeral (by decide) (by decide) k n [] (Or.inl hk) hlen (by simp)
    refine ⟨fun n => ?_, fun n => ?_, fun n => ?_, fun n => hten 20 n (by decide) (by decide)⟩
    · have hhex := digits_numeral (show 0 < 16 by decide) (by decide) 16 n [] (Or.inl (by decide)) (by decide)
        (by simp)
      have hlen := digits_length 16 16 n []
      rw [List.length_nil] at hlen
      refine numeral_cons (by unfold NumeralByte; decide)
        (numeral_cons (by unfold NumeralByte; decide) hhex (by omega)) ?_
      rw [List.length_cons]
      omega
    · have hlen := digits_length 10 10 n.natAbs []
      rw [List.length_nil] at hlen
      split
      · exact numeral_cons (by unfold NumeralByte; decide) (hten 10 _ (by decide) (by decide)) (by omega)
      · exact hten 10 _ (by decide) (by decide)
    · refine ⟨by simp, by simp, fun b hb => ?_⟩
      obtain ⟨i, -, rfl⟩ := List.mem_map.mp hb
      exact digit_byte (Nat.mod_lt _ (by decide))

/-- The bytes that `asciiReader` reads. -/
def readable (b : UInt8) : Bool := b == 10 || (decide (32 ≤ b.toNat) && decide (b.toNat < 127))

/-- Reading visible characters and line ends. -/
def asciiReader : Reader where
  read x := if x.all readable then some (chars x) else none
  nil := rfl
  visible := by
    intro x b y h1 h2
    have hb : readable b = true := by simp [readable, h1, h2]
    rw [List.all_append, List.all_cons, hb, Bool.true_and]
    by_cases hx : x.all readable = true
    · by_cases hy : y.all readable = true
      · simp [hx, hy, chars]
      · simp [hx, hy]
    · simp [hx]
  newline := by
    intro y
    rw [List.all_cons, show readable 10 = true by rfl, Bool.true_and]
    split
    · rfl
    · rfl

/-- A blob with one node below its root, named "a". -/
def logEnv : LibEnv :=
  { registerEnv true with m := memOf 0x1000 (assemble [.beginNode [], .beginNode [97], .endNode, .endNode] 0) }

def registerCall : Call := .register 0x1000 200 0 ⟨0, 0, 0⟩ 7

theorem logEnv_tree : treeOf (blobAt logEnv.m 0x1000) = [⟨8, 1, [47, 97]⟩] := by decide +kernel

theorem parser_accepts_one : ∃ log,
    logOf plainPrintf .xbl logEnv [registerCall, .subnodes 0x1000 3 [([47, 97], 1)]] .init = some log ∧
    Accepts asciiReader logEnv [registerCall, .subnodes 0x1000 3 [([47, 97], 1)]] log := by
  have hsome : (logOf plainPrintf .xbl logEnv [registerCall, .subnodes 0x1000 3 [([47, 97], 1)]] .init).isSome =
      true := by
    decide +kernel
  obtain ⟨log, hlog⟩ := Option.isSome_iff_exists.mp hsome
  refine ⟨log, hlog, parser_accepts asciiReader plainPrintf .xbl logEnv _ log rfl hlog (by decide)
    ⟨by decide, by decide, ?_, ?_, ?_⟩⟩
  · intro blob hblob v hv
    rw [List.mem_singleton.mp hblob, logEnv_tree] at hv
    rw [List.mem_singleton.mp hv]
    exact ⟨['/', 'a'], by decide, by decide, by decide, ⟨by decide, by decide⟩, Or.inr (by decide)⟩
  · have hnone : registerCall.lookups plainPrintf logEnv .init = [] := by decide +kernel
    rw [hnone]
    exact fun m hm => nomatch hm
  · intro status s' _
    refine ⟨fun m hm => ?_, fun _ _ _ => trivial⟩
    have hm : m = costMessage plainPrintf 3 ∨ m = parentMessage plainPrintf [47, 97] 1 0x1000 := by
      simpa [Call.lookups] using hm
    rcases hm with rfl | rfl
    · exact ⟨chars (costMessage plainPrintf 3), by decide +kernel, by decide +kernel, by decide +kernel⟩
    · exact ⟨chars (parentMessage plainPrintf
        [47, 97] 1 0x1000), by decide +kernel, by decide +kernel, by decide +kernel⟩

/-- A blob that is registered again starts what does not end. -/
theorem merge_refused : ¬∀ (r : Reader) (pf : Printf) (target : Target) (e : LibEnv) (calls : List Call) (log : Str),
    e.ENABLE_HASH_FOR_DTB = true → logOf pf target e calls .init = some log → (registrations calls).dedup.length ≤ 5 →
      Accepts r e calls log := by
  intro h
  have hrun : (logOf plainPrintf .xbl logEnv [registerCall, registerCall] .init).map
      (fun log => (getAllAndUsedDtbNodes asciiReader log .init).map Prod.fst) = some (.ok (-1)) := by
    decide +kernel
  obtain ⟨log, hlog, hparsed⟩ := Option.map_eq_some_iff.mp hrun
  obtain ⟨g, hg, -⟩ := h asciiReader plainPrintf .xbl logEnv _ log rfl hlog (by decide)
  rw [hg] at hparsed
  have hzero : (0 : Int) = -1 := Except.ok.inj hparsed
  exact absurd hzero (by decide)

end DTFramework.Tools
