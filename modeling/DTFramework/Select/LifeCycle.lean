import DTFramework.Select.Balance
import DTFramework.Select.Handle
import DTFramework.Select.Image

/-!
# The life of a handle

A client opens selections, reads from them and closes them, in any order. The
handle is the address of a block, and the only protection is the guard word in
the block itself: what a call on a closed handle does depends on what memory
holds there.

`Step` is one call with its code. The blocks an opening hands out on the way
may hold anything afterwards; all other memory keeps its bytes, freed or not.
`Run` is a sequence of calls, with the state before each of them in its log.

Results:

* `lifecycle`: closed handles are rejected and no handle block is freed twice
  exactly in the runs in which no closed handle is used while its block still
  answers (`Spent`);
* `closed_twice`: closing is one such use.
-/
namespace DTFramework.Select

open DTFramework.Fdt DTFramework.Extn DTFramework.Lib

inductive Status
  /-- Not a handle that was returned. -/
  | unknown
  | live
  | closed
deriving DecidableEq, Repr

/-- What memory holds at an address, read as a handle block, and what became of
the handles. -/
structure Life where
  block : Nat → Handle
  status : Nat → Status

inductive Call
  | open (env : Env) (a : OpenArgs)
  | read (handle : Nat) (type : Option BlobType) (blob_ptr : Option Nat) (blob_size : Nat) (d : DTBDefs) (m : Mem)
  | close (handle : Nat)

/-- The handle a call is made on. -/
def Call.handle : Call → Option Nat
  | .open _ _ => none
  | .read h _ _ _ _ _ => some h
  | .close h => some h

/-- The address of the handle an opening returns. -/
def handlePtr (env : Env) : Nat := env.alloc .handle HANDLE_SIZE

/-- The blocks that are handed out on the way. -/
def handedOut (t : List HeapEvent) : List Block :=
  t.filterMap fun
    | .malloc size ptr => some (ptr, size)
    | .free _ _ => none

/-- Memory apart from the blocks that were handed out keeps its bytes. -/
def Keeps (t : List HeapEvent) (block block' : Nat → Handle) : Prop :=
  ∀ h, (∀ b ∈ handedOut t, Apart b.1 b.2 h HANDLE_SIZE) → block' h = block h

/-- One call, on a handle that was returned before: its code, what it does to the heap, and
the state it leaves. A new handle is a block that is not allocated. -/
inductive Step : Life → Call → Int → List HeapEvent → Life → Prop
  | openOk {s : Life} {env : Env} {a : OpenArgs} {o : Opened} {t : List HeapEvent} {block' : Nat → Handle} :
    dtSelectOpen env a = .ok ((SUCCESS, some o), t) → s.status (handlePtr env) ≠ .live → Keeps t s.block block' →
    block' (handlePtr env) = o.block →
    Step s (.open env a) SUCCESS t ⟨block', fun h => if h = handlePtr env then .live else s.status h⟩
  | openFail {s : Life} {env : Env} {a : OpenArgs} {code : Int} {t : List HeapEvent} {block' : Nat → Handle} :
    dtSelectOpen env a = .ok ((code, none), t) → Keeps t s.block block' →
    Step s (.open env a) code t ⟨block', s.status⟩
  | read {s : Life} {h : Nat} {type : Option BlobType} {ptr : Option Nat} {size : Nat} {d : DTBDefs} {m : Mem} :
    s.status h ≠ .unknown →
    Step s (.read h type ptr size d m) (dtSelectReadBlob d m (some (s.block h)) type ptr size).1 [] s
  | close {s : Life} {h : Nat} {code : Int} {t : List HeapEvent} :
    s.status h ≠ .unknown → dtSelectClose h (s.block h) = .ok (code, t) →
    Step s (.close h) code t ⟨s.block, fun q => if q = h ∧ code = SUCCESS then .closed else s.status q⟩

/-- A call of a run, with the state it was made in. -/
structure Entry where
  before : Life
  call : Call
  code : Int
  events : List HeapEvent

inductive Run (s0 : Life) : List Entry → Life → Prop
  | start : Run s0 [] s0
  | step {log : List Entry} {s s' : Life} {c : Call} {code : Int} {t : List HeapEvent} :
    Run s0 log s → Step s c code t s' → Run s0 (log ++ [⟨s, c, code, t⟩]) s'

/-- No handle was returned yet. -/
def Fresh (s : Life) : Prop := ∀ h, s.status h = .unknown

/-! ## What is asked of a run -/

/-- A call on a closed handle is rejected. -/
def Rejected (e : Entry) : Prop := ∀ h, e.call.handle = some h → e.before.status h = .closed → e.code ≠ 0

/-- What a call does to the handle blocks that are allocated. An opening that
fails releases its block itself; closing releases one exactly when it succeeds
(`close_events`). -/
def handleMove (e : Entry) : Move Nat :=
  match e.call with
  | .open env _ => if e.code = SUCCESS then .take (handlePtr env) else .stay
  | .read _ _ _ _ _ _ => .stay
  | .close h => if e.code = SUCCESS then .give h else .stay

/-- No handle block is freed twice. -/
def FreedOnce (log : List Entry) : Prop := (Ledger.run handleMove log 0).isSome

theorem close_events {h : Nat} {block : Handle} {code : Int} {t : List HeapEvent}
    (hc : dtSelectClose h block = .ok (code, t)) :
    (code = SUCCESS → t = [.free h HANDLE_SIZE]) ∧ (code ≠ SUCCESS → t = []) := by
  unfold dtSelectClose at hc
  split at hc
  · cases hc
    exact ⟨fun h => absurd h (by decide), fun _ => rfl⟩
  · cases hc
    exact ⟨fun _ => rfl, fun h => absurd rfl h⟩

/-! ## When a block still answers -/

/-- A request that the data of a block answer. -/
def Answers (data : HandleData) (type : Option BlobType) (ptr : Option Nat) (size : Nat) (m : Mem) : Prop :=
  ∃ t, type = some t ∧ ptr.isSome ∧ size ≠ 0 ∧ size = (data.blob t).2 ∧ (data.blob t).1 ≠ 0 ∧
    writeLow32 size (totalsize (blobAt m (data.blob t).1)) = size

theorem handleCheck_iff (b : Handle) : handleCheck b = SUCCESS ↔ b.data_guard = DT_SELECT_LIBRARY_ID := by
  unfold handleCheck
  by_cases h : b.data_guard = DT_SELECT_LIBRARY_ID
  · rw [if_neg (not_not.mpr h.symm)]
    exact ⟨fun _ => h, fun _ => rfl⟩
  · rw [if_pos fun he => h he.symm]
    exact ⟨fun hc => absurd hc (by decide), fun hc => absurd hc h⟩

theorem dtSelectReadBlob_iff (d : DTBDefs) (m : Mem) (b : Handle) (type : Option BlobType) (ptr : Option Nat)
    (size : Nat) : (dtSelectReadBlob d m (some b) type ptr size).1 = SUCCESS ↔
      b.data_guard = DT_SELECT_LIBRARY_ID ∧ Answers b.data type ptr size m := by
  by_cases hg : b.data_guard = DT_SELECT_LIBRARY_ID
  · have hcheck : ¬SUCCESS ≠ handleCheck b := not_not.mpr ((handleCheck_iff b).mpr hg).symm
    unfold dtSelectReadBlob
    cases ptr with
    | none =>
      exact ⟨fun h => absurd (show INVALID_PARAMETER = SUCCESS from h) (by decide),
        fun ⟨_, _, _, hp, _⟩ => absurd hp (by decide)⟩
    | some ptr =>
      dsimp only
      rw [if_neg hcheck]
      cases type with
      | none =>
        exact ⟨fun h => absurd (show READ_BLOB_TYPE_MISMATCH = SUCCESS from h) (by decide),
          fun ⟨_, _, ht, _⟩ => (nomatch ht)⟩
      | some t =>
        have hstd : d.FDT_ERR_QC_NULLPTR ≠ 0 := by
          have := d.extends_std d.FDT_ERR_QC_NULLPTR (by simp)
          simp only [FDT_ERR_MAX] at this
          omega
        have hans : Answers b.data (some t) (some ptr) size m ↔ size ≠ 0 ∧ size = (b.data.blob t).2 ∧
            (b.data.blob t).1 ≠ 0 ∧ writeLow32 size (totalsize (blobAt m (b.data.blob t).1)) = size :=
          ⟨fun ⟨_, ht, _, h1, h2, h3, h4⟩ => by cases ht; exact ⟨h1, h2, h3, h4⟩,
            fun ⟨h1, h2, h3, h4⟩ => ⟨t, rfl, rfl, h1, h2, h3, h4⟩⟩
        rw [hans]
        rcases hslot : b.data.blob t with ⟨address, stored⟩
        simp only [hslot]
        by_cases hsize : stored ≠ 0 ∧ size = stored
        · obtain ⟨h0, rfl⟩ := hsize
          rw [if_pos ⟨h0, rfl⟩]
          unfold getBlobSize memcpyWrapper
          dsimp only
          by_cases ha : address = 0
          · rw [if_pos ha]
            dsimp only
            rw [if_pos (by omega)]
            exact ⟨fun h => absurd h (by simp only [SUCCESS]; omega), fun h => absurd ha h.2.2.2.1⟩
          · rw [if_neg ha]
            dsimp only
            rw [if_neg (by decide)]
            by_cases hw : writeLow32 size (totalsize (blobAt m address)) = size
            · rw [if_pos hw, hw, if_neg (Nat.lt_irrefl _), if_neg (not_not.mpr rfl)]
              refine ⟨fun _ => ⟨hg, h0, rfl, ha, rfl⟩, fun _ => ?_⟩
              split <;> rfl
            · rw [if_neg hw]
              exact ⟨fun h => absurd h (by simp), fun h => absurd h.2.2.2.2 hw⟩
        · rw [if_neg hsize]
          exact ⟨fun h => absurd h (by simp), fun h => absurd ⟨h.2.2.1 ▸ h.2.1, h.2.2.1⟩ hsize⟩
  · rw [dtSelectReadBlob_guard hg]
    exact ⟨fun h => absurd h (by simp), fun h => absurd h.1 hg⟩

theorem dtSelectClose_iff {h : Nat} (hne : h ≠ 0) {b : Handle} {code : Int} {t : List HeapEvent}
    (hc : dtSelectClose h b = .ok (code, t)) : code = SUCCESS ↔ b.data_guard = DT_SELECT_LIBRARY_ID := by
  rw [← handleCheck_iff]
  unfold dtSelectClose at hc
  split at hc
  · rename_i hcond
    cases hc
    exact ⟨fun h => absurd h (by decide), fun h => absurd h.symm (hcond.resolve_left hne)⟩
  · rename_i hcond
    cases hc
    rw [not_or, not_not] at hcond
    exact ⟨fun _ => hcond.2.symm, fun _ => rfl⟩

/-- The call does not use a closed handle whose block still answers: the guard
word is gone, or the stored data do not fit the request. -/
def Spent (e : Entry) : Prop :=
  match e.call with
  | .open _ _ => True
  | .read h type ptr size _ m => e.before.status h = .closed →
    (e.before.block h).data_guard ≠ DT_SELECT_LIBRARY_ID ∨ ¬Answers (e.before.block h).data type ptr size m
  | .close h => e.before.status h = .closed → (e.before.block h).data_guard ≠ DT_SELECT_LIBRARY_ID

/-! ## Runs -/

/-- Handles that were returned are not null. -/
def NonNull (s : Life) : Prop := ∀ h, s.status h ≠ .unknown → h ≠ 0

theorem step_nonNull {s s' : Life} {c : Call} {code : Int} {t : List HeapEvent} (h : Step s c code t s')
    (hs : NonNull s) : NonNull s' := by
  cases h with
  | @openOk env a o _ _ ho _ _ _ =>
    intro h hne
    by_cases hp : h = handlePtr env
    · rw [hp]
      exact dtSelectOpen_ptr env a _ (by rw [ho]; rfl) rfl
    · exact hs h (by simpa [hp] using hne)
  | openFail _ _ => exact hs
  | read _ => exact hs
  | @close h _ _ hh _ =>
    intro q hne
    by_cases hq : q = h
    · rw [hq]
      exact hs h hh
    · exact hs q (by simpa [hq] using hne)

/-- The handle blocks that are allocated are those of the live handles. -/
def Accounts (held : Multiset Nat) (s : Life) : Prop :=
  ∀ h, Multiset.count h held = if s.status h = .live then 1 else 0

/-- A call meets the condition exactly when it is rejected on a closed handle. -/
theorem step_rejected {s s' : Life} {c : Call} {code : Int} {t : List HeapEvent} (h : Step s c code t s')
    (hs : NonNull s) : Rejected ⟨s, c, code, t⟩ ↔ Spent ⟨s, c, code, t⟩ := by
  unfold Rejected Spent
  cases h with
  | openOk _ _ _ _ => exact ⟨fun _ => trivial, fun _ h hc => (nomatch hc)⟩
  | openFail _ _ => exact ⟨fun _ => trivial, fun _ h hc => (nomatch hc)⟩
  | @read h type ptr size d m hh =>
    have hiff := dtSelectReadBlob_iff d m (s.block h) type ptr size
    constructor
    · intro hr hclosed
      have hne := hr h rfl hclosed
      by_contra hc
      rw [not_or, not_not, not_not] at hc
      exact hne (hiff.mpr hc)
    · rintro hr q hq hclosed hz
      cases hq
      rcases hr hclosed with hg | ha
      · exact hg (hiff.mp hz).1
      · exact ha (hiff.mp hz).2
  | @close h _ _ hh hc =>
    have hiff := dtSelectClose_iff (hs h hh) hc
    constructor
    · intro hr hclosed hg
      exact hr h rfl hclosed (hiff.mpr hg)
    · rintro hr q hq hclosed hz
      cases hq
      exact hr hclosed (hiff.mp hz)

/-- A call that is rejected on a closed handle keeps the account. -/
theorem step_accounts {s s' : Life} {c : Call} {code : Int} {t : List HeapEvent} (h : Step s c code t s')
    (hr : Rejected ⟨s, c, code, t⟩) {held : Multiset Nat} (ha : Accounts held s) :
    ∃ held', Ledger.apply (handleMove ⟨s, c, code, t⟩) held = some held' ∧ Accounts held' s' := by
  cases h with
  | @openOk env a o _ _ _ hlive _ _ =>
    refine ⟨handlePtr env ::ₘ held, by simp [handleMove, Ledger.apply], fun h => ?_⟩
    by_cases hp : h = handlePtr env
    · subst hp
      have h0 := ha (handlePtr env)
      rw [if_neg hlive] at h0
      simp [h0]
    · rw [Multiset.count_cons_of_ne hp]
      simpa [hp] using ha h
  | @openFail env a _ _ _ ho _ =>
    have hne : code ≠ SUCCESS := fun hc => by
      have := (dtSelectOpen_status env a _ (by rw [ho]; rfl)).mp hc
      cases this
    exact ⟨held, by simp [handleMove, hne, Ledger.apply], ha⟩
  | read _ => exact ⟨held, rfl, ha⟩
  | @close h _ _ hh _ =>
    by_cases hc : code = SUCCESS
    · have hlive : s.status h = .live := by
        cases hst : s.status h with
        | unknown => exact absurd hst hh
        | live => rfl
        | closed => exact absurd hc (hr h rfl hst)
      have h1 := ha h
      rw [if_pos hlive] at h1
      have hmem : h ∈ held := Multiset.count_pos.mp (by omega)
      refine ⟨held.erase h, by simp [handleMove, hc, Ledger.apply, hmem], fun q => ?_⟩
      by_cases hq : q = h
      · subst hq
        simp [hc, h1]
      · rw [Multiset.count_erase_of_ne hq]
        simpa [hq] using ha q
    · exact ⟨held, by simp [handleMove, hc, Ledger.apply], by simpa [hc] using ha⟩

theorem run_nonNull {s0 s : Life} {log : List Entry} (h : Run s0 log s) (hs : Fresh s0) : NonNull s := by
  induction h with
  | start => exact fun h hne => absurd (hs h) hne
  | step _ hstep ih => exact step_nonNull hstep ih

/-- In a run whose calls on closed handles are rejected, every handle block is
freed once. -/
theorem run_accounts {s0 s : Life} {log : List Entry} (h : Run s0 log s) (hs : Fresh s0)
    (hr : ∀ e ∈ log, Rejected e) : ∃ held, Ledger.run handleMove log 0 = some held ∧ Accounts held s := by
  induction h with
  | start => exact ⟨0, rfl, fun h => by simp [hs h]⟩
  | @step log s s' c code t _ hstep ih =>
    obtain ⟨held, hrun, ha⟩ := ih fun e he => hr e (List.mem_append_left _ he)
    obtain ⟨held', happly, ha'⟩ := step_accounts hstep (hr _ (by simp)) ha
    refine ⟨held', ?_, ha'⟩
    rw [Ledger.run_append, hrun, Option.bind_some]
    simp [Ledger.run, happly]

/-- Closed handles are rejected and no handle block is freed twice exactly when
no closed handle is used while its block still answers. -/
theorem lifecycle {s0 s : Life} {log : List Entry} (h : Run s0 log s) (hs : Fresh s0) :
    ((∀ e ∈ log, Rejected e) ∧ FreedOnce log) ↔ ∀ e ∈ log, Spent e := by
  have hiff : (∀ e ∈ log, Rejected e) ↔ ∀ e ∈ log, Spent e := by
    induction h with
    | start => exact ⟨fun _ _ he => (nomatch he), fun _ _ he => (nomatch he)⟩
    | @step log s s' c code t hrun hstep ih =>
      have hlast := step_rejected hstep (run_nonNull hrun hs)
      constructor
      · intro hr e he
        rcases List.mem_append.mp he with he | he
        · exact ih.mp (fun e he => hr e (List.mem_append_left _ he)) e he
        · rw [List.mem_singleton] at he
          subst he
          exact hlast.mp (hr _ (by simp))
      · intro hr e he
        rcases List.mem_append.mp he with he | he
        · exact ih.mpr (fun e he => hr e (List.mem_append_left _ he)) e he
        · rw [List.mem_singleton] at he
          subst he
          exact hlast.mpr (hr _ (by simp))
  refine ⟨fun hr => hiff.mp hr.1, fun hr => ⟨hiff.mpr hr, ?_⟩⟩
  obtain ⟨held, hrun, -⟩ := run_accounts h hs (hiff.mpr hr)
  unfold FreedOnce
  rw [hrun]
  rfl

/-- An allocator with a place of its own for each kind of request. -/
def roomyAlloc : Site → Nat → Nat
  | .handle, _ => 0x10000
  | .chipinfo _, _ => 0x11000
  | .printNames _ _, _ => 0x12000
  | .printBuffer _ _, _ => 0x13000
  | _, _ => 0x14000

def lifeEnv : Env := { imageEnv 0x1000 [baseBlob [] 6] false with alloc := roomyAlloc }

def lifeArgs : OpenArgs := ⟨0x1000, 128, some imageProp, none, 0⟩

def lifeOpened : Opened := ⟨⟨0x1000, 0x1000, 128, 0, 0, 0, 0⟩, 128, 0, 0⟩

def lifeEvents : List HeapEvent :=
  [.malloc 64 0x10000, .malloc 8 0x11000, .free 0x11000 8, .malloc 10 0x12000, .malloc 200 0x13000,
    .malloc 8 0x14000, .free 0x14000 8, .free 0x12000 10, .free 0x13000 200]

theorem lifeEnv_open : dtSelectOpen lifeEnv lifeArgs = .ok ((SUCCESS, some lifeOpened), lifeEvents) :=
  Traced.eq_ok (by decide +kernel) (by decide +kernel)

/-- Before the first call. -/
def lifeStart : Life := ⟨fun _ => ⟨0, initHandleData 0⟩, fun _ => .unknown⟩

/-- After the opening: the handle is at 0x10000. -/
def lifeOpen : Life :=
  ⟨fun h => if h = 0x10000 then lifeOpened.block else ⟨0, initHandleData 0⟩,
    fun h => if h = handlePtr lifeEnv then .live else .unknown⟩

/-- After closing the handle. -/
def lifeClosed : Life := ⟨lifeOpen.block, fun h => if h = 0x10000 ∧ SUCCESS = SUCCESS then .closed
    else lifeOpen.status h⟩

theorem life_open : Step lifeStart (.open lifeEnv lifeArgs) SUCCESS lifeEvents lifeOpen := by
  refine Step.openOk lifeEnv_open (by decide) (fun h hh => ?_) rfl
  have hne : h ≠ 0x10000 := by
    rintro rfl
    have := hh (0x10000, 64) (by decide)
    simp [Apart, HANDLE_SIZE] at this
  exact if_neg hne

theorem life_close : Step lifeOpen (.close 0x10000) SUCCESS [.free 0x10000 HANDLE_SIZE] lifeClosed :=
  Step.close (by decide) (Traced.eq_ok (by decide +kernel) (by decide +kernel))

/-- Closing a handle leaves its guard word, so the next closing frees it again. -/
theorem closed_twice {s s' : Life} {h : Nat} {t : List HeapEvent} (hc : Step s (.close h) SUCCESS t s')
    (hne : h ≠ 0) : Step s' (.close h) SUCCESS
    [.free h HANDLE_SIZE] ⟨s'.block, fun q => if q = h then .closed else s'.status q⟩ := by
  cases hc with
  | close hh hclose =>
    have hg := (dtSelectClose_iff hne hclose).mp rfl
    have hst : (fun q => if q = h ∧ SUCCESS = SUCCESS then Status.closed else s.status q) h ≠ .unknown := by simp
    have hagain : dtSelectClose h (s.block h) = .ok (SUCCESS, [.free h HANDLE_SIZE]) := by
      rw [hclose, (close_events hclose).1 rfl]
    have := Step.close (s := ⟨s.block, fun q => if q = h ∧ SUCCESS = SUCCESS then .closed else s.status q⟩) hst hagain
    simpa using this

/-- A handle can be closed twice: the second call succeeds and frees the block again. -/
theorem lifecycle_closed_twice : ¬∀ (s0 s : Life) (log : List Entry), Run s0 log s → Fresh s0 →
    (∀ e ∈ log, Rejected e) ∧ FreedOnce log := by
  intro h
  have hrun := (((Run.start : Run lifeStart [] lifeStart).step life_open).step life_close).step
    (closed_twice life_close (by decide))
  obtain ⟨hr, -⟩ := h _ _ _ hrun fun _ => rfl
  exact hr ⟨lifeClosed, .close 0x10000, SUCCESS, [.free 0x10000 HANDLE_SIZE]⟩ (by simp) 0x10000 rfl rfl rfl

theorem lifecycle_open_close :
    let log : List Entry := [⟨lifeStart, .open lifeEnv lifeArgs, SUCCESS, lifeEvents⟩,
      ⟨lifeOpen, .close 0x10000, SUCCESS, [.free 0x10000 HANDLE_SIZE]⟩]
    ((∀ e ∈ log, Rejected e) ∧ FreedOnce log) ↔ ∀ e ∈ log, Spent e :=
  lifecycle (((Run.start : Run lifeStart [] lifeStart).step life_open).step life_close) fun _ => rfl

end DTFramework.Select
