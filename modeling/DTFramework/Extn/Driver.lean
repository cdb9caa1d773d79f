import DTFramework.Extn.Slice

/-!
# Names and entries of `reg`

`fdt_get_name_index` searches a property value for a string, and `fdt_get_reg`
reads an entry of `reg` by its index or by its name in `reg-names`. The search
does not look for the end of the value before it looks at a string, and gives
`memcmp` the length of the name whatever is left of the value.

Results:

* `name_index_exact`: the search is right and stays in the value just when the
  name is found, or when the value ends in a NUL and its last string is no
  shorter than the name;
* `reg_index_exact`: the entry's position is an `int` product;
* `reg_name_exact`: a name that is not found leaves the caller's index in use.
-/
namespace DTFramework.Extn

open DTFramework.Fdt

/-! ## Lists of strings -/

/-- The NUL-terminated strings that lie wholly in a value. -/
def strings : List UInt8 → List Str
  | [] => []
  | b :: v =>
    if b = 0 then [] :: strings v
    else match strings v with
    | [] => []
    | s :: l => (b :: s) :: l

theorem strings_append {s : Str} (hs : 0 ∉ s) (v : List UInt8) : strings (s ++ 0 :: v) = s :: strings v := by
  induction s with
  | nil => simp [strings]
  | cons b s ih =>
    rw [List.mem_cons, not_or] at hs
    rw [List.cons_append, strings, if_neg (Ne.symm hs.1), ih hs.2]

theorem strings_unterminated {u : List UInt8} (hu : 0 ∉ u) : strings u = [] := by
  induction u with
  | nil => rfl
  | cons b u ih =>
    rw [List.mem_cons, not_or] at hu
    rw [strings, if_neg (Ne.symm hu.1), ih hu.2]

/-- A value has no NUL, or begins with a string. -/
theorem strings_cases (v : List UInt8) : 0 ∉ v ∨ ∃ s rest, v = s ++ 0 :: rest ∧ 0 ∉ s := by
  by_cases hv : (0 : UInt8) ∈ v
  · exact Or.inr (List.eq_append_cons_of_mem hv)
  · exact Or.inl hv

/-- Induction over the strings of a value, to the rest after the last NUL. -/
theorem strings_induct {motive : List UInt8 → Prop} (unterminated : ∀ u, 0 ∉ u → motive u)
    (string : ∀ s v, 0 ∉ s → motive v → motive (s ++ 0 :: v)) (v : List UInt8) : motive v := by
  induction hn : v.length using Nat.strong_induction_on generalizing v with
  | _ n ih =>
    rcases strings_cases v with hv | ⟨s, rest, rfl, hs⟩
    · exact unterminated v hv
    · refine string s rest hs (ih rest.length ?_ rest rfl)
      rw [← hn, List.length_append, List.length_cons]
      omega

theorem getLast_string (s : Str) {v : List UInt8} (hv : v ≠ []) : (s ++ 0 :: v).getLast? = v.getLast? := by
  rw [List.getLast?_append, List.getLast?_cons_of_ne_nil hv]
  cases hl : v.getLast? with
  | none => exact absurd (List.getLast?_eq_none_iff.mp hl) hv
  | some b => rfl

theorem strings_clean (v : List UInt8) : ∀ s ∈ strings v, 0 ∉ s := by
  induction v using strings_induct with
  | unterminated u hu => simp [strings_unterminated hu]
  | string s v hs ih =>
    rw [strings_append hs, List.forall_mem_cons]
    exact ⟨hs, ih⟩

theorem strings_length (v : List UInt8) : ∀ s ∈ strings v, s.length < v.length := by
  induction v using strings_induct with
  | unterminated u hu => simp [strings_unterminated hu]
  | string s v hs ih =>
    rw [strings_append hs, List.forall_mem_cons, List.length_append, List.length_cons]
    exact ⟨by omega, fun t ht => Nat.lt_of_lt_of_le (ih t ht) (by omega)⟩

/-! ## The search -/

/-- What `memcmp` of the bytes at `p` with `bytes` says: whether they are the same. -/
def memcmp (f : Blob) (p : Nat) : List UInt8 → Bool
  | [] => true
  | b :: bytes => if f.rd p = b then memcmp f (p + 1) bytes else false

/-- The bytes of the name that `memcmp` is given. A negative `mlen` is a huge
`size_t`: they are all of the name's, and more. -/
def comparedBytes (tname : Str) (mlen : Int) : List UInt8 :=
  if mlen < 0 then tname ++ [0] else (tname ++ [0]).take mlen.toNat

/-- How many bytes `memcmp` is given; it may look at all of them. -/
def comparedSize (mlen : Int) : Nat := (mlen % 2 ^ 64).toNat

/-- The loop of `fdt_get_name_index` at `sptr[i]`, with the number of bytes given
to `memcmp` and `strlen` so far, from the start of the value: the index of the
name, and that number in the end. A string that does not end before `INT_MAX`
takes `i` out of its range. mirrors libs/DTBExtnLib/DTBExtnLib_driver.c:112-121 -/
def nameLoop (f : Blob) (sptr len : Nat) (mlen : Int) (tname : Str) (i lindex seen : Nat) :
    Except Fault (Option Nat × Nat) :=
  let seen := max seen (i + comparedSize mlen)
  if memcmp f (sptr + i) (comparedBytes tname mlen) then
    -- all of the name is the same: a huge `mlen` goes on behind it
    if mlen < 0 then .error .outOfBounds else .ok (some lindex, seen)
  else match cstrWithin f.rd (sptr + i) (INT_MAX - i) with
  | none => .error .outOfBounds
  | some s =>
    let next := i + (s.length + 1)
    if _h : next < len then nameLoop f sptr len mlen tname next (lindex + 1) (max seen next)
    else .ok (none, max seen next)
termination_by len - i

/-- mirrors libs/DTBExtnLib/DTBExtnLib_driver.c:85-130: the status, `*index` if
it is written, and how many bytes, from the start of the value, it may look at. -/
def getNameIndex (d : DTBDefs) (f : Blob) (offset : Int) (pname tname : Str) : Except Fault (Int × Option Nat × Nat) :=
  match getProperty f offset pname with
  | .error len => .ok (lenError d len, none, 0)
  | .ok (data, len) =>
    if len < 0 then .ok (lenError d len, none, 0)
    else match nameLoop f data len.toNat (int32 (tname.length + 1)) tname 0 0 0 with
    | .error fault => .error fault
    | .ok (some lindex, seen) => .ok (FDT_ERR_QC_NOERROR, some lindex, seen)
    | .ok (none, seen) => .ok (-FDT_ERR_NOTFOUND, none, seen)

abbrev FDT_ERR_BADVALUE : Int := 15

/-- The loop of `fdt_stringlist_search`, from the string at `list` on. -/
def stringlistScan (f : Blob) (string : Str) (list stop idx : Nat) : Int :=
  if _h : list < stop then
    let length := (cstr f.rd list (stop - list)).length + 1
    if list + length > stop then -FDT_ERR_BADVALUE
    else if (length : Int) = int32 (string.length + 1) ∧ memcmp f list ((string ++ [0]).take length) then idx
    else stringlistScan f string (list + length) stop (idx + 1)
  else -FDT_ERR_NOTFOUND
termination_by stop - list

/-- mirrors libs/libfdt/fdt_ro.c:777-805 -/
def stringlistSearch (f : Blob) (nodeoffset : Int) (property string : Str) : Int :=
  match getprop f nodeoffset property with
  | .error length => length
  | .ok (list, length) => stringlistScan f string list (list + length.toNat) 0

/-! ### What `memcmp` and `strlen` see -/

section
variable {f : Blob} {q : Nat}

theorem bytesAt_cons (f : Blob) (q n : Nat) : bytesAt f q (n + 1) = f.rd q :: bytesAt f (q + 1) n := by
  unfold bytesAt
  rw [List.range_succ_eq_map, List.map_cons, List.map_map, Nat.add_zero]
  refine congrArg _ (List.map_congr_left fun i _ => ?_)
  simp only [Function.comp, Nat.succ_eq_add_one]
  congr 1
  omega

/-- The bytes after the first string. -/
theorem bytesAt_string {n : Nat} {s v : List UInt8} (h : bytesAt f q n = s ++ 0 :: v) :
    n = s.length + 1 + v.length ∧ bytesAt f (q + (s.length + 1)) v.length = v := by
  have hn : n = s.length + 1 + v.length := by
    have := congrArg List.length h
    rw [bytesAt_length, List.length_append, List.length_cons] at this
    omega
  refine ⟨hn, ?_⟩
  have hgroup := bytesAt_group f (p := q) (n := n) (k := s.length + 1) (w := v.length) (by omega)
  rw [← hgroup, h]
  simp

theorem memcmp_true {bytes : List UInt8} (h : memcmp f q bytes = true) : bytesAt f q bytes.length = bytes := by
  induction bytes generalizing q with
  | nil => rfl
  | cons b bytes ih =>
    unfold memcmp at h
    by_cases hb : f.rd q = b
    · rw [if_pos hb] at h
      rw [List.length_cons, bytesAt_cons, ih h, hb]
    · rw [if_neg hb] at h
      cases h

/-- At a string `memcmp` says whether it begins with the bytes. -/
theorem memcmp_string {n : Nat} {s v bytes : List UInt8} (h : bytesAt f q n = s ++ 0 :: v)
    (hbytes : 0 ∉ bytes.dropLast) : memcmp f q bytes = true ↔ bytes <+: s ++ [0] := by
  induction s generalizing q n bytes with
  | nil =>
    obtain ⟨rfl, -⟩ := bytesAt_string h
    rw [List.length_nil, Nat.zero_add, Nat.add_comm, bytesAt_cons, List.nil_append, List.cons.injEq] at h
    cases bytes with
    | nil => simp [memcmp]
    | cons b bytes =>
      unfold memcmp
      rw [h.1]
      by_cases hb : 0 = b
      · -- a NUL is the last byte
        have hnil : bytes = [] := by
          cases bytes with
          | nil => rfl
          | cons c bytes => simp [← hb] at hbytes
        subst hb hnil
        simp [memcmp]
      · rw [if_neg hb]
        simp [Ne.symm hb]
  | cons c s ih =>
    obtain ⟨rfl, -⟩ := bytesAt_string h
    rw [List.length_cons, show s.length + 1 + 1 + v.length = s.length + 1 + v.length + 1 by omega, bytesAt_cons,
      List.cons_append, List.cons.injEq] at h
    cases bytes with
    | nil => simp [memcmp]
    | cons b bytes =>
      unfold memcmp
      rw [h.1]
      by_cases hb : c = b
      · have hrest : 0 ∉ bytes.dropLast := by
          cases bytes with
          | nil => exact List.not_mem_nil
          | cons e bytes => exact fun hm => hbytes (List.mem_cons_of_mem _ hm)
        subst hb
        rw [if_pos rfl, List.cons_append, List.prefix_cons_inj]
        exact ih h.2 hrest
      · rw [if_neg hb, List.cons_append, List.cons_prefix_cons]
        exact ⟨fun hf => (nomatch hf), fun hp => absurd hp.1.symm hb⟩

theorem cstr_string {n m : Nat} {s v : List UInt8} (h : bytesAt f q n = s ++ 0 :: v) (hs : 0 ∉ s) (hm : s.length < m) :
    cstr f.rd q m = s := by
  induction s generalizing q n m with
  | nil =>
    obtain ⟨rfl, -⟩ := bytesAt_string h
    rw [List.length_nil, Nat.zero_add, Nat.add_comm, bytesAt_cons, List.nil_append, List.cons.injEq] at h
    cases m with
    | zero => rfl
    | succ m => rw [cstr, if_pos h.1]
  | cons c s ih =>
    obtain ⟨rfl, -⟩ := bytesAt_string h
    rw [List.length_cons, show s.length + 1 + 1 + v.length = s.length + 1 + v.length + 1 by omega, bytesAt_cons,
      List.cons_append, List.cons.injEq] at h
    rw [List.mem_cons, not_or] at hs
    cases m with
    | zero => exact absurd hm (Nat.not_lt_zero _)
    | succ m =>
      rw [cstr, if_neg (h.1 ▸ Ne.symm hs.1), h.1, ih h.2 hs.2 (by rw [List.length_cons] at hm; omega)]

/-- `strlen` stops at a NUL. -/
theorem cstr_stop {rd : Nat → UInt8} {p n : Nat} (h : (cstr rd p n).length < n) :
    rd (p + (cstr rd p n).length) = 0 := by
  induction n generalizing p with
  | zero => exact absurd h (Nat.not_lt_zero _)
  | succ n ih =>
    unfold cstr at h ⊢
    by_cases hz : rd p = 0
    · rw [if_pos hz]
      exact hz
    · rw [if_neg hz] at h ⊢
      rw [List.length_cons] at h ⊢
      have := ih (p := p + 1) (by omega)
      rwa [Nat.add_assoc, Nat.add_comm 1] at this

theorem cstr_unterminated {m n : Nat} {s : Str} (h : 0 ∉ bytesAt f q m) (hs : cstrWithin f.rd q n = some s) :
    m ≤ s.length := by
  unfold cstrWithin at hs
  split at hs
  · rename_i hlt
    cases hs
    by_contra hm
    refine h (List.mem_map.mpr ⟨_, List.mem_range.mpr (Nat.not_le.mp hm), cstr_stop hlt⟩)
  · cases hs

end

/-! ### What the search finds -/

section
variable {d : DTBDefs} {f : Blob} {o : Int} {pname tname : Str} {p : Nat} {len : Int} {mlen : Int}
    {i lindex seen : Nat}

/-- `memcmp` finds the compared bytes at this string. -/
def Hit (bytes : List UInt8) (s : Str) : Bool := decide (bytes <+: s ++ [0])

theorem nameLoop_hit (hc : memcmp f (p + i) (comparedBytes tname mlen) = true) (hm : ¬mlen < 0) {n : Nat} :
    nameLoop f p n mlen tname i lindex seen = .ok (some lindex, max seen (i + comparedSize mlen)) := by
  rw [nameLoop, if_pos hc, if_neg hm]

theorem nameLoop_miss (hc : ¬memcmp f (p + i) (comparedBytes tname mlen) = true) {n : Nat} :
    nameLoop f p n mlen tname i lindex seen = match cstrWithin f.rd (p + i) (INT_MAX - i) with
      | none => .error .outOfBounds
      | some s =>
        if i + (s.length + 1) < n then
          nameLoop f p n mlen tname (i + (s.length + 1)) (lindex + 1)
            (max (max seen (i + comparedSize mlen)) (i + (s.length + 1)))
        else .ok (none, max (max seen (i + comparedSize mlen)) (i + (s.length + 1))) := by
  rw [nameLoop, if_neg hc]
  rfl

/-- The last string of a value, with its NUL, is no shorter than `size` bytes. -/
def Fits (size : Nat) (v : List UInt8) : Prop := ∀ s, (strings v).getLast? = some s → size ≤ s.length + 1

theorem strings_ne_nil {v : List UInt8} (h : v.getLast? = some 0) : strings v ≠ [] := by
  induction v using strings_induct with
  | unterminated u hu => exact absurd (List.mem_of_getLast? h) hu
  | string s v hs ih => simp [strings_append hs]

theorem fits_string {size : Nat} {s : Str} {v : List UInt8} (hs : 0 ∉ s) (hv : v.getLast? = some 0) :
    Fits size (s ++ 0 :: v) ↔ Fits size v := by
  unfold Fits
  rw [strings_append hs, List.getLast?_cons_of_ne_nil (strings_ne_nil hv)]

theorem Fits.le {size : Nat} {v : List UInt8} (h : Fits size v) (hv : v.getLast? = some 0) : size ≤ v.length := by
  obtain ⟨t, ht⟩ := Option.isSome_iff_exists.mp (List.getLast?_isSome.mpr (strings_ne_nil hv))
  have := strings_length v t (List.mem_of_getLast? ht)
  have := h t ht
  omega

/-- What the search of the rest `v` of a value comes to, with `n` bytes in all,
of which `seen` were looked at: the first string that is hit, in the value; else
none when the rest ends in a NUL, in the value if the last string is no shorter
than what is compared. A rest that does not is searched on past its end. -/
def LoopSpec (n lindex seen size : Nat) (bytes v : List UInt8) (r : Except Fault (Option Nat × Nat)) : Prop :=
  match (strings v).findIdx? (Hit bytes) with
  | some k => ∃ seen', (seen' ≤ n ↔ seen ≤ n) ∧ r = .ok (some (lindex + k), seen')
  | none =>
    if v.getLast? = some 0 then ∃ seen', (seen' ≤ n ↔ seen ≤ n ∧ Fits size v) ∧ r = .ok (none, seen')
    else ∀ index seen', r = .ok (index, seen') → n < seen' ∨ (index.isSome ∧ 0 ∉ bytes)

/-- What is hit is in the value. -/
theorem hit_length {bytes v : List UInt8} {k : Nat} (h : (strings v).findIdx? (Hit bytes) = some k) :
    bytes.length ≤ v.length := by
  obtain ⟨hk, hhit, -⟩ := List.findIdx?_eq_some_iff_getElem.mp h
  have hle := (of_decide_eq_true hhit).length_le
  have hlt := strings_length v _ (List.getElem_mem hk)
  rw [List.length_append, List.length_singleton] at hle
  omega

/-- A string that is not hit is passed by. -/
theorem LoopSpec.string {n i size : Nat} {bytes v : List UInt8} {s : Str} {r : Except Fault (Option Nat × Nat)}
    (h : LoopSpec n (lindex + 1) (max (max seen (i + size)) (i + (s.length + 1))) size bytes v r) (hs : 0 ∉ s)
    (hmiss : ¬bytes <+: s ++ [0]) (hv : v ≠ []) (hn : n = i + (s.length + 1) + v.length)
    (hsize : bytes.length ≤ n → size = bytes.length) : LoopSpec n lindex seen size bytes (s ++ 0 :: v) r := by
  have hhit : Hit bytes s = false := decide_eq_false hmiss
  unfold LoopSpec at h ⊢
  rw [strings_append hs, List.findIdx?_cons, getLast_string s hv, hhit]
  cases hfind : (strings v).findIdx? (Hit bytes) with
  | none =>
    rw [hfind] at h
    simp only [Bool.false_eq_true, if_false, Option.map_none] at h ⊢
    by_cases hlast : v.getLast? = some 0
    · rw [if_pos hlast] at h ⊢
      obtain ⟨seen', hseen, hr⟩ := h
      refine ⟨seen', ?_, hr⟩
      rw [hseen, fits_string hs hlast]
      constructor
      · rintro ⟨hle, hfits⟩
        exact ⟨by omega, hfits⟩
      · rintro ⟨hle, hfits⟩
        have := hfits.le hlast
        exact ⟨by omega, hfits⟩
    · rw [if_neg hlast] at h ⊢
      exact h
  | some k =>
    rw [hfind] at h
    obtain ⟨seen', hseen, hr⟩ := h
    have hle := hit_length hfind
    have hsize := hsize (by omega)
    exact ⟨seen', by rw [hseen]; omega, by rw [hr, Nat.add_assoc, Nat.add_comm 1]⟩

theorem nameLoop_spec {n : Nat} (hn : n ≤ INT_MAX) (hclean : 0 ∉ (comparedBytes tname mlen).dropLast)
    (hlong : mlen < 0 → INT_MAX < (comparedBytes tname mlen).length)
    (hsize : ¬mlen < 0 → comparedSize mlen = (comparedBytes tname mlen).length) (v : List UInt8) :
    ∀ i lindex seen, i ≤ n → bytesAt f (p + i) (n - i) = v →
      LoopSpec n lindex seen (comparedSize mlen) (comparedBytes tname mlen) v
        (nameLoop f p n mlen tname i lindex seen) := by
  generalize hb : comparedBytes tname mlen = bytes at *
  have hshort (h : bytes.length ≤ n) : comparedSize mlen = bytes.length := by
    refine hsize fun hm => ?_
    have := hlong hm
    omega
  induction v using strings_induct with
  | unterminated u hu =>
    intro i lindex seen hi hv
    have hlast : u.getLast? ≠ some 0 := fun h => hu (List.mem_of_getLast? h)
    unfold LoopSpec
    rw [strings_unterminated hu, List.findIdx?_nil]
    simp only
    rw [if_neg hlast]
    intro index s' hr
    by_cases hc : memcmp f (p + i) (comparedBytes tname mlen) = true
    · have heq := memcmp_true hc
      rw [nameLoop, if_pos hc] at hr
      split at hr
      · cases hr
      · rename_i hm
        cases hr
        by_cases hz : 0 ∈ bytes
        · refine Or.inl ?_
          -- the bytes that are the same hold a NUL, so they go past the value
          have hpast : n - i < bytes.length := by
            by_contra hle
            refine hu ?_
            rw [← hv, ← Nat.add_sub_cancel' (Nat.not_lt.mp hle)]
            rw [hb] at heq
            rw [← heq] at hz
            obtain ⟨j, hj, hjz⟩ := List.mem_map.mp hz
            exact List.mem_map.mpr ⟨j, List.mem_range.mpr (by have := List.mem_range.mp hj; omega), hjz⟩
          rw [hsize hm]
          omega
        · exact Or.inr ⟨rfl, hz⟩
    · rw [nameLoop_miss hc] at hr
      cases hs : cstrWithin f.rd (p + i) (INT_MAX - i) with
      | none => rw [hs] at hr; cases hr
      | some s =>
        have hle := cstr_unterminated (hv.symm ▸ hu) hs
        rw [hs] at hr
        simp only at hr
        rw [if_neg (by omega)] at hr
        cases hr
        exact Or.inl (by omega)
  | string s v hs ih =>
    intro i lindex seen hi hv
    obtain ⟨hlen, hrest⟩ := bytesAt_string hv
    have hiff := memcmp_string hv hclean
    by_cases hc : bytes <+: s ++ [0]
    · have hle := hc.length_le
      rw [List.length_append, List.length_singleton] at hle
      have hm : ¬mlen < 0 := fun hm => by
        have := hlong hm
        omega
      rw [nameLoop_hit (hb.symm ▸ hiff.mpr hc) hm]
      unfold LoopSpec
      rw [strings_append hs, List.findIdx?_cons]
      simp only [Hit, hc, decide_true, if_true]
      exact ⟨_, by rw [hsize hm]; omega, rfl⟩
    · have hstr : cstrWithin f.rd (p + i) (INT_MAX - i) = some s := by
        unfold cstrWithin
        rw [cstr_string hv hs (by omega), if_pos (by omega)]
      rw [nameLoop_miss (hb.symm ▸ fun h => hc (hiff.mp h)), hstr]
      simp only
      by_cases hnext : i + (s.length + 1) < n
      · rw [if_pos hnext]
        have hv' : v ≠ [] := fun h => by
          rw [h, List.length_nil] at hlen
          omega
        have hlen' : n - (i + (s.length + 1)) = v.length := by omega
        exact (ih _ (lindex + 1) _ (by omega) (by rw [hlen', ← Nat.add_assoc, hrest])).string hs hc hv'
          (by omega) hshort
      · have hv' : v = [] := List.eq_nil_of_length_eq_zero (by omega)
        subst hv'
        rw [if_neg hnext]
        unfold LoopSpec Fits
        rw [strings_append hs, List.findIdx?_cons]
        simp only [Hit, hc, decide_false, strings, List.findIdx?_nil, Option.map_none, List.getLast?_append,
          List.getLast?_singleton, Option.some_or, Bool.false_eq_true, if_false, if_true, Option.some.injEq,
          forall_eq']
        exact ⟨_, by omega, rfl⟩

/-! ### When the search is exact -/

/-- The bytes compared for a name. Its length is kept in an `int`. -/
def nameBytes (tname : Str) : List UInt8 := comparedBytes tname (int32 (tname.length + 1))

theorem nameBytes_short (h : tname.length < INT_MAX) : nameBytes tname = tname ++ [0] := by
  simp only [INT_MAX] at h
  unfold nameBytes comparedBytes
  rw [int32_of_lt (by omega) (by omega), if_neg (by omega)]
  exact List.take_of_length_le (by simp)

theorem nameBytes_clean (ht : 0 ∉ tname) : 0 ∉ (nameBytes tname).dropLast := by
  have hsub : (nameBytes tname).dropLast <+: tname := by
    unfold nameBytes comparedBytes
    split
    · simp
    · rw [List.dropLast_eq_take, List.take_take, List.length_take, List.length_append, List.length_singleton,
        List.take_append_of_le_length (by omega)]
      exact List.take_prefix _ _
  exact fun h => ht (hsub.subset h)

theorem nameBytes_long (h : int32 (tname.length + 1) < 0) : INT_MAX < (nameBytes tname).length := by
  unfold nameBytes comparedBytes
  rw [if_pos h, List.length_append, List.length_singleton]
  unfold int32 at h
  simp only [INT_MAX]
  omega

/-- The number of bytes compared for a name. -/
def nameCompared (tname : Str) : Nat := comparedSize (int32 (tname.length + 1))

theorem nameCompared_eq (h : ¬int32 (tname.length + 1) < 0) : nameCompared tname = (nameBytes tname).length := by
  unfold nameCompared comparedSize nameBytes comparedBytes
  rw [if_neg h, List.length_take, List.length_append, List.length_singleton]
  unfold int32 at h ⊢
  omega

/-- A name shorter than the value is found where it is. -/
theorem findIdx_hit {l : List Str} (hl : ∀ s ∈ l, 0 ∉ s) :
    l.findIdx? (Hit (tname ++ [0])) = l.idxOf? tname := by
  induction l with
  | nil => rfl
  | cons s l ih =>
    rw [List.forall_mem_cons] at hl
    rw [List.findIdx?_cons, List.idxOf?_cons, ih hl.2]
    have hhit : Hit (tname ++ [0]) s = (s == tname) := by
      rw [Bool.eq_iff_iff, Hit, decide_eq_true_iff, beq_iff_eq]
      constructor
      · intro hp
        rcases List.prefix_concat_iff.mp hp with heq | hin
        · exact (List.append_cancel_right heq).symm
        · exact absurd (hin.subset (by simp)) hl.1
      · rintro rfl
        exact List.prefix_rfl
    rw [hhit]

/-- The search of a value says where its first string equal to the name is, or
that there is none, and nothing past the value is given to `memcmp` or `strlen`. -/
def SearchExact (v : List UInt8) (tname : Str) (r : Except Fault (Int × Option Nat × Nat)) : Prop :=
  ∃ status index seen, r = .ok (status, index, seen) ∧ seen ≤ v.length ∧
    (∀ k, status = FDT_ERR_QC_NOERROR ∧ index = some k ↔ (strings v).idxOf? tname = some k) ∧
    ((strings v).idxOf? tname = none → status ≠ FDT_ERR_QC_NOERROR)

/-- The name is in the list; or the value ends in a NUL, the compared bytes are at
no string of it, and there are no more of them than the last string has. Before
version 16 `fdt_get_property` refuses the blob. -/
def Searchable (f : Blob) (v : List UInt8) (tname : Str) : Prop :=
  if version f < 0x10 then tname ∉ strings v
  else tname ∈ strings v ∨
    (v.getLast? = some 0 ∧ (∀ s ∈ strings v, ¬nameBytes tname <+: s ++ [0]) ∧ Fits (nameCompared tname) v)

theorem PropertyAt.getProperty (h : PropertyAt f o pname p len) (hv : ¬version f < 0x10) :
    getProperty f o pname = .ok (p, len) := by
  have hget := h.getprop
  unfold Fdt.getprop at hget
  unfold Fdt.getProperty
  rw [if_neg hv]
  cases hn : getPropertyNamelen f o pname with
  | error e => rw [hn] at hget; cases hget
  | ok off =>
    rw [hn] at hget
    simp only [Except.ok.injEq, Prod.mk.injEq] at hget ⊢
    rw [← hget.1]
    unfold propValue
    exact ⟨(if_neg (fun hc => hv hc.1)).symm, hget.2⟩

theorem PropertyAt.loop_spec (h : PropertyAt f o pname p len) (ht : 0 ∉ tname) :
    LoopSpec len.toNat 0 0 (nameCompared tname) (nameBytes tname) (bytesAt f p len.toNat)
      (nameLoop f p len.toNat (int32 (tname.length + 1)) tname 0 0 0) := by
  have hle : len.toNat ≤ INT_MAX := by
    have := h.len_le
    omega
  exact nameLoop_spec hle (nameBytes_clean ht) nameBytes_long nameCompared_eq _ 0 0 0 (Nat.zero_le _) rfl

theorem getNameIndex_eq (h : PropertyAt f o pname p len) (hv : ¬version f < 0x10) :
    getNameIndex d f o pname tname = match nameLoop f p len.toNat (int32 (tname.length + 1)) tname 0 0 0 with
      | .error fault => .error fault
      | .ok (some lindex, seen) => .ok (FDT_ERR_QC_NOERROR, some lindex, seen)
      | .ok (none, seen) => .ok (-FDT_ERR_NOTFOUND, none, seen) := by
  unfold getNameIndex
  rw [h.getProperty hv]
  simp only
  rw [if_neg (Int.not_lt.mpr h.len_nonneg)]

/-- A name of the list is found where it is first. -/
theorem PropertyAt.found (h : PropertyAt f o pname p len) (ht : 0 ∉ tname) (hv : ¬version f < 0x10) {k : Nat}
    (hk : (strings (bytesAt f p len.toNat)).idxOf? tname = some k) :
    ∃ seen, seen ≤ len.toNat ∧ getNameIndex d f o pname tname = .ok (FDT_ERR_QC_NOERROR, some k, seen) := by
  have hmem : tname ∈ strings (bytesAt f p len.toNat) := by
    rw [← List.isSome_idxOf?, hk]
    rfl
  have hshort := strings_length _ tname hmem
  have hle := h.len_le
  rw [bytesAt_length] at hshort
  have hspec := h.loop_spec ht
  unfold LoopSpec at hspec
  rw [nameBytes_short (by omega), findIdx_hit (strings_clean _), hk] at hspec
  obtain ⟨seen, hseen, hr⟩ := hspec
  rw [getNameIndex_eq h hv, hr, Nat.zero_add]
  exact ⟨seen, hseen.mpr (Nat.zero_le _), rfl⟩

/-- An error says that the loop has come to its end. -/
theorem getNameIndex_error (h : PropertyAt f o pname p len) (hv : ¬version f < 0x10) {status : Int}
    {index : Option Nat}
    (hr : getNameIndex d f o pname tname = .ok (status, index, seen)) (hstatus : status ≠ FDT_ERR_QC_NOERROR) :
    nameLoop f p len.toNat (int32 (tname.length + 1)) tname 0 0 0 = .ok (none, seen) := by
  rw [getNameIndex_eq h hv] at hr
  split at hr
  · cases hr
  · cases hr
    exact absurd rfl hstatus
  · rename_i hloop
    cases hr
    exact hloop

/-- A search for a name that is not in the list ends in the value just when the
value ends in a NUL, and the compared bytes are at no string and no more than
the last one has. -/
theorem PropertyAt.absent (h : PropertyAt f o pname p len) (ht : 0 ∉ tname) :
    (∃ seen, seen ≤ len.toNat ∧ nameLoop f p len.toNat (int32 (tname.length + 1)) tname 0 0 0 = .ok (none, seen)) ↔
      ((bytesAt f p len.toNat).getLast? = some 0 ∧
        (∀ s ∈ strings (bytesAt f p len.toNat), ¬nameBytes tname <+: s ++ [0]) ∧
        Fits (nameCompared tname) (bytesAt f p len.toNat)) := by
  have hspec := h.loop_spec ht
  unfold LoopSpec at hspec
  cases hfind : (strings (bytesAt f p len.toNat)).findIdx? (Hit (nameBytes tname)) with
  | some k =>
    rw [hfind] at hspec
    obtain ⟨seen, -, hr⟩ := hspec
    obtain ⟨hk, hhit, -⟩ := List.findIdx?_eq_some_iff_getElem.mp hfind
    rw [hr]
    exact ⟨fun ⟨_, _, hc⟩ => (nomatch hc), fun hc => absurd (of_decide_eq_true hhit) (hc.2.1 _ (List.getElem_mem hk))⟩
  | none =>
    rw [hfind] at hspec
    have hmiss : ∀ s ∈ strings (bytesAt f p len.toNat), ¬nameBytes tname <+: s ++ [0] := fun s hs =>
      of_decide_eq_false (List.findIdx?_eq_none_iff.mp hfind s hs)
    simp only at hspec
    split at hspec
    · rename_i hlast
      obtain ⟨seen, hseen, hr⟩ := hspec
      refine ⟨fun ⟨s', hle, hr'⟩ => ?_, fun hc => ⟨seen, hseen.mpr ⟨Nat.zero_le _, hc.2.2⟩, hr⟩⟩
      cases hr.symm.trans hr'
      exact ⟨hlast, hmiss, (hseen.mp hle).2⟩
    · rename_i hlast
      refine ⟨fun ⟨seen, hseen, hr⟩ => ?_, fun hc => absurd hc.1 hlast⟩
      rcases hspec none seen hr with hc | hc
      · exact absurd hseen (Nat.not_le.mpr hc)
      · exact absurd hc.1 (by simp)

/-- A value whose last string is terminated. -/
def Terminated (v : List UInt8) : Prop := v = [] ∨ v.getLast? = some 0

/-- The answer of `fdt_stringlist_search`. -/
def searchAnswer (lindex : Nat) : Option Nat → Int
  | some k => ((lindex + k : Nat) : Int)
  | none => -FDT_ERR_NOTFOUND

/-- `fdt_stringlist_search` compares a string of the list with the whole name. -/
theorem stringlist_equal {q n : Nat} {s v : List UInt8} (hv : bytesAt f q n = s ++ 0 :: v) (hs : 0 ∉ s)
    (ht : 0 ∉ tname)
    (hn : n ≤ INT_MAX) : ((s.length + 1 : Nat) : Int) = int32 (tname.length + 1) ∧
      memcmp f q ((tname ++ [0]).take (s.length + 1)) = true ↔ s = tname := by
  have hlen := (bytesAt_string hv).1
  constructor
  · rintro ⟨hint, hcmp⟩
    have heq := memcmp_true hcmp
    have hle : s.length ≤ tname.length := by
      unfold int32 at hint
      omega
    have htake : ((tname ++ [0]).take (s.length + 1)).length = s.length + 1 := by
      rw [List.length_take, List.length_append, List.length_singleton]
      omega
    have hhere : bytesAt f q (s.length + 1) = s ++ [0] := by
      have hgroup := bytesAt_group f (p := q) (n := n) (k := 0) (w := s.length + 1) (by omega)
      rw [List.drop_zero] at hgroup
      show bytesAt f (q + 0) (s.length + 1) = s ++ [0]
      rw [← hgroup, hv, show s ++ 0 :: v = (s ++ [0]) ++ v by simp]
      exact List.take_left' (by simp)
    rw [htake, hhere] at heq
    have hp : s ++ [0] <+: tname ++ [0] := heq ▸ List.take_prefix _ _
    rcases List.prefix_concat_iff.mp hp with hc | hc
    · exact List.append_cancel_right hc
    · exact absurd (hc.subset (by simp)) ht
  · rintro rfl
    simp only [INT_MAX] at hn
    refine ⟨(int32_of_lt (by omega) (by omega)).symm, ?_⟩
    rw [List.take_of_length_le (by simp)]
    exact (memcmp_string hv (by simpa using hs)).mpr (by simp)

theorem stringlistScan_exact (ht : 0 ∉ tname) {n : Nat} (hn : n ≤ INT_MAX) {v : List UInt8} (hterm : Terminated v) :
    ∀ q m lindex, m ≤ n → bytesAt f q m = v →
      stringlistScan f tname q (q + m) lindex = searchAnswer lindex ((strings v).idxOf? tname) := by
  induction v using strings_induct with
  | unterminated u hu =>
    intro q m lindex _ hv
    have hnil : u = [] := hterm.resolve_right fun h => hu (List.mem_of_getLast? h)
    have hm : m = 0 := by rw [← bytesAt_length f q m, hv, hnil, List.length_nil]
    rw [stringlistScan, dif_neg (by omega), strings_unterminated hu]
    rfl
  | string s v hs ih =>
    intro q m lindex hm hv
    obtain ⟨hlen, hrest⟩ := bytesAt_string hv
    have hcstr : cstr f.rd q (q + m - q) = s := cstr_string hv hs (by omega)
    have hterm' : Terminated v := by
      by_cases hnil : v = []
      · exact Or.inl hnil
      · rcases hterm with hc | hc
        · simp at hc
        · exact Or.inr (getLast_string s hnil ▸ hc)
    rw [stringlistScan, dif_pos (by omega)]
    simp only [hcstr]
    rw [if_neg (by omega), strings_append hs, List.idxOf?_cons]
    by_cases heq : s = tname
    · rw [if_pos ((stringlist_equal hv hs ht (Nat.le_trans hm hn)).mpr heq), if_pos (by simpa using heq)]
      rfl
    · rw [if_neg fun hc => heq ((stringlist_equal hv hs ht (Nat.le_trans hm hn)).mp hc), if_neg (by simpa using heq),
        show q + m = q + (s.length + 1) + v.length by omega, ih hterm' _ _ _ (by omega) hrest]
      cases (strings v).idxOf? tname with
      | none => rfl
      | some k => simp only [Option.map_some, searchAnswer]; omega

theorem search_exact_iff (h : PropertyAt f o pname p len) (ht : 0 ∉ tname) :
    SearchExact (bytesAt f p len.toNat) tname (getNameIndex d f o pname tname) ↔
      Searchable f (bytesAt f p len.toNat) tname := by
  unfold SearchExact Searchable
  by_cases hv : version f < 0x10
  · have hget : getNameIndex d f o pname tname = .ok (-FDT_ERR_BADVERSION, none, 0) := by
      unfold getNameIndex getProperty
      rw [if_pos hv]
      rfl
    rw [if_pos hv, hget]
    constructor
    · rintro ⟨_, _, _, heq, -, hiff, -⟩ hmem
      cases heq
      obtain ⟨k, hk⟩ := Option.isSome_iff_exists.mp (List.isSome_idxOf?.mpr hmem)
      exact absurd ((hiff k).mpr hk).1 (by decide)
    · intro hmem
      have hnone := List.idxOf?_eq_none_iff.mpr hmem
      refine ⟨_, _, _, rfl, Nat.zero_le _, fun k => ?_, fun _ => by decide⟩
      rw [hnone]
      exact ⟨fun hc => absurd hc.1 (by decide), fun hc => (nomatch hc)⟩
  · rw [if_neg hv]
    by_cases hmem : tname ∈ strings (bytesAt f p len.toNat)
    · obtain ⟨k, hk⟩ := Option.isSome_iff_exists.mp (List.isSome_idxOf?.mpr hmem)
      obtain ⟨seen, hseen, hget⟩ := h.found (d := d) ht hv hk
      refine ⟨fun _ => Or.inl hmem, fun _ => ⟨_, _, seen, hget, by rwa [bytesAt_length], fun j => ?_, fun hc => ?_⟩⟩
      · rw [hk]
        exact ⟨fun hc => hc.2, fun hc => ⟨rfl, hc⟩⟩
      · rw [hk] at hc
        cases hc
    · have hnone := List.idxOf?_eq_none_iff.mpr hmem
      rw [hnone, or_iff_right hmem, ← h.absent ht]
      constructor
      · rintro ⟨status, index, seen, hget, hseen, hiff, hst⟩
        rw [bytesAt_length] at hseen
        exact ⟨seen, hseen, getNameIndex_error h hv hget (hst rfl)⟩
      · rintro ⟨seen, hseen, hr⟩
        have hget : getNameIndex d f o pname tname = .ok (-FDT_ERR_NOTFOUND, none, seen) := by
          rw [getNameIndex_eq h hv, hr]
        refine ⟨_, _, seen, hget, by rwa [bytesAt_length], fun k => ⟨fun hc => absurd hc.1 (by decide), fun hc => ?_⟩,
          fun _ => by decide⟩
        cases hc

/-- `fdt_get_name_index` is exact just when the name is in the list, or the value
ends in a NUL and its last string is no shorter than the name. On every list that
is terminated `fdt_stringlist_search` is. -/
theorem name_index_exact (h : PropertyAt f o pname p len) (ht : 0 ∉ tname) :
    (SearchExact (bytesAt f p len.toNat) tname (getNameIndex d f o pname tname) ↔
      Searchable f (bytesAt f p len.toNat) tname) ∧
    (Terminated (bytesAt f p len.toNat) → stringlistSearch f o pname tname =
      searchAnswer 0 ((strings (bytesAt f p len.toNat)).idxOf? tname)) := by
  refine ⟨?_, fun hterm => ?_⟩
  · exact search_exact_iff h ht
  · have hle := h.len_le
    unfold stringlistSearch
    rw [h.getprop]
    exact stringlistScan_exact ht (n := len.toNat) (by omega) hterm p len.toNat 0 (Nat.le_refl _) rfl

end

/-! ## Entries of `reg` -/

/-- The constants of `DTBDefs.h` that `fdt_get_reg` needs besides. -/
structure DriverDefs extends DTBDefs where
  FDT_ERR_QC_REGIDX : Int
  FDT_ERR_QC_TARGETIDX : Int
  FDT_ERR_QC_NOTSUPPORTED : Int
  /-- The library extends the standard error codes. -/
  driver_extends_std : ∀ c ∈ [FDT_ERR_QC_REGIDX, FDT_ERR_QC_TARGETIDX, FDT_ERR_QC_NOTSUPPORTED], FDT_ERR_MAX < c
  idx_ne : FDT_ERR_QC_REGIDX ≠ FDT_ERR_QC_TARGETIDX

abbrev SIZE_BLOB : Int := -1
abbrev SIZE_NIL : Int := 0
abbrev SIZE_32 : Int := 1
abbrev SIZE_64 : Int := 2

/-- "reg-names" -/
abbrev REG_NAMES : Str := [114, 101, 103, 45, 110, 97, 109, 101, 115]

/-- What `fdt_get_reg` comes to: its status, the outputs if they are written,
and the cells of `reg` it reads. -/
structure RegResult where
  status : Int
  out : Option (Nat × Nat) := none
  cells : List Nat := []
deriving DecidableEq, Repr

/-- The value of `reg` and its length, or the error code. -/
def regProperty (d : DTBDefs) (f : Blob) (offset : Int) : Except Int (Nat × Nat) :=
  match getprop f offset REG with
  | .error len => .error (lenError d len)
  | .ok (p, len) => if len < 0 then .error (lenError d len) else .ok (p, len.toNat)

/-- The value of as many cells as the code says, at a cell of `reg`. -/
def readCells (f : Blob) (p cell : Nat) (code : Int) : Nat :=
  if code = SIZE_32 then be32 f (p + 4 * cell)
  else if code = SIZE_64 then fdt64ToCpu (load32 f (p + 4 * cell) ||| load32 f (p + 4 * cell + 4) <<< 32)
  else 0

/-- Steps 1 to 3 of `fdt_get_reg`, for a checked index. The position of the
entry is an `int`; before the value it is not in the blob.
mirrors libs/DTBExtnLib/DTBExtnLib_driver.c:246-305 -/
def readEntry (d : DriverDefs) (f : Blob) (offset reg_index addr_code size_code : Int) : Except Fault RegResult :=
  match regProperty d.toDTBDefs f offset with
  | .error e => .ok { status := e }
  | .ok (p, len) =>
    let reg_count : Int := len / 4
    let index_size := addr_code + size_code
    let target_idx := int32 (index_size * reg_index)
    if target_idx > reg_count - index_size then .ok { status := -d.FDT_ERR_QC_TARGETIDX }
    else if target_idx < 0 then .error .outOfBounds
    else
      let target := target_idx.toNat
      .ok
        { status := FDT_ERR_QC_NOERROR
          out := some (readCells f p target addr_code, readCells f p (target + addr_code.toNat) size_code)
          cells := (List.range index_size.toNat).map fun i => target + i }

/-- mirrors libs/DTBExtnLib/DTBExtnLib_driver.c:153-313, for non-null outputs.
An index that the name is not found for stays the caller's. -/
def getReg (d : DriverDefs) (f : Blob) (offset : Int) (reg_name : Option Str) (reg_index addr_code size_code : Int) :
    Except Fault RegResult :=
  if addr_code = SIZE_BLOB ∨ size_code = SIZE_BLOB then .ok { status := -d.FDT_ERR_QC_NOTSUPPORTED }
  else if ¬(addr_code = SIZE_32 ∨ addr_code = SIZE_64) then .ok { status := -d.FDT_ERR_QC_INPUT_ARG_ERR }
  else if ¬(size_code = SIZE_NIL ∨ size_code = SIZE_32 ∨ size_code = SIZE_64) then
    .ok { status := -d.FDT_ERR_QC_INPUT_ARG_ERR }
  else
    let checked (reg_index : Int) : Except Fault RegResult :=
      if reg_index < 0 then .ok { status := -d.FDT_ERR_QC_REGIDX }
      else readEntry d f offset reg_index addr_code size_code
    match reg_name with
    | none => checked reg_index
    | some name =>
      match getNameIndex d.toDTBDefs f offset REG_NAMES name with
      | .error fault => .error fault
      | .ok (_, some index, _) => checked index
      | .ok (_, none, _) => checked reg_index

/-- The codes `fdt_get_reg` reads entries with. -/
structure CodesValid (addr_code size_code : Int) : Prop where
  addr : addr_code = SIZE_32 ∨ addr_code = SIZE_64
  size : size_code = SIZE_NIL ∨ size_code = SIZE_32 ∨ size_code = SIZE_64

section
variable {d : DriverDefs} {f : Blob} {o : Int} {p : Nat} {len : Int} {a s : Int}

theorem readCells_eq (hs : s = SIZE_NIL ∨ s = SIZE_32 ∨ s = SIZE_64) (p cell : Nat) :
    readCells f p cell s = beValue f (p + 4 * cell) (4 * s.toNat) := by
  unfold readCells
  rcases hs with rfl | rfl | rfl
  · rfl
  · simp [be32, beValue]
  · rw [if_neg (by decide), if_pos rfl, fdt64ToCpu_loads]
    rfl

theorem CodesValid.size_bounds (h : CodesValid a s) : 1 ≤ a ∧ 0 ≤ s ∧ a + s ≤ 4 := by
  rcases h.addr with rfl | rfl <;> rcases h.size with rfl | rfl | rfl <;> decide

/-- The checks of the codes are passed. -/
theorem getReg_index (h : CodesValid a s) (idx : Int) :
    getReg d f o none idx a s =
      if idx < 0 then .ok { status := -d.FDT_ERR_QC_REGIDX } else readEntry d f o idx a s := by
  obtain ⟨h1, h2, -⟩ := h.size_bounds
  unfold getReg
  rw [if_neg (by simp only [SIZE_BLOB]; omega), if_neg (not_not.mpr h.addr), if_neg (not_not.mpr h.size)]

theorem readEntry_eq (h : PropertyAt f o REG p len) (idx : Int) :
    readEntry d f o idx a s =
      if int32 ((a + s) * idx) > (len.toNat / 4 : Nat) - (a + s) then .ok { status := -d.FDT_ERR_QC_TARGETIDX }
      else if int32 ((a + s) * idx) < 0 then .error .outOfBounds
      else .ok
        { status := FDT_ERR_QC_NOERROR
          out := some (readCells f p (int32 ((a + s) * idx)).toNat a,
            readCells f p ((int32 ((a + s) * idx)).toNat + a.toNat) s)
          cells := (List.range (a + s).toNat).map fun i => (int32 ((a + s) * idx)).toNat + i } := by
  unfold readEntry regProperty
  rw [h.getprop]
  simp only
  rw [if_neg (Int.not_lt.mpr h.len_nonneg)]
  simp only [Int.natCast_ediv, Nat.cast_ofNat]

/-- Entry `idx` of a `reg` of `len` bytes, of `a` and `s` cells. -/
def EntryIn (len idx a s : Int) : Prop := 0 ≤ idx ∧ (idx + 1) * (a + s) * 4 ≤ len

/-- Reading an entry by its index: it succeeds just when the entry is in the
value, and then gives the values of its cells; an error leaves the outputs
alone; and no cell outside the value is read. -/
def RegExact (f : Blob) (p : Nat) (len idx a s : Int) (r : Except Fault RegResult) : Prop :=
  ∃ res, r = .ok res ∧ (res.status = FDT_ERR_QC_NOERROR ↔ EntryIn len idx a s) ∧
    (res.status = FDT_ERR_QC_NOERROR → res.out =
      some (beValue f (p + 4 * (idx * (a + s)).toNat) (4 * a.toNat),
        beValue f (p + 4 * ((idx * (a + s)).toNat + a.toNat)) (4 * s.toNat))) ∧
    (res.status ≠ FDT_ERR_QC_NOERROR → res.out = none) ∧
    ∀ cell ∈ res.cells, 4 * (cell + 1) ≤ len.toNat

theorem DriverDefs.code_ne (d : DriverDefs) : -d.FDT_ERR_QC_REGIDX ≠ FDT_ERR_QC_NOERROR ∧
    -d.FDT_ERR_QC_TARGETIDX ≠ FDT_ERR_QC_NOERROR ∧ -d.FDT_ERR_QC_NOTSUPPORTED ≠ FDT_ERR_QC_NOERROR ∧
    -d.FDT_ERR_QC_INPUT_ARG_ERR ≠ FDT_ERR_QC_NOERROR := by
  have hdriver {c : Int} (hc : c ∈ [d.FDT_ERR_QC_REGIDX, d.FDT_ERR_QC_TARGETIDX, d.FDT_ERR_QC_NOTSUPPORTED]) :
      -c ≠ FDT_ERR_QC_NOERROR := (libraryCode_ne (d.driver_extends_std c hc)).2
  exact ⟨hdriver (by simp), hdriver (by simp), hdriver (by simp), (libraryCode_ne (d.extends_std _ (by simp))).2⟩

/-- An error is right where there is no entry. -/
theorem RegExact.error {idx : Int} {e : Int} (he : e ≠ FDT_ERR_QC_NOERROR) :
    RegExact f p len idx a s (.ok { status := e }) ↔ ¬EntryIn len idx a s := by
  constructor
  · rintro ⟨res, hres, hiff, -⟩ hin
    cases hres
    exact he (hiff.mpr hin)
  · intro hout
    exact ⟨_, rfl, ⟨fun h => absurd h he, fun h => absurd h hout⟩, fun h => absurd h he, fun _ => rfl,
      fun cell hc => absurd hc List.not_mem_nil⟩

/-- The product of a valid index is its `int` or too large for the value. -/
theorem entry_position {idx : Int} (hidx : 0 ≤ idx) (hlen : 0 ≤ len) :
    EntryIn len idx a s ↔ (a + s) * idx ≤ (len.toNat / 4 : Nat) - (a + s) := by
  have hexp : (idx + 1) * (a + s) * 4 = (a + s) * idx * 4 + (a + s) * 4 := by
    rw [Int.add_mul, Int.one_mul, Int.add_mul, Int.mul_comm idx]
  unfold EntryIn
  rw [hexp]
  generalize (a + s) * idx = t
  generalize a + s = n
  omega

/-- Reading by index is exact just when the index is negative, or the position
of the entry is an `int`, or it wraps to one that is too large. -/
theorem reg_index_exact (h : PropertyAt f o REG p len) (hc : CodesValid a s) (idx : Int) :
    RegExact f p len idx a s (getReg d f o none idx a s) ↔
      idx < 0 ∨ (a + s) * idx < 0x80000000 ∨ int32 ((a + s) * idx) > len / 4 - (a + s) := by
  have hlen := h.len_nonneg
  have hle := h.len_le
  simp only [INT_MAX] at hle
  obtain ⟨ha, hs, hn⟩ := hc.size_bounds
  have hcount : (len.toNat / 4 : Nat) = len / 4 := by omega
  rw [getReg_index hc]
  by_cases hneg : idx < 0
  · rw [if_pos hneg]
    exact ⟨fun _ => Or.inl hneg, fun _ => (RegExact.error d.code_ne.1).mpr fun hin =>
      absurd hin.1 (Int.not_le.mpr hneg)⟩
  · have hidx := Int.not_lt.mp hneg
    have hpos := entry_position (a := a) (s := s) hidx hlen
    have hprod : 0 ≤ (a + s) * idx := Int.mul_nonneg (by omega) hidx
    rw [if_neg hneg, or_iff_right hneg, readEntry_eq h, hcount]
    by_cases hwrap : (a + s) * idx < 0x80000000
    · rw [int32_of_lt hprod hwrap]
      by_cases htoo : (a + s) * idx > len / 4 - (a + s)
      · rw [if_pos htoo, RegExact.error d.code_ne.2.1, hpos, hcount]
        exact ⟨fun _ => Or.inl hwrap, fun _ => Int.not_le.mpr htoo⟩
      · rw [if_neg htoo, if_neg (Int.not_lt.mpr hprod)]
        refine ⟨fun _ => Or.inl hwrap, fun _ => ⟨_, rfl, ?_, fun _ => ?_, fun h => absurd rfl h, fun cell hcell => ?_⟩⟩
        · rw [hpos, hcount]
          exact ⟨fun _ => Int.not_lt.mp htoo, fun _ => rfl⟩
        · rw [readCells_eq (Or.inr hc.addr), readCells_eq hc.size, Int.mul_comm idx]
        · obtain ⟨i, hi, rfl⟩ := List.mem_map.mp hcell
          have hi := List.mem_range.mp hi
          omega
    · have hout : ¬EntryIn len idx a s := by
        rw [hpos, hcount]
        omega
      rw [or_iff_right hwrap]
      by_cases htoo : int32 ((a + s) * idx) > len / 4 - (a + s)
      · rw [if_pos htoo, RegExact.error d.code_ne.2.1]
        exact ⟨fun _ => htoo, fun _ => hout⟩
      · rw [if_neg htoo]
        refine ⟨?_, fun hc => absurd hc htoo⟩
        rintro ⟨res, hres, hiff, -⟩
        split at hres
        · cases hres
        · cases hres
          exact absurd (hiff.mp rfl) hout

end

/-! ## Entries by name -/

/-- The strings of the node's `reg-names`; none if it cannot be read. -/
def regNames (f : Blob) (o : Int) : List Str :=
  match getprop f o REG_NAMES with
  | .error _ => []
  | .ok (p, len) => strings (bytesAt f p len.toNat)

/-- Reading by name is reading by the index of the name's first occurrence; a
name that does not occur is an error that leaves the outputs alone; and the
caller's index does not matter. -/
def NameAgrees (d : DriverDefs) (f : Blob) (o : Int) (name : Str) (a s : Int) : Prop :=
  (∀ k, (regNames f o).idxOf? name = some k → ∀ idx, getReg d f o (some name) idx a s = getReg d f o none k a s) ∧
  ((regNames f o).idxOf? name = none → ∀ idx, ∃ res, getReg d f o (some name) idx a s = .ok res ∧
    res.status ≠ FDT_ERR_QC_NOERROR ∧ res.out = none) ∧
  ∀ idx idx', getReg d f o (some name) idx a s = getReg d f o (some name) idx' a s

/-- There is no entry to read at the index: `reg` cannot be read, or the entry's
position is too large for it. -/
def EntryFails (d : DriverDefs) (f : Blob) (o a s : Int) (k : Nat) : Prop :=
  match regProperty d.toDTBDefs f o with
  | .error _ => True
  | .ok (_, len) => int32 ((a + s) * k) > (len / 4 : Nat) - (a + s)

section
variable {d : DriverDefs} {f : Blob} {o a s : Int} {name : Str}

theorem getReg_invalid (hc : ¬CodesValid a s) : ∃ e, e ≠ FDT_ERR_QC_NOERROR ∧
    ∀ name idx, getReg d f o name idx a s = .ok { status := e } := by
  obtain ⟨-, -, h3, h4⟩ := d.code_ne
  unfold getReg
  by_cases hblob : a = SIZE_BLOB ∨ s = SIZE_BLOB
  · exact ⟨_, h3, fun name idx => by rw [if_pos hblob]⟩
  · by_cases ha : a = SIZE_32 ∨ a = SIZE_64
    · have hs : ¬(s = SIZE_NIL ∨ s = SIZE_32 ∨ s = SIZE_64) := fun hs => hc ⟨ha, hs⟩
      exact ⟨_, h4, fun name idx => by rw [if_neg hblob, if_neg (not_not.mpr ha), if_pos hs]⟩
    · exact ⟨_, h4, fun name idx => by rw [if_neg hblob, if_pos ha]⟩

/-- Reading by name is the search, then reading by the index it leaves. -/
theorem getReg_name (hc : CodesValid a s) (idx : Int) :
    getReg d f o (some name) idx a s = match getNameIndex d.toDTBDefs f o REG_NAMES name with
      | .error fault => .error fault
      | .ok (_, some index, _) => getReg d f o none index a s
      | .ok (_, none, _) => getReg d f o none idx a s := by
  obtain ⟨h1, h2, -⟩ := hc.size_bounds
  simp only [getReg_index hc]
  unfold getReg
  rw [if_neg (by simp only [SIZE_BLOB]; omega), if_neg (not_not.mpr hc.addr), if_neg (not_not.mpr hc.size)]

theorem regProperty_error {e : Int} (h : regProperty d.toDTBDefs f o = .error e) : e ≠ FDT_ERR_QC_NOERROR := by
  unfold regProperty at h
  split at h
  · cases h
    exact lenError_ne _ _
  · split at h
    · cases h
      exact lenError_ne _ _
    · cases h

theorem readEntry_fails (k : Nat) : EntryFails d f o a s k ↔ ∃ res, readEntry d f o k a s = .ok res ∧
    res.status ≠ FDT_ERR_QC_NOERROR ∧ res.out = none := by
  unfold EntryFails readEntry
  cases hreg : regProperty d.toDTBDefs f o with
  | error e => exact ⟨fun _ => ⟨_, rfl, regProperty_error hreg, rfl⟩, fun _ => trivial⟩
  | ok r =>
    obtain ⟨p, len⟩ := r
    simp only [Int.natCast_ediv, Nat.cast_ofNat]
    by_cases htoo : int32 ((a + s) * k) > len / 4 - (a + s)
    · rw [if_pos htoo]
      exact ⟨fun _ => ⟨_, rfl, d.code_ne.2.1, rfl⟩, fun _ => htoo⟩
    · rw [if_neg htoo]
      refine ⟨fun h => absurd h htoo, ?_⟩
      rintro ⟨res, hres, hst, -⟩
      split at hres
      · cases hres
      · cases hres
        exact absurd rfl hst

theorem getReg_index_nat (hc : CodesValid a s) (k : Nat) : getReg d f o none k a s = readEntry d f o k a s := by
  rw [getReg_index hc, if_neg (by omega)]

/-- A name that occurs is found where it is first, or the blob is too old to be searched. -/
theorem getNameIndex_occurs (hname : 0 ∉ name) {k : Nat} (hk : (regNames f o).idxOf? name = some k) :
    (∃ seen, getNameIndex d.toDTBDefs f o REG_NAMES name = .ok (FDT_ERR_QC_NOERROR, some k, seen)) ∨
      getNameIndex d.toDTBDefs f o REG_NAMES name = .ok (-FDT_ERR_BADVERSION, none, 0) := by
  unfold regNames at hk
  by_cases hv : version f < 0x10
  · refine Or.inr ?_
    unfold getNameIndex getProperty
    rw [if_pos hv]
    rfl
  · refine Or.inl ?_
    cases hget : getprop f o REG_NAMES with
    | error e => rw [hget] at hk; cases hk
    | ok r =>
      obtain ⟨p, len⟩ := r
      rw [hget] at hk
      have hprop : PropertyAt f o REG_NAMES p len := by
        refine ⟨hget, ?_, getprop_len_le hget⟩
        -- a value with a string is not of negative length
        by_contra hneg
        have hzero : len.toNat = 0 := by omega
        simp [hzero, bytesAt, strings] at hk
      obtain ⟨seen, -, hr⟩ := hprop.found (d := d.toDTBDefs) hname hv hk
      exact ⟨seen, hr⟩

theorem getNameIndex_found {d : DTBDefs} {pname : Str} {status : Int} {k seen : Nat}
    (h : getNameIndex d f o pname name = .ok (status, some k, seen)) : status = FDT_ERR_QC_NOERROR := by
  unfold getNameIndex at h
  split at h
  · cases h
  · split at h
    · cases h
    · split at h <;> cases h
      rfl

/-- The first entry is refused with the error of a negative index only if `reg`
cannot be read. -/
theorem readEntry_zero (h : readEntry d f o (0 : Nat) a s = .ok { status := -d.FDT_ERR_QC_REGIDX }) :
    regProperty d.toDTBDefs f o = .error (-d.FDT_ERR_QC_REGIDX) := by
  unfold readEntry at h
  cases hreg : regProperty d.toDTBDefs f o with
  | error e =>
    rw [hreg] at h
    cases h
    rfl
  | ok r =>
    rw [hreg] at h
    simp only at h
    split at h
    · have hcode := congrArg RegResult.status (Except.ok.inj h)
      exact absurd (Int.neg_inj.mp hcode).symm d.idx_ne
    · split at h
      · cases h
      · have hcode := congrArg RegResult.status (Except.ok.inj h)
        exact absurd hcode.symm d.code_ne.1

/-- By name agrees with by index just when the codes are refused, or the search
finds an index and the name occurs or there is no entry at that index; or it
finds none, and `reg` cannot be read, with the error of a negative index. -/
theorem reg_name_exact (hname : 0 ∉ name) :
    NameAgrees d f o name a s ↔
      ¬CodesValid a s ∨
      (∃ k seen, getNameIndex d.toDTBDefs f o REG_NAMES name = .ok (FDT_ERR_QC_NOERROR, some k, seen) ∧
        (name ∈ regNames f o ∨ EntryFails d f o a s k)) ∨
      ((∃ status seen, getNameIndex d.toDTBDefs f o REG_NAMES name = .ok (status, none, seen)) ∧
        regProperty d.toDTBDefs f o = .error (-d.FDT_ERR_QC_REGIDX)) := by
  by_cases hc : CodesValid a s
  · rw [or_iff_right (not_not.mpr hc)]
    unfold NameAgrees
    simp only [getReg_name hc]
    cases hget : getNameIndex d.toDTBDefs f o REG_NAMES name with
    | error fault =>
      refine ⟨fun ⟨_, habsent, _⟩ => ?_, fun h => ?_⟩
      · cases hk : (regNames f o).idxOf? name with
        | none =>
          obtain ⟨res, hres, -⟩ := habsent hk 0
          cases hres
        | some k =>
          rcases getNameIndex_occurs (d := d) hname hk with ⟨seen, hr⟩ | hr <;> rw [hr] at hget <;> cases hget
      · rcases h with ⟨_, _, hr, -⟩ | ⟨⟨_, _, hr⟩, -⟩ <;> cases hr
    | ok r =>
      obtain ⟨status, index, seen⟩ := r
      cases index with
      | some k =>
        have hstatus := getNameIndex_found hget
        subst hstatus
        simp only [getReg_index_nat hc]
        constructor
        · rintro ⟨-, habsent, -⟩
          refine Or.inl ⟨k, seen, rfl, ?_⟩
          by_cases hmem : name ∈ regNames f o
          · exact Or.inl hmem
          · exact Or.inr ((readEntry_fails k).mpr (habsent (List.idxOf?_eq_none_iff.mpr hmem) 0))
        · rintro (⟨j, _, hr, hj⟩ | ⟨⟨_, _, hr⟩, -⟩)
          · cases hr
            refine ⟨fun i hi idx => ?_, fun hnone idx => ?_, fun _ _ => trivial⟩
            · rcases getNameIndex_occurs (d := d) hname hi with ⟨_, hr⟩ | hr <;> rw [hr] at hget <;> cases hget
              rfl
            · exact (readEntry_fails k).mp (hj.resolve_left (List.idxOf?_eq_none_iff.mp hnone))
          · cases hr
      | none =>
        constructor
        · rintro ⟨-, -, hsame⟩
          refine Or.inr ⟨⟨_, _, rfl⟩, ?_⟩
          have hzero := hsame (-1) ((0 : Nat) : Int)
          simp only at hzero
          rw [getReg_index_nat hc, getReg_index hc, if_pos (by decide)] at hzero
          exact readEntry_zero hzero.symm
        · rintro (⟨_, _, hr, -⟩ | ⟨-, hreg⟩)
          · cases hr
          · have hall (idx : Int) : getReg d f o none idx a s = .ok { status := -d.FDT_ERR_QC_REGIDX } := by
              rw [getReg_index hc]
              unfold readEntry
              rw [hreg]
              exact ite_self _
            simp only [hall]
            exact ⟨fun _ _ _ => trivial, fun _ _ => ⟨_, rfl, d.code_ne.1, rfl⟩, fun _ _ => trivial⟩
  · obtain ⟨e, he, hall⟩ := getReg_invalid (d := d) (f := f) (o := o) hc
    refine ⟨fun _ => Or.inl hc, fun _ => ⟨fun k _ idx => ?_, fun _ idx => ⟨_, hall _ idx, he, rfl⟩, fun idx idx' =>
      ?_⟩⟩
    · rw [hall, hall]
    · rw [hall, hall]

end

/-! ## A node with two entries -/

/-- A tree of one node with two entries of two cells, called "a" and "b". -/
def regBlob : Blob := blobAt (memOf 0x1000 (assemble
  [.beginNode [], .prop REG (cell 1 ++ cell 2 ++ cell 3 ++ cell 4), .prop REG_NAMES [97, 0, 98, 0], .endNode] 0))
    0x1000

def driverDefs : DriverDefs := { cellsDefs with
  FDT_ERR_QC_REGIDX := 1010
  FDT_ERR_QC_TARGETIDX := 1011
  FDT_ERR_QC_NOTSUPPORTED := 1012
  driver_extends_std := by decide
  idx_ne := by decide }

theorem regBlob_reg : PropertyAt regBlob 0 REG 76 16 where
  getprop := by decide +kernel
  len_nonneg := by decide
  len_le := by decide

theorem regBlob_names : PropertyAt regBlob 0 REG_NAMES 104 4 where
  getprop := by decide +kernel
  len_nonneg := by decide
  len_le := by decide

theorem name_index_exact_b :
    (SearchExact (bytesAt regBlob 104 4) [98] (getNameIndex cellsDefs regBlob 0 REG_NAMES [98]) ↔
      Searchable regBlob (bytesAt regBlob 104 4) [98]) ∧
    (Terminated (bytesAt regBlob 104 4) → stringlistSearch regBlob 0 REG_NAMES [98] =
      searchAnswer 0 ((strings (bytesAt regBlob 104 4)).idxOf? [98])) :=
  name_index_exact regBlob_names (by simp)

theorem reg_index_exact_second :
    RegExact regBlob 76 16 1 1 1 (getReg driverDefs regBlob 0 none 1 1 1) ↔
      (1 : Int) < 0 ∨ ((1 : Int) + 1) * 1 < 0x80000000 ∨ int32 ((1 + 1) * 1) > (16 : Int) / 4 - (1 + 1) :=
  reg_index_exact regBlob_reg ⟨Or.inl rfl, Or.inr (Or.inl rfl)⟩ 1

theorem reg_name_exact_b :
    NameAgrees driverDefs regBlob 0 [98] 1 1 ↔
      ¬CodesValid 1 1 ∨
      (∃ k seen, getNameIndex driverDefs.toDTBDefs regBlob 0 REG_NAMES [98] = .ok (FDT_ERR_QC_NOERROR, some k, seen) ∧
        ([98] ∈ regNames regBlob 0 ∨ EntryFails driverDefs regBlob 0 1 1 k)) ∨
      ((∃ status seen, getNameIndex driverDefs.toDTBDefs regBlob 0 REG_NAMES [98] = .ok (status, none, seen)) ∧
        regProperty driverDefs.toDTBDefs regBlob 0 = .error (-driverDefs.FDT_ERR_QC_REGIDX)) :=
  reg_name_exact (by simp)

/-- The search of an empty value looks at the byte after it. -/
theorem name_index_reads_on : ¬∀ (d : DTBDefs) (f : Blob) (o : Int) (pname tname : Str) (p : Nat) (len : Int),
    PropertyAt f o pname p len → 0 ∉ tname →
      SearchExact (bytesAt f p len.toNat) tname (getNameIndex d f o pname tname) := by
  intro h
  obtain ⟨status, index, seen, hget, hseen, -⟩ := h cellsDefs cellsBlob 0 [101] [120] 100 0 cellsBlob_empty (by simp)
  have hrun : getNameIndex cellsDefs cellsBlob 0 [101] [120] = .ok (-FDT_ERR_NOTFOUND, none, 2) := by decide +kernel
  rw [hrun] at hget
  cases hget
  exact absurd hseen (by simp)

/-- The position of entry `0x40000000` of four cells wraps to zero. -/
theorem reg_index_wraps : ¬∀ (d : DriverDefs) (f : Blob) (o : Int) (p : Nat) (len a s idx : Int),
    PropertyAt f o REG p len → CodesValid a s → RegExact f p len idx a s (getReg d f o none idx a s) := by
  intro h
  obtain ⟨res, hres, hiff, -⟩ := h driverDefs regBlob 0 76 16 2 2 0x40000000 regBlob_reg
    ⟨Or.inr rfl, Or.inr (Or.inr rfl)⟩
  have hrun : (getReg driverDefs regBlob 0 none 0x40000000 2 2).map RegResult.status = .ok FDT_ERR_QC_NOERROR := by
    decide +kernel
  rw [hres] at hrun
  exact absurd (hiff.mp (Except.ok.inj hrun)).2 (by decide)

/-- Without `reg-names` a name reads the entry of the caller's index. -/
theorem reg_name_ignored : ¬∀ (d : DriverDefs) (f : Blob) (o : Int) (name : Str) (a s : Int),
    0 ∉ name → NameAgrees d f o name a s := by
  intro h
  obtain ⟨-, habsent, -⟩ := h driverDefs cellsBlob 0 [98] 1 0 (by simp)
  obtain ⟨res, hres, hstatus, -⟩ := habsent (by decide +kernel) 0
  have hrun : (getReg driverDefs cellsBlob 0 (some [98]) 0 1 0).map RegResult.status = .ok FDT_ERR_QC_NOERROR := by
    decide +kernel
  rw [hres] at hrun
  exact hstatus (Except.ok.inj hrun)

end DTFramework.Extn
