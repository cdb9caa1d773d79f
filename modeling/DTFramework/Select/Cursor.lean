import DTFramework.Extn.Driver
import DTFramework.Extn.Names
import DTFramework.Select.Printing

/-!
# The print cursor

`_print_board_id` writes the text of a property piece by piece into a buffer of
`BUFFER_SIZE` bytes, and goes on by what `SNPRINTF_WRAPPER` returns. In the
`TARGET_XBL` build that is the length the piece would have had. Modelled here
are the calls for a property, each by the length of its text; the loop over
elements may have no end, so its calls are those of its first turns.

`under_head` turns the claim about every call into one about the text before
the last one, which `cursor_exact` says in closed form.

Results:

* `under_head`, `under_sum`: a cursor below a bound, as a bound on the text;
* `under_text`: the same for the calls of a property, for any bound;
* `cursor_exact`: the properties whose text stays in the buffer; `cursor_leaves` shows
  another.
-/
namespace DTFramework.Select

open DTFramework.Fdt DTFramework.Extn DTFramework.Lib

/-- mirrors libs/DTSelectLib/dt_select.c:369-392 -/
def getSizeTag (size : Nat) : String :=
  if size = 1 then "/bits/ 8"
  else if size = 2 then "/bits/ 16"
  else if size = 4 then ""
  else if size = 8 then "/bits/ 64"
  else "/bits/ 8"

/-- What `vsnprintf` returns for a text of that length, as an `int`.
mirrors libs/DTSelectLib/Environment/dt_select_env.c:91-98 -/
def snprintfWrapper (length : Nat) : Int := if length ≤ INT_MAX then length else -1

/-- `len` after calls for texts of these lengths. -/
def cursorAfter (len : Int) (calls : List Nat) : Int := calls.foldl (fun len n => int32 (len + snprintfWrapper n)) len

/-- The calls of the loop over strings.
mirrors libs/DTSelectLib/dt_select.c:525-549 -/
def stringCalls (f : Blob) (ptr pos remaining : Nat) : List Nat :=
  if remaining = 0 then []
  else match cstrWithin f.rd pos remaining with
  | none => []
  | some s =>
    ("\"".length + s.length + "\"".length) ::
      if !isSafeToAddPointer ptr (s.length + 1) then []
      else ";".length :: stringCalls f (ptr + (s.length + 1)) (pos + (s.length + 1)) (remaining - (s.length + 1))
termination_by remaining

/-- The calls of the first turns of the loop over elements, and the one after it.
mirrors libs/DTSelectLib/dt_select.c:552-568 -/
def elementCalls (size : Nat) : Nat → Nat → List Nat
  | 0, _ => []
  | turns + 1, remaining =>
    if remaining = 0 then [" >;".length]
    else " 0x".length :: (List.replicate size "00".length ++
      if !isSafeToSubtractUint32 remaining size then [] else elementCalls size turns (remaining - size))

/-- mirrors libs/DTSelectLib/dt_select.c:495-574 -/
def valueCalls (f : Blob) (offset : Int) (name : Str) (size turns : Nat) : List Nat :=
  match getprop f offset name with
  | .error _ => []
  | .ok (pos, len) =>
    if size = STRING_DATATYPE then stringCalls f (f.addr + pos) pos (u32 len)
    else "<".length :: elementCalls size turns (u32 len)

/-- The calls for one property.
mirrors libs/DTSelectLib/dt_select.c:647-701 -/
def propertyCalls (d : DTBDefs) (props : List PropertyEntry) (f : Blob) (offset : Int) (name : Str) (turns : Nat) :
    List Nat :=
  let prop := getPropSize d f offset name 0
  let size := datatypeSize props name
  ("  ".length + name.length + " ".length) ::
    if prop.1 ≠ FDT_ERR_QC_NOERROR then []
    else if prop.2 = 0 then ["; /* True [boolean property] */".length]
    else "= ".length :: ((if size ≠ STRING_DATATYPE then [(getSizeTag size).length + " ".length] else []) ++
      valueCalls f offset name size turns)

/-- Before each of the calls the cursor is in the buffer. -/
def Inside (len : Int) (calls : List Nat) : Prop :=
  ∀ pre call post, calls = pre ++ call :: post → 0 ≤ cursorAfter len pre ∧ cursorAfter len pre < BUFFER_SIZE

/-- Before each of the calls the cursor is below `k`. -/
def Under (k : Nat) (len : Int) (calls : List Nat) : Prop :=
  ∀ pre call post, calls = pre ++ call :: post → 0 ≤ cursorAfter len pre ∧ cursorAfter len pre < k

/-- The first call is at the start of the buffer. -/
def CursorInside (d : DTBDefs) (props : List PropertyEntry) (f : Blob) (offset : Int) (name : Str) : Prop :=
  ∀ turns, Inside 0 (propertyCalls d props f offset name turns)

/-! ## The cursor and the text -/

section
variable {k : Nat}

theorem under_nil (len : Int) : Under k len [] := by
  intro pre call post h
  exact absurd h.symm (by simp)

theorem under_cons {len : Int} {call : Nat} {calls : List Nat} : Under k len (call :: calls) ↔
    (0 ≤ len ∧ len < k) ∧ Under k (int32 (len + snprintfWrapper call)) calls := by
  constructor
  · intro h
    exact ⟨h [] call calls rfl, fun pre c post hc => h (call :: pre) c post (by rw [hc]; rfl)⟩
  · rintro ⟨hlen, hrest⟩ pre c post hc
    cases pre with
    | nil => exact hlen
    | cons x pre =>
      obtain ⟨rfl, htail⟩ := List.cons.inj hc
      exact hrest pre c post htail

theorem Under.of_prefix {len : Int} {calls more : List Nat} (h : Under k len more) (hp : calls <+: more) :
    Under k len calls := by
  obtain ⟨t, rfl⟩ := hp
  intro pre c post hc
  exact h pre c (post ++ t) (by rw [hc]; simp)

/-- A cursor that is below 0 is not in the buffer. -/
theorem not_under_neg {len : Int} {calls : List Nat} (h : len < 0) (hne : calls ≠ []) : ¬Under k len calls := by
  obtain ⟨c, calls, rfl⟩ := List.exists_cons_of_ne_nil hne
  intro hin
  exact absurd (under_cons.mp hin).1.1 (Int.not_le.mpr h)

/-- While it is below `k`, the cursor is the length of the text. -/
theorem under_sum (hk : k ≤ INT_MAX) (calls : List Nat) (hb : ∀ n ∈ calls, n ≤ INT_MAX) : ∀ len : Nat, calls ≠ [] →
    (Under k len calls ↔ len + calls.dropLast.sum < k) := by
  induction calls with
  | nil => exact fun _ h => absurd rfl h
  | cons n calls ih =>
    intro len _
    obtain ⟨hn, hb⟩ := List.forall_mem_cons.mp hb
    rw [under_cons]
    by_cases hnil : calls = []
    · subst hnil
      simp only [List.dropLast_singleton, List.sum_nil, under_nil, and_true]
      omega
    · rw [List.dropLast_cons_of_ne_nil hnil, List.sum_cons]
      unfold snprintfWrapper
      rw [if_pos hn]
      by_cases hwrap : len + n < 0x80000000
      · rw [int32_of_lt (by omega) (by omega), show (len : Int) + n = (len + n : Nat) by omega, ih hb (len + n) hnil]
        omega
      · by_cases hlen : len < k
        · have hneg : int32 (len + n) < 0 := by
            simp only [INT_MAX] at hn hk
            unfold int32
            omega
          refine iff_of_false (fun h => not_under_neg hneg hnil h.2) ?_
          simp only [INT_MAX] at hk
          omega
        · exact iff_of_false (fun h => hlen (by omega)) (by omega)

/-- The first call is for the name, which may be of any length. -/
theorem under_head (_ : 0 < k) (hk : k ≤ INT_MAX) {n : Nat} {calls : List Nat} (hb : ∀ m ∈ calls, m ≤ INT_MAX)
    (hne : calls ≠ []) : Under k 0 (n :: calls) ↔ n + calls.dropLast.sum < k := by
  by_cases hn : n ≤ INT_MAX
  · have h := under_sum hk (n :: calls) (List.forall_mem_cons.mpr ⟨hn, hb⟩) 0 (by simp)
    rw [List.dropLast_cons_of_ne_nil hne, List.sum_cons, Nat.zero_add] at h
    exact h
  · rw [under_cons]
    have hneg : int32 (0 + snprintfWrapper n) < 0 := by
      unfold snprintfWrapper
      rw [if_neg hn]
      decide
    exact iff_of_false (fun h => not_under_neg hneg hne h.2) (by omega)

end

/-! ## Strings -/

/-- The strings of a value are printed with quotes and a separator. -/
theorem stringCalls_eq (f : Blob) (v : List UInt8) : ∀ ptr pos n : Nat, bytesAt f pos n = v → n < 2 ^ 32 →
    ptr + n < 2 ^ 64 →
    stringCalls f ptr pos n = (strings v).flatMap fun s => [s.length + 2, 1] := by
  induction v using strings_induct with
  | unterminated u hu =>
    intro ptr pos n hv h32 hend
    rw [strings_unterminated hu, stringCalls]
    split
    · rfl
    · cases hs : cstrWithin f.rd pos n with
      | none => rfl
      | some s =>
        have hle := cstr_unterminated (by rw [hv]; exact hu) hs
        unfold cstrWithin at hs
        split at hs
        · rename_i hlt
          cases hs
          omega
        · cases hs
  | string s v hs ih =>
    intro ptr pos n hv h32 hend
    obtain ⟨hn, hrest⟩ := bytesAt_string hv
    have hc : cstrWithin f.rd pos n = some s := by
      unfold cstrWithin
      rw [cstr_string hv hs (by omega), if_pos (by omega)]
    have hsub : n - (s.length + 1) = v.length := by omega
    rw [strings_append hs, stringCalls, if_neg (by omega), hc]
    dsimp only
    rw [isSafeToAddPointer_of_lt (by omega), hsub, ih _ _ _ hrest (by omega) (by omega)]
    have hquote : "\"".length = 1 := by decide
    have hmark : ";".length = 1 := by decide
    rw [List.flatMap_cons, hquote, hmark, show 1 + s.length + 1 = s.length + 2 by omega]
    rfl

/-! ## Elements -/

theorem elementCalls_prefix (size turns more : Nat) : ∀ remaining,
    elementCalls size turns remaining <+: elementCalls size (turns + more) remaining := by
  induction turns with
  | zero => exact fun _ => List.nil_prefix
  | succ turns ih =>
    intro remaining
    rw [show turns + 1 + more = turns + more + 1 by omega, elementCalls, elementCalls]
    split
    · exact List.prefix_refl _
    · split
      · exact List.prefix_refl _
      · exact (List.prefix_cons_inj _).mpr ((List.prefix_append_right_inj _).mpr (ih _))

theorem elementCalls_bounded (size turns : Nat) : ∀ remaining, ∀ n ∈ elementCalls size turns remaining,
    n ≤ INT_MAX := by
  induction turns with
  | zero => exact fun _ _ h => nomatch h
  | succ turns ih =>
    intro remaining n hn
    have h2 : "00".length ≤ INT_MAX := by decide
    have h3 : " 0x".length ≤ INT_MAX := by decide
    have h4 : " >;".length ≤ INT_MAX := by decide
    rw [elementCalls] at hn
    split at hn
    · rw [List.mem_singleton.mp hn]
      exact h4
    · rcases List.mem_cons.mp hn with rfl | hn
      · exact h3
      · rcases List.mem_append.mp hn with hn | hn
        · rw [List.eq_of_mem_replicate hn]
          exact h2
        · split at hn
          · cases hn
          · exact ih _ n hn

/-- The text of a value's elements before the last call. -/
def elementsText (size n : Nat) : Nat :=
  if size ∣ n then n / size * (3 + 2 * size) else (n / size + 1) * (3 + 2 * size) - 2

/-- The loop over elements of some bytes ends. -/
theorem elementCalls_sum {size : Nat} (hs : 0 < size) (turns : Nat) : ∀ remaining, remaining < turns →
    elementCalls size turns remaining ≠ [] ∧ (elementCalls size turns remaining).dropLast.sum =
        elementsText size remaining := by
  have h2 : "00".length = 2 := by decide
  have h3 : " 0x".length = 3 := by decide
  induction turns with
  | zero => exact fun _ h => absurd h (Nat.not_lt_zero _)
  | succ turns ih =>
    intro remaining hlt
    rw [elementCalls]
    split
    · rename_i h0
      subst h0
      exact ⟨by simp, by simp [elementsText]⟩
    · rename_i h0
      refine ⟨by simp, ?_⟩
      by_cases hle : size ≤ remaining
      · obtain ⟨hne, hsum⟩ := ih (remaining - size) (by omega)
        rw [isSafeToSubtractUint32_iff.mpr hle]
        simp only [Bool.not_true, Bool.false_eq_true, if_false]
        rw [← List.cons_append, List.dropLast_append_of_ne_nil hne, List.sum_append, hsum, List.sum_cons,
          List.sum_replicate_nat, h2, h3]
        have hdiv : remaining / size = (remaining - size) / size + 1 := by
          rw [← Nat.sub_add_cancel hle, Nat.add_div_right _ hs]
          simp
        have hdvd : size ∣ remaining ↔ size ∣ remaining - size := by
          conv_lhs => rw [← Nat.sub_add_cancel hle]
          exact Nat.dvd_add_self_right
        unfold elementsText
        rw [hdiv]
        generalize hq : (remaining - size) / size = q
        generalize hb : 3 + 2 * size = b
        have hrow : (q + 1) * b = q * b + b := by rw [Nat.add_mul, Nat.one_mul]
        have hrow' : (q + 1 + 1) * b = q * b + b + b := by rw [Nat.add_mul, Nat.one_mul, hrow]
        by_cases h : size ∣ remaining
        · rw [if_pos h, if_pos (hdvd.mp h), hrow]
          omega
        · rw [if_neg h, if_neg fun h' => h (hdvd.mpr h'), hrow, hrow']
          omega
      · have hsub : isSafeToSubtractUint32 remaining size = false := by
          rw [← Bool.not_eq_true, isSafeToSubtractUint32_iff]
          exact hle
        rw [hsub]
        simp only [Bool.not_false, if_true, List.append_nil]
        have hne : List.replicate size "00".length ≠ [] := by simp; omega
        unfold elementsText
        rw [if_neg (Nat.not_dvd_of_pos_of_lt (by omega) (by omega)), Nat.div_eq_of_lt (by omega),
          List.dropLast_cons_of_ne_nil hne, List.sum_cons, List.dropLast_replicate, List.sum_replicate_nat, h2, h3]
        omega

/-- A loop over elements of no bytes has no end. -/
theorem elementCalls_endless (turns : Nat) {remaining : Nat} (h : remaining ≠ 0) :
    elementCalls 0 turns remaining = List.replicate turns " 0x".length := by
  induction turns with
  | zero => rfl
  | succ turns ih =>
    rw [elementCalls, if_neg h, isSafeToSubtractUint32_iff.mpr (Nat.zero_le _)]
    simp [ih, List.replicate_succ]

/-! ## One property -/

/-- A length that was found is one. -/
theorem getprop_range {f : Blob} {o : Int} {name : Str} {p : Nat} {len : Int} (h : getprop f o name = .ok (p, len)) :
    0 ≤ len ∧ len < INT_MAX := by
  have hscan (o : Int) : ∀ q, propertyScan f name o = .ok q → ∃ len, getPropertyByOffset f q = .ok len := by
    fun_induction propertyScan f name o with
    | case1 | case2 =>
      intro q h
      cases h
    | case3 o _ len hlen _ =>
      intro q h
      cases h
      exact ⟨len, hlen⟩
    | case4 =>
      intro q h
      cases h
    | case5 o _ len hlen _ _ ih => exact ih
  unfold getprop at h
  split at h
  · cases h
  · rename_i q hq
    obtain ⟨rfl, hval⟩ := Prod.mk.inj (Except.ok.inj h)
    obtain ⟨l, hlen⟩ := hscan _ q hq
    unfold getPropertyByOffset at hlen
    split at hlen
    · cases hlen
    · rename_i hneg
      obtain ⟨-, -, ht, -⟩ := checkPropOffset_nonneg (Int.not_lt.mp hneg)
      have hlt := propLen_lt ht
      generalize propLen f q = n at hval hlt
      simp only [INT_MAX] at hlt ⊢
      rw [int32_of_lt (by omega) (by omega)] at hval
      omega

/-- The text that is printed before the last call for a property, if there is a
last call. -/
def textBefore (f : Blob) (o : Int) (name : Str) (size : Nat) : Option Nat :=
  match propertyBytes f o name with
  | none => some 0
  | some v =>
    if v = [] then some (name.length + 3)
    else if size = STRING_DATATYPE then
      some (name.length + 3 + if strings v = [] then 0 else ((strings v).map fun s => s.length + 3).sum + 1)
    else if size = 0 then none
    else some (name.length + (getSizeTag size).length + 7 + elementsText size v.length)

/-- The text of the strings before the last call. -/
theorem stringText_sum (l : List Str) (hl : l ≠ []) :
    (l.flatMap fun s => [s.length + 2, 1]).dropLast.sum + 1 = (l.map fun s => s.length + 3).sum := by
  induction l with
  | nil => exact absurd rfl hl
  | cons s l ih =>
    rw [List.flatMap_cons, List.map_cons, List.sum_cons]
    by_cases h : l = []
    · subst h
      simp
    · have hne : (l.flatMap fun s : Str => [s.length + 2, 1]) ≠ [] := by
        obtain ⟨s', l, rfl⟩ := List.exists_cons_of_ne_nil h
        simp
      rw [List.dropLast_append_of_ne_nil hne, List.sum_append, ← ih h]
      simp only [List.sum_cons, List.sum_nil]
      omega

theorem sizeTag_length (size : Nat) : (getSizeTag size).length ≤ 9 := by
  unfold getSizeTag
  split
  · decide
  · split
    · decide
    · split
      · decide
      · split <;> decide

section
variable {k : Nat} (h0 : 0 < k) (hk : k ≤ INT_MAX)
include h0

theorem under_single (n : Nat) : Under k 0 [n] := by
  rw [under_cons]
  exact ⟨⟨Int.le_refl 0, Int.natCast_pos.mpr h0⟩, under_nil _⟩

include hk

theorem stringText_exact (n : Nat) (l : List Str) (hl : ∀ s ∈ l, s.length + 2 ≤ INT_MAX) :
    Under k 0 (n :: 2 :: l.flatMap fun s => [s.length + 2, 1]) ↔
      (n + if l = [] then 0 else (l.map fun s => s.length + 3).sum + 1) < k := by
  have hb : ∀ m ∈ 2 :: l.flatMap fun s => [s.length + 2, 1], m ≤ INT_MAX := by
    intro m hm
    rcases List.mem_cons.mp hm with rfl | hm
    · decide
    · obtain ⟨s, hs, hm⟩ := List.mem_flatMap.mp hm
      have := hl s hs
      simp only [List.mem_cons, List.not_mem_nil, or_false] at hm
      rcases hm with rfl | rfl
      · exact this
      · decide
  rw [under_head h0 hk hb (by simp)]
  split
  · rename_i h
    subst h
    simp
  · rename_i h
    have hne : (l.flatMap fun s : Str => [s.length + 2, 1]) ≠ [] := by
      obtain ⟨s', l, rfl⟩ := List.exists_cons_of_ne_nil h
      simp
    have := stringText_sum l h
    rw [List.dropLast_cons_of_ne_nil hne, List.sum_cons]
    omega

theorem elementText_exact (n tag len : Nat) {size : Nat} (ht : tag ≤ INT_MAX) (hs : 0 < size) :
    (∀ turns, Under k 0 (n :: 2 :: tag :: 1 :: elementCalls size turns len)) ↔
      n + tag + 3 + elementsText size len < k := by
  have hb (turns : Nat) : ∀ m ∈ 2 :: tag :: 1 :: elementCalls size turns len, m ≤ INT_MAX := by
    intro m hm
    simp only [List.mem_cons] at hm
    rcases hm with rfl | rfl | rfl | hm
    · decide
    · exact ht
    · decide
    · exact elementCalls_bounded size turns len m hm
  have hend (turns : Nat) (h : len < turns) :
      Under k 0 (n :: 2 :: tag :: 1 :: elementCalls size turns len) ↔ n + tag + 3 + elementsText size len < k := by
    obtain ⟨hne, hsum⟩ := elementCalls_sum hs turns len h
    rw [under_head h0 hk (hb turns) (by simp), List.dropLast_cons_of_ne_nil (by simp),
      List.dropLast_cons_of_ne_nil (by simp),
      List.dropLast_cons_of_ne_nil hne, List.sum_cons, List.sum_cons, List.sum_cons, hsum]
    omega
  constructor
  · exact fun h => (hend (len + 1) (Nat.lt_succ_self len)).mp (h (len + 1))
  · intro h turns
    have hmore := (hend (turns + (len + 1)) (by omega)).mpr h
    refine hmore.of_prefix ?_
    simp only [List.prefix_cons_inj]
    exact elementCalls_prefix size turns (len + 1) len

/-- Elements of no bytes are printed over the end of any buffer. -/
theorem endless_outside (n tag : Nat) {len : Nat} (ht : tag ≤ INT_MAX) (hlen : len ≠ 0) :
    ¬∀ turns, Under k 0 (n :: 2 :: tag :: 1 :: elementCalls 0 turns len) := by
  intro h
  have hb : ∀ m ∈ 2 :: tag :: 1 :: List.replicate (k + 1) 3, m ≤ INT_MAX := by
    intro m hm
    simp only [List.mem_cons] at hm
    rcases hm with rfl | rfl | rfl | hm
    · decide
    · exact ht
    · decide
    · rw [List.eq_of_mem_replicate hm]
      decide
  have hlong := h (k + 1)
  rw [elementCalls_endless (k + 1) hlen, show " 0x".length = 3 by decide, under_head h0 hk hb (by simp)] at hlong
  rw [List.dropLast_cons_of_ne_nil (by simp), List.dropLast_cons_of_ne_nil (by simp),
    List.dropLast_cons_of_ne_nil (by simp),
    List.dropLast_replicate, List.sum_cons, List.sum_cons, List.sum_cons, List.sum_replicate_nat] at hlong
  omega

/-- The cursor is below `k` before every call for a property just when the text
before the last call is shorter. -/
theorem under_text (d : DTBDefs) (props : List PropertyEntry) (f : Blob) (o : Int) (name : Str)
    (hend : datatypeSize props name = STRING_DATATYPE → ∀ pos len, getprop f o name = .ok (pos, len) →
      u32 len = 0 ∨ f.addr + pos + u32 len < 2 ^ 64) :
    (∀ turns, Under k 0 (propertyCalls d props f o name turns)) ↔
      ∃ n, textBefore f o name (datatypeSize props name) = some n ∧ n < k := by
  have hname : "  ".length + name.length + " ".length = name.length + 3 := by
    rw [show "  ".length = 2 by decide, show " ".length = 1 by decide]
    omega
  unfold propertyCalls textBefore propertyBytes valueCalls getPropSize
  generalize datatypeSize props name = size at hend ⊢
  dsimp only
  rw [hname]
  cases hget : getprop f o name with
  | error e =>
    simp only [lenError_ne, ne_eq, not_false_eq_true, if_true]
    exact iff_of_true (fun _ => under_single h0 _) ⟨0, rfl, h0⟩
  | ok r =>
    obtain ⟨pos, len⟩ := r
    obtain ⟨hpos, hmax⟩ := getprop_range hget
    have hlast := fun h => hend h pos len hget
    obtain ⟨n, rfl⟩ := Int.eq_ofNat_of_zero_le hpos
    simp only [INT_MAX] at hmax
    have hu : u32 (n : Int) = n := u32_ofNat (by omega)
    have hv : ((List.range n).map fun i => f.rd (pos + i)) = bytesAt f pos n := rfl
    have hlen : (bytesAt f pos n).length = n := bytesAt_length f pos n
    simp only [Int.toNat_natCast, hu, hv, Int.not_lt.mpr (Int.natCast_nonneg n), if_false, ne_eq, not_true_eq_false]
      at hlast ⊢
    generalize bytesAt f pos n = v at *
    by_cases hn : n = 0
    · subst hn
      rw [List.eq_nil_of_length_eq_zero hlen]
      have h32 : ∀ m ∈ ["; /* True [boolean property] */".length], m ≤ INT_MAX := by decide
      simp only [if_true, under_head h0 hk h32 (by simp), forall_const, List.dropLast_singleton, List.sum_nil,
        Nat.add_zero,
        Option.some.injEq, exists_eq_left']
    · have hne : v ≠ [] := by
        rintro rfl
        exact hn hlen.symm
      have h2 : "= ".length = 2 := by decide
      have h1 : "<".length = 1 := by decide
      have htag : " ".length = 1 := by decide
      simp only [if_neg hn, if_neg hne, h2, h1, htag]
      by_cases hstr : size = STRING_DATATYPE
      · have hcalls := stringCalls_eq f v (f.addr + pos) pos n hv (by omega) ((hlast hstr).resolve_left hn)
        have hs : ∀ s ∈ strings v, s.length + 2 ≤ INT_MAX := by
          intro s hs
          have := strings_length v s hs
          simp only [INT_MAX]
          omega
        simp only [hstr, not_true_eq_false, if_false, if_true, List.nil_append, hcalls, forall_const,
          Option.some.injEq,
          exists_eq_left']
        exact stringText_exact h0 hk _ _ hs
      · have hle : (getSizeTag size).length + 1 ≤ INT_MAX :=
          Nat.le_trans (Nat.succ_le_succ (sizeTag_length size)) (by decide)
        simp only [hstr, not_false_eq_true, if_false, if_true, List.singleton_append]
        by_cases hsize : size = 0
        · subst hsize
          refine iff_of_false (endless_outside h0 hk _ _ hle hn) ?_
          rintro ⟨m, hm, -⟩
          cases hm
        · rw [if_neg hsize, elementText_exact h0 hk _ _ _ hle (Nat.pos_of_ne_zero hsize), hlen]
          simp only [Option.some.injEq, exists_eq_left']
          omega

end

/-- The cursor is in the buffer before every call for a property just when the
text before the last call is shorter than the buffer. -/
theorem cursor_exact (d : DTBDefs) (props : List PropertyEntry) (f : Blob) (o : Int) (name : Str)
    (hend : ∀ pos len, getprop f o name = .ok (pos, len) → f.addr + pos + len.toNat < 2 ^ 64) :
    CursorInside d props f o name ↔ ∃ n, textBefore f o name (datatypeSize props name) = some n ∧ n < BUFFER_SIZE := by
  refine under_text (by decide) (by decide) d props f o name fun _ pos len hget => Or.inr ?_
  obtain ⟨hpos, hmax⟩ := getprop_range hget
  obtain ⟨n, rfl⟩ := Int.eq_ofNat_of_zero_le hpos
  simp only [INT_MAX] at hmax
  rw [u32_ofNat (by omega)]
  exact hend pos n hget

/-- A root with one property, named "x". -/
def cursorBlob (value : List UInt8) : Blob :=
  ⟨0, memOf 0 (assemble [.beginNode [], .prop [120] value, .endNode] 0)⟩

theorem cursor_exact_two : CursorInside imageDefs [] (cursorBlob [1, 2]) 0 [120] := by
  have hget : getprop (cursorBlob [1, 2]) 0 [120] = .ok (76, 2) := by decide +kernel
  refine (cursor_exact imageDefs [] (cursorBlob [1, 2]) 0 [120] ?_).mpr ⟨26, by decide +kernel, by decide⟩
  intro pos len h
  obtain ⟨rfl, rfl⟩ := Prod.mk.inj (Except.ok.inj (hget.symm.trans h))
  decide

/-- 40 bytes are printed over the end of the buffer. -/
theorem cursor_leaves : ¬∀ (d : DTBDefs) (props : List PropertyEntry) (f : Blob) (o : Int) (name : Str),
    (∀ pos len, getprop f o name = .ok (pos, len) → f.addr + pos + len.toNat < 2 ^ 64) →
    CursorInside d props f o name := by
  intro h
  have hget : getprop (cursorBlob (List.replicate 40 1)) 0 [120] = .ok (76, 40) := by decide +kernel
  have hin := h imageDefs [] (cursorBlob (List.replicate 40 1)) 0 [120] (by
    intro pos len h
    obtain ⟨rfl, rfl⟩ := Prod.mk.inj (Except.ok.inj (hget.symm.trans h))
    decide) 41
  have hcalls : propertyCalls imageDefs [] (cursorBlob (List.replicate 40 1)) 0 [120] 41 =
      4 :: ([2, 9, 1] ++ (List.replicate 40 [3, 2]).flatten ++ [3]) := by
    decide +kernel
  have hunder : Under BUFFER_SIZE 0 _ := hin
  rw [hcalls, under_head (by decide) (by decide) (by decide) (by decide)] at hunder
  exact absurd hunder (by decide)

end DTFramework.Select
