import Mathlib.Data.List.Basic
import Mathlib.Data.List.Induction
import DTFramework.Fdt.Assemble
import DTFramework.Fdt.Iterate
import DTFramework.Extn.AddProp
import DTFramework.Select.Image

/-!
# Packed values of a node

`fdt_get_prop_values_of_node` copies the values of a node's properties one after
the other into the caller's buffer, as a string of letters tells. A buffer is
the bytes from the caller's pointer on, without an end, so that a write anywhere
shows.

`extract_append` and `extract_stop` say all the loop does: properties that fit
are copied, and the first one that does not ends it. From these come the layout
of the buffer (`values_packed`), what a failed call leaves in it
(`failed_exact`), and that no error of the iterator is reported
(`errors_exact`).

Results:

* `values_packed`: every call, by what it writes and when it succeeds;
* `failed_exact`: the failed calls that leave zeros; `partial_data` shows another;
* `errors_exact`: the calls that report the iterator's error; `bad_offset_accepted`
  shows another.
-/
namespace DTFramework.Extn

open DTFramework.Fdt

/-- The constants of `DTBDefs.h` that the packed getters need besides. -/
structure PackDefs extends DTBDefs where
  FDT_ERR_QC_BADFORMAT : Int
  /-- The library extends the standard error codes. -/
  pack_extends_std : FDT_ERR_MAX < FDT_ERR_QC_BADFORMAT

/-- Memory from the caller's pointer on. -/
abbrev Buffer := Nat → UInt8

/-- Bytes written at `pos`. -/
def Buffer.store (buf : Buffer) (pos : Nat) (bytes : List UInt8) : Buffer := fun i =>
  if pos ≤ i then bytes[i - pos]?.getD (buf i) else buf i

/-- `SetMem (Buffer, Length, Value)` of EDK2's BaseMemoryLib; the value is a `UINT8`. -/
def setMem (buf : Buffer) (length value : Nat) : Buffer := fun i =>
  if i < length then UInt8.ofNat value else buf i

/-- The loop of `fdt_get_prop_values_size_of_node` over the properties: the
status and `*size`. -/
def sumLengths (d : DTBDefs) (f : Blob) : List Int → Nat → Int × Nat
  | [], size => (FDT_ERR_QC_NOERROR, size)
  | property :: ps, size =>
    match getpropByOffset f property with
    | .error len => (lenError d len, size)
    | .ok (_, len) =>
      if len < 0 then (lenError d len, size) else sumLengths d f ps ((size + u32 len) % 0x100000000)

/-- mirrors libs/DTBExtnLib/DTBExtnLib_node.c:1118-1165
(`fdt_get_prop_values_size_of_node`) -/
def getPropValuesSize (d : DTBDefs) (f : Blob) (offset : Int) : Int × Nat :=
  sumLengths d f (propertyOffsets f offset) 0

/-- `format[i]`, in a string that ends at its NUL. -/
def formatAt (format : Str) (i : Nat) : Option UInt8 := (format ++ [0])[i]?

/-- 'i' and 'I': the property is ignored. -/
def isIgnore (c : UInt8) : Bool := c == 105 || c == 73

/-- The width of the elements that the letter stands for. -/
def formatWidth (c : UInt8) : Option Nat :=
  if c = 98 ∨ c = 66 then some 1
  else if c = 104 ∨ c = 72 then some 2
  else if c = 119 ∨ c = 87 then some 4
  else if c = 100 ∨ c = 68 then some 8
  else none

/-- What the copy loop of one property stores: `len / w` elements, in the order
of the host. -/
def copied (f : Blob) (swalk len w : Nat) : List UInt8 :=
  (List.range (len / w)).flatMap fun j => hostBytes w (beValue f (swalk + j * w) w)

/-- The loop of `fdt_get_prop_values_of_node` over the properties: the status at
`exit` and the buffer. An empty value is an error of libfdt here, the test for
it that follows is never reached.
mirrors libs/DTBExtnLib/DTBExtnLib_node.c:1223-1323 -/
def extract (d : PackDefs) (f : Blob) (format : Str) (size : Nat) :
    List Int → Nat → Nat → Buffer → Except Fault (Int × Buffer)
  | [], _, _, buf => .ok (FDT_ERR_QC_NOERROR, buf)
  | property :: ps, i, count, buf =>
    match formatAt format i with
    | none => .error .outOfBounds
    | some c =>
      if isIgnore c then extract d f format size ps (i + 1) count buf
      else match getpropByOffset f property with
      | .error len => .ok (lenError d.toDTBDefs len, buf)
      | .ok (_, len) =>
        if len ≤ 0 then .ok (lenError d.toDTBDefs len, buf)
        else if size ≤ count then .ok (-d.FDT_ERR_QC_TRUNCATED, buf)
        else if ((size - count : Nat) : Int) < len then .ok (-d.FDT_ERR_QC_OVERFLOW, buf)
        else match formatWidth c with
        | none => .ok (-d.FDT_ERR_QC_BADFORMAT, buf)
        | some w => extract d f format size ps (i + 1) (count + len.toNat)
            (buf.store count (copied f (propValue f property) len.toNat w))

/-- mirrors libs/DTBExtnLib/DTBExtnLib_node.c:1188-1337
(`fdt_get_prop_values_of_node`), for pointers that are not null -/
def getPropValues (d : PackDefs) (f : Blob) (offset : Int) (format : Str) (size : Nat) (buf : Buffer) :
    Except Fault (Int × Buffer) :=
  match extract d f format size (propertyOffsets f offset) 0 0 buf with
  | .error e => .error e
  | .ok (r, buf) => .ok (r, if r ≠ FDT_ERR_QC_NOERROR ∧ 0 < size then setMem buf 0 size else buf)

/-- The clean-up clears no byte: its length is the second argument. -/
theorem setMem_zero (buf : Buffer) (n : Nat) : setMem buf 0 n = buf := by
  funext i
  exact if_neg (Nat.not_lt_zero i)

theorem getPropValues_ok {d : PackDefs} {f : Blob} {offset : Int} {format : Str} {size : Nat} {buf b : Buffer}
    {r : Int}
    (h : extract d f format size (propertyOffsets f offset) 0 0 buf = .ok (r, b)) :
    getPropValues d f offset format size buf = .ok (r, b) := by
  unfold getPropValues
  rw [h]
  simp only [setMem_zero, ite_self]

/-! ## What is copied -/

/-- The letter of the property at `i`, NUL past the end of the string. -/
def letter (format : Str) (i : Nat) : UInt8 := format.getD i 0

/-- The properties from the `i`-th on, each with its letter. -/
def lettered (format : Str) : Nat → List Int → List (Int × UInt8)
  | _, [] => []
  | i, p :: ps => (p, letter format i) :: lettered format (i + 1) ps

/-- The property can be read. -/
def Readable (f : Blob) (p : Int) : Prop := ∃ name, getpropByOffset f p = .ok (name, propLen f p)

/-- A letter asks for a property that can be extracted. -/
def Extractable (f : Blob) (x : Int × UInt8) : Prop :=
  isIgnore x.2 = true ∨ (Readable f x.1 ∧ 0 < propLen f x.1 ∧ formatWidth x.2 ≠ none)

/-- Bytes of the buffer that are the property's. -/
def extent (f : Blob) (x : Int × UInt8) : Nat := if isIgnore x.2 then 0 else propLen f x.1

def totalExtent (f : Blob) (xs : List (Int × UInt8)) : Nat := (xs.map (extent f)).sum

/-- The bytes of a value whose elements have been converted from big-endian. -/
def hostValue (w : Nat) (v : List UInt8) : List UInt8 := (elements w v).flatMap (hostBytes w)

/-- A property in the buffer. Bytes that are left over after the last whole
element are not written. -/
def piece (f : Blob) (x : Int × UInt8) : List (Option UInt8) :=
  match isIgnore x.2, formatWidth x.2 with
  | false, some w =>
    (hostValue w (bytesAt f (propValue f x.1) (propLen f x.1))).map some ++ List.replicate (propLen f x.1 % w) none
  | _, _ => []

/-- The properties in the buffer, from its start. -/
def pieces (f : Blob) (xs : List (Int × UInt8)) : List (Option UInt8) := xs.flatMap (piece f)

/-- A buffer over which pieces are laid, from `pos` on. -/
def overlay (buf : Buffer) (pos : Nat) (bs : List (Option UInt8)) : Buffer := fun i =>
  if pos ≤ i then (bs[i - pos]?.getD none).getD (buf i) else buf i

theorem copied_eq (f : Blob) (p n w : Nat) : copied f p n w = hostValue w (bytesAt f p n) := by
  unfold copied hostValue
  rw [elements_bytesAt, List.flatMap_map]

theorem hostValue_length (w : Nat) (v : List UInt8) : (hostValue w v).length = v.length / w * w := by
  simp [hostValue, elements, hostBytes, List.length_flatMap, Function.comp_def, List.map_const']

theorem overlay_nil (buf : Buffer) (pos : Nat) : overlay buf pos [] = buf := by
  funext i
  simp [overlay]

theorem overlay_append (buf : Buffer) (pos : Nat) (a b : List (Option UInt8)) :
    overlay (overlay buf pos a) (pos + a.length) b = overlay buf pos (a ++ b) := by
  funext i
  unfold overlay
  by_cases h : pos + a.length ≤ i
  · rw [if_pos h, if_pos (by omega), if_pos (by omega), List.getElem?_append_right (by omega),
      List.getElem?_eq_none (l := a) (by omega), show i - pos - a.length = i - (pos + a.length) by omega]
    rfl
  · rw [if_neg h]
    split
    · rw [List.getElem?_append_left (by omega)]
    · rfl

/-- What a copy loop stores is the written part of its piece. -/
theorem store_overlay (buf : Buffer) (pos k : Nat) (bytes : List UInt8) :
    buf.store pos bytes = overlay buf pos (bytes.map some ++ List.replicate k none) := by
  funext i
  unfold Buffer.store overlay
  split
  · by_cases h : i - pos < bytes.length
    · rw [List.getElem?_append_left (by simpa using h)]
      simp [h]
    · rw [List.getElem?_append_right (by simpa using h), List.getElem?_eq_none (by simpa using h),
        List.getElem?_replicate]
      split <;> rfl
  · rfl

theorem piece_length {f : Blob} {x : Int × UInt8} (h : Extractable f x) : (piece f x).length = extent f x := by
  unfold piece extent
  rcases h with h | ⟨-, -, h⟩
  · rw [h]
    rfl
  · obtain ⟨w, hw⟩ := Option.ne_none_iff_exists'.mp h
    rw [hw]
    cases isIgnore x.2
    · simp only [Bool.false_eq_true, if_false, List.length_append, List.length_map, hostValue_length, bytesAt_length,
        List.length_replicate]
      exact Nat.div_add_mod' _ _
    · rfl

theorem pieces_length {f : Blob} {xs : List (Int × UInt8)} (h : ∀ x ∈ xs, Extractable f x) :
    (pieces f xs).length = totalExtent f xs := by
  unfold pieces totalExtent
  rw [List.length_flatMap, List.map_congr_left fun x hx => piece_length (h x hx)]

/-! ## The loop -/

section
variable {d : PackDefs} {f : Blob} {format : Str} {size : Nat}

theorem letter_eq {i : Nat} (h : i ≤ format.length) : formatAt format i = some (letter format i) := by
  unfold formatAt letter
  rcases Nat.lt_or_eq_of_le h with h | rfl
  · rw [List.getElem?_append_left h]
    simp [h]
  · simp

/-- A letter that means something is no NUL. -/
theorem letter_lt {p : Int} {i : Nat} (h : Extractable f (p, letter format i)) : i < format.length := by
  by_contra hi
  have hnul : letter format i = 0 := by simp [letter, Nat.not_lt.mp hi]
  rw [hnul] at h
  rcases h with h | ⟨-, -, h⟩
  · exact absurd (show isIgnore 0 = true from h) (by decide)
  · exact h rfl

theorem getpropByOffset_len {p : Int} (ht : (nextTag f p).1 = FDT_PROP) {name : Str} {len : Int}
    (h : getpropByOffset f p = .ok (name, len)) : len = propLen f p := by
  unfold getpropByOffset getPropertyByOffset at h
  split at h
  · cases h
  · rename_i len' hlen
    split at hlen
    · cases hlen
    · split at h
      · cases h
      · cases h
        have hlt := propLen_lt ht
        simp only [INT_MAX] at hlt
        have heq : len = int32 (propLen f p) := (Except.ok.inj hlen).symm
        generalize propLen f p = n at hlt heq ⊢
        rw [heq]
        exact int32_ofNat (by omega)

/-- One turn for a property that can be extracted and fits. -/
theorem extract_cons {p : Int} {ps : List Int} {i count : Nat} {buf : Buffer}
    (hx : Extractable f (p, letter format i)) (hfit : count + extent f (p, letter format i) ≤ size) :
    extract d f format size (p :: ps) i count buf =
      extract d f format size ps (i + 1) (count + extent f (p, letter format i))
        (overlay buf count (piece f (p, letter format i))) := by
  have hi := letter_lt hx
  rw [extract, letter_eq (Nat.le_of_lt hi)]
  unfold extent piece at *
  dsimp only at *
  cases hig : isIgnore (letter format i)
  · rw [hig] at hfit
    rcases hx with hx | ⟨⟨name, hget⟩, hpos, hw⟩
    · exact absurd (hx.symm.trans hig) (by decide)
    · obtain ⟨w, hw⟩ := Option.ne_none_iff_exists'.mp hw
      simp only [Bool.false_eq_true, if_false] at hfit hget hpos hw ⊢
      rw [hget]
      dsimp only
      rw [if_neg (by omega), if_neg (by omega), if_neg (by omega), hw]
      dsimp only
      rw [Int.toNat_natCast, copied_eq, store_overlay _ _ (propLen f p % w)]
  · simp only [if_true, overlay_nil, Nat.add_zero]

/-- The turns for properties that can be extracted and fit. -/
theorem extract_append (d : PackDefs) (size : Nat) (post pre : List Int) :
    ∀ (i count : Nat) (buf : Buffer), i ≤ format.length →
    (∀ x ∈ lettered format i pre, Extractable f x) → count + totalExtent f (lettered format i pre) ≤ size →
    i + pre.length ≤ format.length ∧
    extract d f format size (pre ++ post) i count buf =
      extract d f format size post (i + pre.length) (count + totalExtent f (lettered format i pre))
        (overlay buf count (pieces f (lettered format i pre))) := by
  induction pre with
  | nil =>
    intro i count buf hi _ _
    exact ⟨hi, by simp [lettered, totalExtent, pieces, overlay_nil]⟩
  | cons p pre ih =>
    intro i count buf _ hx hfit
    have hp := hx _ List.mem_cons_self
    have hsum : totalExtent f (lettered format i (p :: pre)) =
        extent f (p, letter format i) + totalExtent f (lettered format (i + 1) pre) := by
      simp [lettered, totalExtent]
    have hpieces : pieces f (lettered format i (p :: pre)) =
        piece f (p, letter format i) ++ pieces f (lettered format (i + 1) pre) := by
      simp [lettered, pieces]
    rw [hsum] at hfit ⊢
    obtain ⟨h1, h2⟩ := ih (i + 1) (count + extent f (p, letter format i))
      (overlay buf count (piece f (p, letter format i))) (letter_lt hp)
      (fun x hx' => hx x (List.mem_cons_of_mem _ hx')) (by omega)
    refine ⟨by rw [List.length_cons]; omega, ?_⟩
    rw [List.cons_append, extract_cons hp (by omega), h2, hpieces, ← overlay_append, piece_length hp,
      Nat.add_assoc count, List.length_cons, show i + 1 + pre.length = i + (pre.length + 1) by omega]

/-- The turn for the first property that cannot be extracted or does not fit. -/
theorem extract_stop (d : PackDefs) (ps : List Int) (buf : Buffer) {p : Int} {i count : Nat} (hi : i ≤ format.length)
    (ht : (nextTag f p).1 = FDT_PROP) (hstop : Extractable f (p, letter format i) →
      size < count + extent f (p, letter format i))
    (hcount : count ≤ size) :
    ∃ r, extract d f format size (p :: ps) i count buf = .ok (r, buf) ∧ r ≠ FDT_ERR_QC_NOERROR ∧
      (Extractable f (p, letter format i) → r = -d.FDT_ERR_QC_TRUNCATED ∨ r = -d.FDT_ERR_QC_OVERFLOW) := by
  have hstd := d.extends_std
  have hbad := d.pack_extends_std
  simp only [FDT_ERR_MAX, List.mem_cons, List.not_mem_nil, or_false, forall_eq_or_imp, forall_eq] at hstd hbad
  rw [extract, letter_eq hi]
  unfold extent Extractable at *
  dsimp only at *
  cases hig : isIgnore (letter format i)
  · rw [hig] at hstop
    simp only [Bool.false_eq_true, if_false, false_or] at hstop ⊢
    cases hget : getpropByOffset f p with
    | error len =>
      refine ⟨_, rfl, lenError_ne _ _, fun hx => ?_⟩
      obtain ⟨⟨name, h⟩, -⟩ := hx
      rw [hget] at h
      cases h
    | ok x =>
      obtain ⟨name, len⟩ := x
      obtain rfl := getpropByOffset_len ht hget
      dsimp only
      split
      · rename_i h0
        exact ⟨_, rfl, lenError_ne _ _, fun hx => absurd hx.2.1 (by omega)⟩
      · split
        · exact ⟨_, rfl, by simp only [FDT_ERR_QC_NOERROR]; omega, fun _ => Or.inl rfl⟩
        · split
          · exact ⟨_, rfl, by simp only [FDT_ERR_QC_NOERROR]; omega, fun _ => Or.inr rfl⟩
          · rename_i h0 h1 h2
            have hnone : formatWidth (letter format i) = none := by
              by_contra hw
              have := hstop ⟨⟨name, hget⟩, by omega, hw⟩
              omega
            rw [hnone]
            exact ⟨_, rfl, by simp only [FDT_ERR_QC_NOERROR]; omega, fun hx => absurd rfl hx.2.2⟩
  · rw [hig] at hstop
    simp only [if_true, true_or, forall_true_left] at hstop
    omega

/-- The first properties, when all of them are copied. -/
structure Copies (f : Blob) (format : Str) (size : Nat) (pre : List Int) : Prop where
  extractable : ∀ x ∈ lettered format 0 pre, Extractable f x
  fits : totalExtent f (lettered format 0 pre) ≤ size

theorem lettered_append (format : Str) (post pre : List Int) : ∀ i, lettered format i (pre ++ post) =
    lettered format i pre ++ lettered format (i + pre.length) post := by
  induction pre with
  | nil => intro i; rfl
  | cons q pre ih =>
    intro i
    simp only [List.cons_append, lettered, ih, List.length_cons]
    rw [show i + 1 + pre.length = i + (pre.length + 1) by omega]

theorem lettered_fst (format : Str) (ps : List Int) : ∀ i, (lettered format i ps).map Prod.fst = ps := by
  induction ps with
  | nil => intro i; rfl
  | cons p ps ih => exact fun i => congrArg (p :: ·) (ih (i + 1))

theorem Copies.of_append {pre : List Int} (post : List Int) (h : Copies f format size (pre ++ post)) :
    Copies f format size pre := by
  obtain ⟨h1, h2⟩ := h
  rw [lettered_append] at h1 h2
  refine ⟨fun x hx => h1 x (List.mem_append_left _ hx), Nat.le_trans ?_ h2⟩
  simp [totalExtent]

/-- The property after copied ones is copied too, or cannot be extracted, or is too long. -/
theorem copies_snoc {pre : List Int} {p : Int} (h : Copies f format size pre) : Copies f format size (pre ++ [p]) ↔
    Extractable f (p, letter format pre.length) ∧
      totalExtent f (lettered format 0 pre) + extent f (p, letter format pre.length) ≤ size := by
  have hl := lettered_append format [p] pre 0
  rw [Nat.zero_add] at hl
  have htotal : totalExtent f (lettered format 0 (pre ++ [p])) =
      totalExtent f (lettered format 0 pre) + extent f (p, letter format pre.length) := by
    rw [hl]
    simp [totalExtent, lettered]
  constructor
  · rintro ⟨h1, h2⟩
    rw [hl] at h1
    exact ⟨h1 _ (by simp [lettered]), htotal ▸ h2⟩
  · rintro ⟨h1, h2⟩
    refine ⟨fun x hx => ?_, htotal ▸ h2⟩
    rw [hl] at hx
    rcases List.mem_append.mp hx with hx | hx
    · exact h.extractable x hx
    · rw [List.mem_singleton.mp hx]
      exact h1

/-- All properties are copied, or those before the first that is not. -/
theorem copies_split (f : Blob) (format : Str) (size : Nat) (ps : List Int) : Copies f format size ps ∨
    ∃ pre p post, ps = pre ++ p :: post ∧ Copies f format size pre ∧ ¬Copies f format size (pre ++ [p]) := by
  induction ps using List.reverseRecOn with
  | nil => exact Or.inl ⟨by simp [lettered], Nat.zero_le _⟩
  | append_singleton ps p ih =>
    rcases ih with h | ⟨pre, q, post, rfl, h1, h2⟩
    · by_cases hp : Copies f format size (ps ++ [p])
      · exact Or.inl hp
      · exact Or.inr ⟨ps, p, [], rfl, h, hp⟩
    · exact Or.inr ⟨pre, q, post ++ [p], by simp, h1, h2⟩

/-- The bytes of the first properties in the buffer. -/
abbrev left (f : Blob) (format : Str) (pre : List Int) : List (Option UInt8) := pieces f (lettered format 0 pre)

/-- A call that copies all properties. -/
theorem getPropValues_copies {o : Int} (h : Copies f format size (propertyOffsets f o)) (buf : Buffer) :
    getPropValues d f o format size buf = .ok (FDT_ERR_QC_NOERROR,
        overlay buf 0 (left f format (propertyOffsets f o))) := by
  refine getPropValues_ok ?_
  obtain ⟨-, hrun⟩ := extract_append d size [] _ 0 0 buf (Nat.zero_le _) h.extractable
    (by simpa using h.fits)
  rw [List.append_nil] at hrun
  rw [hrun]
  rfl

/-- A call that stops at `p`. -/
theorem getPropValues_stops {o p : Int} {pre post : List Int} (hps : propertyOffsets f o = pre ++ p :: post)
    (hpre : Copies f format size pre) (hp : ¬Copies f format size (pre ++ [p])) (buf : Buffer) :
    ∃ r, getPropValues d f o format size buf = .ok (r, overlay buf 0 (left f format pre)) ∧ r ≠ FDT_ERR_QC_NOERROR ∧
      (Extractable f (p, letter format pre.length) → r = -d.FDT_ERR_QC_TRUNCATED ∨ r = -d.FDT_ERR_QC_OVERFLOW) := by
  have hfits := hpre.fits
  obtain ⟨hi, hrun⟩ := extract_append d size (p :: post) pre 0 0 buf (Nat.zero_le _) hpre.extractable
    (by simpa using hfits)
  rw [Nat.zero_add] at hi hrun
  rw [Nat.zero_add] at hrun
  have ht := (propertyOffsets_tag (f := f) (o := o) (p := p) (by rw [hps]; simp)).1
  have hstop : Extractable f (p, letter format pre.length) →
      size < totalExtent f (lettered format 0 pre) + extent f (p, letter format pre.length) := fun hx =>
    Nat.not_le.mp fun hle => hp ((copies_snoc hpre).mpr ⟨hx, hle⟩)
  obtain ⟨r, h1, h2, h3⟩ := extract_stop d post (overlay buf 0 (left f format pre)) hi ht hstop hfits
  exact ⟨r, getPropValues_ok (by rw [hps, hrun, h1]), h2, h3⟩

/-! ## Layout of the buffer -/

/-- Every letter of the format says to ignore the property or stands for a width
that divides the property's length, which is not 0. -/
def Suits (f : Blob) (o : Int) (format : Str) : Prop :=
  ∀ x ∈ lettered format 0 (propertyOffsets f o), isIgnore x.2 = true ∨
    ∃ w, formatWidth x.2 = some w ∧ Readable f x.1 ∧ 0 < propLen f x.1 ∧ w ∣ propLen f x.1

/-- The values that are not ignored, in order, each in the order of the host. -/
def packed (f : Blob) (xs : List (Int × UInt8)) : List UInt8 := xs.flatMap fun x =>
  if isIgnore x.2 then [] else hostValue ((formatWidth x.2).getD 1) (bytesAt f (propValue f x.1) (propLen f x.1))

theorem Suits.extractable {o : Int} (h : Suits f o format) :
    ∀ x ∈ lettered format 0 (propertyOffsets f o), Extractable f x := by
  intro x hx
  rcases h x hx with h | ⟨w, hw, hr, hpos, -⟩
  · exact Or.inl h
  · exact Or.inr ⟨hr, hpos, by rw [hw]; simp⟩

theorem pieces_packed {o : Int} (h : Suits f o format) :
    left f format (propertyOffsets f o) = (packed f (lettered format 0 (propertyOffsets f o))).map some := by
  unfold left pieces packed
  rw [List.map_flatMap]
  refine List.flatMap_congr fun x hx => ?_
  unfold piece
  rcases h x hx with h | ⟨w, hw, -, -, hdvd⟩
  · rw [h]
    rfl
  · rw [hw]
    cases isIgnore x.2
    · simp [Nat.mod_eq_zero_of_dvd hdvd]
    · rfl

theorem overlay_outside {buf : Buffer} {bs : List (Option UInt8)} {i : Nat} (h : bs.length ≤ i) :
    overlay buf 0 bs i = buf i := by
  unfold overlay
  rw [Nat.sub_zero, List.getElem?_eq_none h]
  exact ite_self _

/-- `fdt_get_prop_values_size_of_node` adds up the lengths. -/
theorem sumLengths_readable (ps : List Int) : ∀ {size : Nat}, (∀ p ∈ ps, Readable f p) →
    size + (ps.map fun p => propLen f p).sum < 0x100000000 →
    sumLengths d.toDTBDefs f ps size = (FDT_ERR_QC_NOERROR, size + (ps.map fun p => propLen f p).sum) := by
  induction ps with
  | nil => intro size _ _; rfl
  | cons p ps ih =>
    intro size hr hlt
    obtain ⟨name, hget⟩ := hr p List.mem_cons_self
    rw [List.map_cons, List.sum_cons] at hlt ⊢
    rw [sumLengths, hget]
    dsimp only
    rw [if_neg (Int.not_lt.mpr (Int.natCast_nonneg _)), u32_ofNat (by omega), Nat.mod_eq_of_lt (by omega),
      ih (fun q hq => hr q (List.mem_cons_of_mem _ hq)) (by omega), Nat.add_assoc]

end

/-- The packed values: a call never leaves the format, it succeeds just when the
buffer holds all values, which are then in it and nothing else is, and too small
a buffer is not left. With no property ignored the size is the one reported. -/
theorem values_packed (d : PackDefs) (f : Blob) (o : Int) (format : Str) :
    (∀ size buf, getPropValues d f o format size buf ≠ .error .outOfBounds) ∧
    (Suits f o format →
      (packed f (lettered format 0 (propertyOffsets f o))).length = totalExtent f
      (lettered format 0 (propertyOffsets f o)) ∧
      (∀ size buf, ∃ r b, getPropValues d f o format size buf = .ok (r, b) ∧
        (r = FDT_ERR_QC_NOERROR ↔ totalExtent f (lettered format 0 (propertyOffsets f o)) ≤ size) ∧
        (totalExtent f (lettered format 0 (propertyOffsets f o)) ≤ size →
          (∀ i (h : i < (packed f (lettered format 0 (propertyOffsets f o))).length),
            b i = (packed f (lettered format 0 (propertyOffsets f o)))[i]) ∧
          ∀ i, totalExtent f (lettered format 0 (propertyOffsets f o)) ≤ i → b i = buf i) ∧
        (size < totalExtent f (lettered format 0 (propertyOffsets f o)) →
          (r = -d.FDT_ERR_QC_TRUNCATED ∨ r = -d.FDT_ERR_QC_OVERFLOW) ∧ ∀ i, size ≤ i → b i = buf i)) ∧
      ((∀ x ∈ lettered format 0 (propertyOffsets f o), isIgnore x.2 = false) →
        getPropValuesSize d.toDTBDefs f o =
          (FDT_ERR_QC_NOERROR, totalExtent f (lettered format 0 (propertyOffsets f o))))) := by
  refine ⟨fun size buf => ?_, fun h => ⟨?_, fun size buf => ?_, fun hall => ?_⟩⟩
  · rcases copies_split f format size (propertyOffsets f o) with h | ⟨pre, p, post, hps, h1, h2⟩
    · rw [getPropValues_copies h]
      simp
    · obtain ⟨r, hr, -⟩ := getPropValues_stops (d := d) hps h1 h2 buf
      rw [hr]
      simp
  · rw [← pieces_length h.extractable, ← List.length_map (f := some), ← pieces_packed h]
  · rcases copies_split f format size (propertyOffsets f o) with hc | ⟨pre, p, post, hps, h1, h2⟩
    · refine ⟨_, _, getPropValues_copies hc buf, iff_of_true rfl hc.fits, fun _ => ⟨fun i hi => ?_, fun i hi => ?_⟩,
        fun hlt => absurd hc.fits (Nat.not_le.mpr hlt)⟩
      · rw [pieces_packed h]
        simp [overlay, hi]
      · exact overlay_outside (by rw [pieces_length h.extractable]; exact hi)
    · obtain ⟨r, hr, hne, hsize⟩ := getPropValues_stops (d := d) hps h1 h2 buf
      have hx : Extractable f (p, letter format pre.length) := by
        refine h.extractable _ ?_
        rw [hps, lettered_append]
        simp [lettered]
      have hlt : size < totalExtent f (lettered format 0 (propertyOffsets f o)) := by
        refine Nat.not_le.mp fun hle => h2 (Copies.of_append post ?_)
        rw [List.append_assoc, List.singleton_append, ← hps]
        exact ⟨h.extractable, hle⟩
      refine ⟨r, _, hr, iff_of_false hne (Nat.not_le.mpr hlt), fun hle => absurd hle (Nat.not_le.mpr hlt),
        fun _ => ⟨hsize hx, fun i hi => overlay_outside ?_⟩⟩
      rw [pieces_length h1.extractable]
      exact Nat.le_trans h1.fits hi
  · have hsum : totalExtent f (lettered format 0 (propertyOffsets f o)) =
        ((propertyOffsets f o).map fun p => propLen f p).sum := by
      conv_rhs => rw [← lettered_fst format (propertyOffsets f o) 0, List.map_map]
      unfold totalExtent
      refine congrArg List.sum (List.map_congr_left fun x hx => ?_)
      unfold extent
      rw [hall x hx]
      rfl
    have hread : ∀ p ∈ propertyOffsets f o, Readable f p := by
      intro p hp
      rw [← lettered_fst format (propertyOffsets f o) 0] at hp
      obtain ⟨x, hx, rfl⟩ := List.mem_map.mp hp
      rcases h x hx with hig | ⟨w, -, hr, -⟩
      · exact absurd ((hall x hx).symm.trans hig) (by decide)
      · exact hr
    unfold getPropValuesSize
    rw [sumLengths_readable _ hread (by rw [Nat.zero_add]; exact propertyOffsets_extent f o), hsum, Nat.zero_add]

def packDefs : PackDefs :=
  { Select.imageDefs with FDT_ERR_QC_BADFORMAT := 1010, pack_extends_std := eleventh_extends_std }

/-- A node with a cell and two bytes, named "a" and "b". -/
def packBlob : Blob :=
  ⟨0, memOf 0 (assemble [.beginNode [], .prop [97] [0, 0, 0, 5], .prop [98] [1, 2], .endNode] 0)⟩

/-- A call with the format "wb" and a buffer of 6 bytes. -/
theorem values_packed_wb : Suits packBlob 0 [119, 98] ∧
    (getPropValues packDefs packBlob 0 [119, 98] 6 (fun _ => 0xff)).map (fun x => (x.1, (List.range 7).map x.2)) =
      .ok (FDT_ERR_QC_NOERROR, [5, 0, 0, 0, 1, 2, 0xff]) := by
  have hoffsets : propertyOffsets packBlob 0 = [8, 24] := by decide +kernel
  have hsuits : Suits packBlob 0 [119, 98] := by
    unfold Suits
    rw [hoffsets]
    intro x hx
    simp only [lettered, letter, List.mem_cons, List.not_mem_nil, or_false] at hx
    rcases hx with rfl | rfl
    · exact Or.inr ⟨4, rfl, ⟨[97], by decide +kernel⟩, by decide +kernel, by decide +kernel⟩
    · exact Or.inr ⟨1, rfl, ⟨[98], by decide +kernel⟩, by decide +kernel, by decide +kernel⟩
  have htotal : totalExtent packBlob (lettered [119, 98] 0 (propertyOffsets packBlob 0)) = 6 := by decide +kernel
  have hpacked : packed packBlob (lettered [119, 98] 0 (propertyOffsets packBlob 0)) = [5, 0, 0, 0, 1, 2] := by
    decide +kernel
  obtain ⟨-, hruns, -⟩ := (values_packed packDefs packBlob 0 [119, 98]).2 hsuits
  obtain ⟨r, b, hrun, hok, hfull, -⟩ := hruns 6 (fun _ => 0xff)
  rw [htotal] at hok hfull
  obtain ⟨hin, hout⟩ := hfull (Nat.le_refl 6)
  have hb : (List.range 7).map b = [5, 0, 0, 0, 1, 2, 0xff] := by
    have hi (i : Nat) (v : UInt8) (h : i < 6) (hv : [5, 0, 0, 0, 1, 2][i] = v) : b i = v := by
      rw [← hv, hin i (by rw [hpacked]; exact h)]
      simp [hpacked]
    simp [List.range_succ, hi 0 5, hi 1 0, hi 2 0, hi 3 0, hi 4 1, hi 5 2, hout 6 (Nat.le_refl 6)]
  refine ⟨hsuits, ?_⟩
  rw [hrun, hok.mpr (Nat.le_refl 6)]
  exact congrArg (fun l => Except.ok (FDT_ERR_QC_NOERROR, l)) hb

/-! ## What a failed call leaves -/

/-- A call that fails leaves zeros just when the bytes of the properties before
the one that stops it are zeros, and so is the rest of the buffer before the
call. -/
theorem failed_exact (d : PackDefs) (f : Blob) (o : Int) (format : Str) (size : Nat) (buf : Buffer) :
    (∀ r b, getPropValues d f o format size buf = .ok (r, b) → r ≠ FDT_ERR_QC_NOERROR → ∀ i < size, b i = 0) ↔
      ∀ pre p post, propertyOffsets f o = pre ++ p :: post → Copies f format size pre →
      ¬Copies f format size (pre ++ [p]) →
        (∀ v, some v ∈ left f format pre → v = 0) ∧
        ∀ i < size, (left f format pre)[i]?.getD none = none → buf i = 0 := by
  constructor
  · intro h pre p post hps h1 h2
    obtain ⟨r, hr, hne, -⟩ := getPropValues_stops (d := d) hps h1 h2 buf
    have hzero := h r _ hr hne
    have hle : (left f format pre).length ≤ size := by
      rw [pieces_length h1.extractable]
      exact h1.fits
    refine ⟨fun v hv => ?_, fun i hi hnone => ?_⟩
    · obtain ⟨i, hi, hv⟩ := List.mem_iff_getElem.mp hv
      have := hzero i (by omega)
      simpa [overlay, hi, hv] using this
    · have := hzero i hi
      simpa [overlay, hnone] using this
  · intro h r b hrun hne i hi
    rcases copies_split f format size (propertyOffsets f o) with hc | ⟨pre, p, post, hps, h1, h2⟩
    · rw [getPropValues_copies hc] at hrun
      cases hrun
      exact absurd rfl hne
    · obtain ⟨r', hr, -⟩ := getPropValues_stops (d := d) hps h1 h2 buf
      rw [hr] at hrun
      cases hrun
      obtain ⟨hcopied, hrest⟩ := h pre p post hps h1 h2
      show (if 0 ≤ i then ((left f format pre)[i - 0]?.getD none).getD (buf i) else buf i) = 0
      rw [if_pos (Nat.zero_le i), Nat.sub_zero]
      cases hb : (left f format pre)[i]?.getD none with
      | none => exact hrest i hi hb
      | some v =>
        refine hcopied v ?_
        obtain ⟨x, hx⟩ : ∃ x, (left f format pre)[i]? = some x := by
          cases hx : (left f format pre)[i]? with
          | none => rw [hx] at hb; cases hb
          | some x => exact ⟨x, rfl⟩
        rw [hx] at hb
        exact hb ▸ List.mem_of_getElem? hx

/-- A cell is left in a buffer of 5 bytes. -/
theorem partial_data : ¬∀ (d : PackDefs) (f : Blob) (o : Int) (format : Str) (size : Nat) (buf : Buffer) r b,
    getPropValues d f o format size buf = .ok (r, b) → r ≠ FDT_ERR_QC_NOERROR → ∀ i < size, b i = 0 := by
  intro h
  have hrun : (getPropValues packDefs packBlob 0 [119, 98] 5 (fun _ => 0)).map (fun x => (x.1, x.2 0)) =
      .ok (-packDefs.FDT_ERR_QC_OVERFLOW, 5) := by
    decide +kernel
  cases hb : getPropValues packDefs packBlob 0 [119, 98] 5 (fun _ => 0) with
  | error e => rw [hb] at hrun; cases hrun
  | ok x =>
    obtain ⟨r, b⟩ := x
    rw [hb] at hrun
    obtain ⟨hr, h0⟩ := Prod.mk.inj (Except.ok.inj hrun)
    simp only at hr h0
    have := h packDefs packBlob 0 [119, 98] 5 (fun _ => 0) r b hb (by rw [hr]; decide) 0 (by decide)
    rw [h0] at this
    exact absurd this (by decide)

/-! ## Errors of the iterator -/

/-- Each of the four getters succeeds only if the iteration came to the end of
the list of properties. -/
structure ReportsErrors (d : PackDefs) (f : Blob) (o : Int) : Prop where
  valuesSize : (getPropValuesSize d.toDTBDefs f o).1 = FDT_ERR_QC_NOERROR → propertyEnd f o = -FDT_ERR_NOTFOUND
  values : ∀ format size buf b, getPropValues d f o format size buf = .ok (FDT_ERR_QC_NOERROR, b) →
    propertyEnd f o = -FDT_ERR_NOTFOUND
  namesSize : (getPropNamesSize d.toDTBDefs f o).1 = FDT_ERR_QC_NOERROR → propertyEnd f o = -FDT_ERR_NOTFOUND
  names : ∀ size bytes, getPropNames d.toDTBDefs f o size = .ok (FDT_ERR_QC_NOERROR, bytes) →
    propertyEnd f o = -FDT_ERR_NOTFOUND

/-- Properties that are all ignored. -/
theorem copies_ignored (f : Blob) (ps : List Int) : Copies f (List.replicate ps.length 105) 0 ps := by
  have hletters : ∀ (n i : Nat) (qs : List Int), i + qs.length ≤ n →
      ∀ x ∈ lettered (List.replicate n 105) i qs, isIgnore x.2 = true := by
    intro n i qs
    induction qs generalizing i with
    | nil => simp [lettered]
    | cons q qs ih =>
      intro hle x hx
      rw [List.length_cons] at hle
      rcases List.mem_cons.mp hx with rfl | hx
      · have hi : i < n := by omega
        have hletter : letter (List.replicate n 105) i = 105 := by simp [letter, hi]
        rw [hletter]
        rfl
      · exact ih (i + 1) (by omega) x hx
  have hall := hletters ps.length 0 ps (by omega)
  refine ⟨fun x hx => Or.inl (hall x hx), ?_⟩
  have hextent : ∀ x ∈ lettered (List.replicate ps.length 105) 0 ps, extent f x = 0 := fun x hx => if_pos (hall x hx)
  unfold totalExtent
  rw [List.map_congr_left hextent]
  simp

/-- Errors of the iterator are reported just when there are none: the offset is
a node with a well-formed property area. -/
theorem errors_exact (d : PackDefs) (f : Blob) (o : Int) : ReportsErrors d f o ↔ NodeOk f o := by
  rw [← iteration_ended]
  constructor
  · intro h
    exact h.values _ 0 (fun _ => 0) _ (getPropValues_copies (copies_ignored f (propertyOffsets f o)) _)
  · exact fun h => ⟨fun _ => h, fun _ _ _ _ _ => h, fun _ => h, fun _ _ _ => h⟩

/-- The handle that `fdt_init_root_handle_for_driver` leaves: no error. -/
theorem bad_offset_accepted : ¬∀ (d : PackDefs) (f : Blob) (o : Int), ReportsErrors d f o := by
  intro h
  have hend := (h packDefs packBlob (-1)).valuesSize (by decide +kernel)
  exact absurd hend (by decide +kernel)

end DTFramework.Extn
