import DTFramework.Fdt.Header

/-!
# Copying memory

A copy writes its range and nothing else (`copy_in`, `copy_out`). What is read
of a blob's header depends on its bytes alone, so blobs of the same bytes have
the same total size (`SameBytes.totalsize`).

Results:

* `copy_in`, `copy_out`: what a copy writes, and what it leaves;
* `SameBytes.totalsize`: blobs of the same bytes have the same size.
-/
namespace DTFramework.Fdt

/-- `memcpy`; of overlapping ranges the bytes before the copy are taken. -/
def copy (m : Mem) (dst src n : Nat) : Mem := fun a => if dst ≤ a ∧ a < dst + n then m (src + (a - dst)) else m a

theorem copy_in (m : Mem) {dst src n i : Nat} (h : i < n) : copy m dst src n (dst + i) = m (src + i) := by
  unfold copy
  rw [if_pos ⟨by omega, by omega⟩, Nat.add_sub_cancel_left]

theorem copy_out (m : Mem) {dst src n a : Nat} (h : a < dst ∨ dst + n ≤ a) : copy m dst src n a = m a := by
  unfold copy
  rw [if_neg (by omega)]

/-- The `n` bytes at `p` are those at `p'` of another memory. -/
def SameBytes (m : Mem) (p : Nat) (m' : Mem) (p' n : Nat) : Prop := ∀ i < n, m (p + i) = m' (p' + i)

theorem SameBytes.symm {m m' : Mem} {p p' n : Nat} (h : SameBytes m p m' p' n) : SameBytes m' p' m p n :=
  fun i hi => (h i hi).symm

theorem SameBytes.trans {m m' m'' : Mem} {p p' p'' n : Nat} (h : SameBytes m p m' p' n)
    (h' : SameBytes m' p' m'' p'' n) : SameBytes m p m'' p'' n := fun i hi => (h i hi).trans (h' i hi)

theorem SameBytes.mono {m m' : Mem} {p p' n k : Nat} (h : SameBytes m p m' p' n) (hk : k ≤ n) :
    SameBytes m p m' p' k := fun i hi => h i (Nat.lt_of_lt_of_le hi hk)

theorem sameBytes_copy (m : Mem) (dst src n : Nat) : SameBytes (copy m dst src n) dst m src n :=
  fun _ hi => copy_in m hi

/-- Ranges of `n` bytes at `p` and `k` bytes at `q` have no byte in common. -/
def Apart (p n q k : Nat) : Prop := p + n ≤ q ∨ q + k ≤ p

theorem Apart.mono {p n q k n' k' : Nat} (h : Apart p n q k) (hn : n' ≤ n) (hk : k' ≤ k) : Apart p n' q k' := by
  unfold Apart at h ⊢
  omega

theorem Apart.symm {p n q k : Nat} (h : Apart p n q k) : Apart q k p n := Or.symm h

theorem SameBytes.refl (m : Mem) (p n : Nat) : SameBytes m p m p n := fun _ _ => rfl

theorem sameBytes_copy_apart (m : Mem) {dst src n p k : Nat} (h : Apart dst n p k) :
    SameBytes (copy m dst src n) p m p k := by
  intro i hi
  refine copy_out m ?_
  rcases h with h | h
  · exact Or.inr (by omega)
  · exact Or.inl (by omega)

theorem be32_congr {f g : Blob} {o n : Nat} (h : ∀ i < n, f.rd i = g.rd i) (ho : o + 4 ≤ n) : be32 f o = be32 g o := by
  unfold be32
  rw [h o (by omega), h (o + 1) (by omega), h (o + 2) (by omega), h (o + 3) (by omega)]

theorem SameBytes.totalsize {m m' : Mem} {p p' n : Nat} (h : SameBytes m p m' p' n) (hn : 8 ≤ n) :
    totalsize (blobAt m p) = totalsize (blobAt m' p') :=
  be32_congr (n := n) (fun i hi => h i hi) hn

end DTFramework.Fdt
