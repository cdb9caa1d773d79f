import DTFramework.Lib.Traced
import DTFramework.Lib.Tiles
import DTFramework.Lib.FirstMax
import DTFramework.Lib.Ledger
import DTFramework.Fdt.Header
import DTFramework.Fdt.Tag
import DTFramework.Fdt.Read
import DTFramework.Fdt.Assemble
import DTFramework.Extn.Prop
import DTFramework.Extn.Blob
import DTFramework.Select.Types
import DTFramework.Select.Candidate
import DTFramework.Select.Rank
import DTFramework.Select.Print
import DTFramework.Select.Walk
import DTFramework.Select.Open
import DTFramework.Select.CandidateSpec
import DTFramework.Select.Halts
import DTFramework.Select.Image
import DTFramework.Select.WalkSound
import DTFramework.Select.Headers
import DTFramework.Select.Optimal
import DTFramework.Fdt.PropArea
import DTFramework.Extn.Value
import DTFramework.Select.Filter
import DTFramework.Select.Balance
import DTFramework.Fdt.Copy
import DTFramework.Select.Handle
import DTFramework.Get.Merge
import DTFramework.Get.GetDt
import DTFramework.Get.Balance
import DTFramework.Select.LifeCycle
import DTFramework.Get.Selected
import DTFramework.Get.PlainLib
import DTFramework.Get.Compose
import DTFramework.Lib.Policy
import DTFramework.Select.Owned
import DTFramework.Get.Xbl
import DTFramework.Get.Own
import DTFramework.Get.Relocate
import DTFramework.Get.Agree
import DTFramework.Extn.Slice
import DTFramework.Extn.Driver
import DTFramework.Extn.AddProp
import DTFramework.Select.Range
import DTFramework.Select.DivZero
import DTFramework.Select.Tuples
import DTFramework.Select.Exhaust
import DTFramework.Fdt.Scan
import DTFramework.Extn.Hash
import DTFramework.Extn.Visit
import DTFramework.Extn.Register
import DTFramework.Extn.Bounds
import DTFramework.Extn.Phandles
import DTFramework.Extn.Table
import DTFramework.Extn.Lookup
import DTFramework.Select.Layout
import DTFramework.Select.Statuses
import DTFramework.Select.Modes
import DTFramework.Select.Printing
import DTFramework.Extn.Pages
import DTFramework.Extn.CacheSize
import DTFramework.Fdt.Iterate
import DTFramework.Extn.Packed
import DTFramework.Extn.Subnodes
import DTFramework.Extn.Names
import DTFramework.Get.Uefi
import DTFramework.Select.Cursor
import DTFramework.Select.Printout
import DTFramework.Lib.Pattern
import DTFramework.Tools.Log
import DTFramework.Tools.LogParser
import DTFramework.Tools.LogRead
import DTFramework.Tools.LogAccepted
import DTFramework.Lib.Components
import DTFramework.Tools.Unused
import DTFramework.Extn.Dirname
import DTFramework.Select.Endless
import DTFramework.Lib.Ranges
import DTFramework.Lib.Forest
import DTFramework.Fdt.Flat
import DTFramework.Fdt.FlatRead
import DTFramework.Fdt.Image
import DTFramework.Fdt.Edit
import DTFramework.Fdt.EditTree
import DTFramework.Fdt.NodeAt
import DTFramework.Fdt.FlatIterate
import DTFramework.Tree.Open
import DTFramework.Tree.Pack
import DTFramework.Tree.Overlay
import DTFramework.Tree.Empty
import DTFramework.Tree.CreateDtb
import DTFramework.Tree.Traverse
import DTFramework.Tree.Phandle
import DTFramework.Tree.OverlayMerge
import DTFramework.Tree.PhandleShift
import DTFramework.Tree.Compatible
import DTFramework.Tree.Parent
import DTFramework.Tree.Path
import DTFramework.Tree.Remove
import DTFramework.Tree.Nop
import DTFramework.Tree.Session
