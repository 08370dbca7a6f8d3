import Idrm.Lib.Bytes
import Idrm.Lib.CString

/-!
# The variable header of an ilink message

A variable header is a table of keyed nodes. `vheaderCompose` writes the table as
total length (2 bytes), node count (2 bytes) and the used nodes; the length it
announces is checked against what it wrote by the assertion at its end.
-/

namespace Idrm.Ilink

open Idrm.Lib

/-- The value union of a node, tagged as `vheader_set_node_i` and
`vheader_set_node_str` tag it. A node that was allocated and never set keeps the
zeroed tag, `T_Char`. -/
inductive VheaderValue where
  | unset
  | iVal32 (value : UInt32)
  | sVal (value : CString)
deriving DecidableEq

/-- The tag byte of a value: `T_Char = 0`, `T_Long = 2`, `T_Str = 3`. -/
def VheaderValue.type : VheaderValue → UInt8
  | .unset => 0
  | .iVal32 _ => 2
  | .sVal _ => 3

/-- One slot of the node table. -/
structure VheaderNode where
  key : CString
  used : Bool
  value : VheaderValue
deriving DecidableEq

/-- The node table of a variable header. -/
structure IlinkVheader where
  nodes : List VheaderNode
deriving DecidableEq

/-- Number of used nodes, counted in 16 bits. -/
def vheaderGetNodesNum (vheader : IlinkVheader) : UInt16 :=
  UInt16.ofNat (vheader.nodes.countP (·.used))

/-- Bytes one node takes on the wire: only strings and longs have a size. -/
def vheaderNodeLen (node : VheaderNode) : Nat :=
  if node.used then
    match node.value with
    | .sVal value => (node.key.bytes.length + 1) + (value.bytes.length + 1) + 1
    | .iVal32 _ => (node.key.bytes.length + 1) + 4 + 1
    | .unset => 0
  else 0

/-- What the loop of `vheader_compose` writes for one node. A used node without a
value still gets its key and tag. -/
def vheaderNodeBytes (node : VheaderNode) : List UInt8 :=
  if node.used then
    node.key.terminated ++ [node.value.type] ++
      match node.value with
      | .sVal value => value.terminated
      | .iVal32 value => beBytes 4 value.toNat
      | .unset => []
  else []

/-- `vheader_compose`: the composed bytes, empty when no node has a size, and
`none` when the closing assertion on the written length fails. -/
def vheaderCompose (vheader : IlinkVheader) : Option (List UInt8) :=
  let total := (vheader.nodes.map vheaderNodeLen).sum
  if total = 0 then
    some []
  else
    let buffer := beBytes 2 (total + 4) ++ beBytes 2 (vheaderGetNodesNum vheader).toNat ++
      vheader.nodes.flatMap vheaderNodeBytes
    if buffer.length = total + 4 then some buffer else none

/-- A composed header that is not empty announces its own length in its first two bytes. -/
theorem vheaderCompose_announces {vheader : IlinkVheader} {bytes : List UInt8}
    (composed : vheaderCompose vheader = some bytes) (nonempty : bytes ≠ []) :
    ∃ items, bytes = beBytes 2 bytes.length ++ items ∧ 4 ≤ bytes.length := by
  simp only [vheaderCompose] at composed
  split at composed
  · exact absurd (Option.some.inj composed).symm nonempty
  · split at composed
    · rename_i written
      have same := Option.some.inj composed
      subst same
      rw [written, List.append_assoc]
      exact ⟨_, rfl, by omega⟩
    · cases composed

end Idrm.Ilink
