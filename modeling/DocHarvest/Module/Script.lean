import DocHarvest.Node.Codec

/-!
# Scripts

A script is handed over as a tree, or the serialized form of one. The root has to be a block, and
its statements are what the script consists of.
-/
namespace DocHarvest

inductive Script where
  | tree (root : Node)
  | data (value : Datum)

namespace Node

/-- The statements of a block; no other node has any. -/
def statements : Node → Except Fault (List Node)
  | block ss => .ok ss
  | _ => .error .noField

end Node

namespace Script

/-- The statements of a root that has to be a block. -/
def rootStatements : Node → Except Fault (List Node)
  | .block ss => .ok ss
  | n => .error (.rootNotBlock n.typeName)

def statements : Script → Except Fault (List Node)
  | tree root => rootStatements root
  | data (.object fs) => do rootStatements (← Node.ofData (.object fs))
  | data d => .error (.rootNotBlock d.typeName)

end Script

end DocHarvest
