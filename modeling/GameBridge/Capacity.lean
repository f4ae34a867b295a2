import GameBridge.Disk

/-!
# How much a disk holds

Unless something else is said, a disk holds files of any size. A disk of a fixed capacity holds what
the files on it leave of that.
-/

namespace GameBridge

instance : Room := ⟨fun _ _ ↦ none⟩

/-- The bytes in all files below a node. -/
def Node.bytes : Node → Nat
  | .file content => content.length
  | .folder children => bytesOf children
where
  /-- The bytes in all files of the given entries. -/
  bytesOf : List (String × Node) → Nat
    | [] => 0
    | (_, node) :: rest => node.bytes + bytesOf rest

/-- Room on a disk that holds so many bytes in all. -/
abbrev Room.ofCapacity (capacity : Nat) : Room := ⟨fun disk _ ↦ some (capacity - disk.bytes)⟩

end GameBridge
