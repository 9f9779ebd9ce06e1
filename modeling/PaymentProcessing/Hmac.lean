import Mathlib.Data.List.Basic

/-! Keyed message authentication over any hash function on byte strings. -/
namespace Hmac
variable {hash : List UInt8 → List UInt8} {blockSize : Nat} {key message : List UInt8}

/-- The key as one block: hashed first when it is longer, then padded with zeros. -/
def blockKey (hash : List UInt8 → List UInt8) (blockSize : Nat) (key : List UInt8) : List UInt8 :=
  let short := if blockSize < key.length then hash key else key
  short ++ List.replicate (blockSize - short.length) 0

def hmac (hash : List UInt8 → List UInt8) (blockSize : Nat) (key message : List UInt8) :
    List UInt8 :=
  let block := blockKey hash blockSize key
  hash (block.map (· ^^^ 0x5c) ++ hash (block.map (· ^^^ 0x36) ++ message))

theorem blockKey_of_long (long : blockSize < key.length) : blockKey hash blockSize key =
    hash key ++ List.replicate (blockSize - (hash key).length) 0 := by
  simp only [blockKey, if_pos long]

theorem blockKey_of_short (short : key.length ≤ blockSize) : blockKey hash blockSize key =
    key ++ List.replicate (blockSize - key.length) 0 := by
  simp only [blockKey, if_neg (Nat.not_lt.mpr short)]

/-- One block, for a hash that fits into it. -/
theorem length_blockKey (fits : blockSize < key.length → (hash key).length ≤ blockSize) :
    (blockKey hash blockSize key).length = blockSize := by
  by_cases long : blockSize < key.length
  · have fits := fits long
    rw [blockKey_of_long long, List.length_append, List.length_replicate]
    omega
  · rw [blockKey_of_short (Nat.le_of_not_lt long), List.length_append, List.length_replicate]
    omega

/-- A pad block combined with a block byte by byte is the block combined with the pad byte. -/
theorem zipWith_replicate (pad : UInt8) (block : List UInt8) :
    List.zipWith (· ^^^ ·) (List.replicate block.length pad) block = block.map (· ^^^ pad) := by
  induction block with
  | nil => rfl
  | cons b rest ih =>
    simp only [List.length_cons, List.replicate_succ, List.zipWith_cons_cons, List.map_cons, ih]
    rw [UInt8.xor_comm]

end Hmac
