import ContextRoles.Text.Quoted

/-! # Generated identifiers

A random identifier is a version 4 UUID: 122 random bits, the version and the variant, in hexadecimal
digits that dashes divide.
-/

namespace ContextRoles.Uuid

/-- The text of two words, with the bits of the version and the variant put in place. -/
def ofWords (high low : UInt64) : String :=
  let high := (high &&& 0xFFFFFFFFFFFF0FFF) ||| 0x4000
  let low := (low &&& 0x3FFFFFFFFFFFFFFF) ||| 0x8000000000000000
  let front := Text.hexDigits 16 high.toNat
  let back := Text.hexDigits 16 low.toNat
  String.ofList (front.take 8 ++ '-' :: (front.drop 8).take 4 ++ '-' :: front.drop 12 ++
    '-' :: back.take 4 ++ '-' :: back.drop 4)

def mix (word : UInt64) : UInt64 :=
  let word := (word ^^^ (word >>> 30)) * 0xBF58476D1CE4E5B9
  let word := (word ^^^ (word >>> 27)) * 0x94D049BB133111EB
  word ^^^ (word >>> 31)

def supply (seed : UInt64 × UInt64) (n : Nat) : String :=
  let step := n.toUInt64 * 0x9E3779B97F4A7C15
  ofWords (mix (seed.1 + step)) (mix (seed.2 - step))

def isLowerHex (c : Char) : Bool := ('0' ≤ c && c ≤ '9') || ('a' ≤ c && c ≤ 'f')

def isVersion4 (text : String) : Bool :=
  let groups := text.splitOn "-"
  groups.map String.length == [8, 4, 4, 4, 12] &&
    groups.all (fun group => group.toList.all isLowerHex) &&
    ((groups[2]?.getD "").toList.head? == some '4') &&
    ((groups[3]?.getD "").toList.head?.any fun c => ['8', '9', 'a', 'b'].contains c)

end ContextRoles.Uuid
