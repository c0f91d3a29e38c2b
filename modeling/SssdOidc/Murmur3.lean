/-! MurmurHash3, x86 32-bit variant, over the UTF-8 bytes of a string. -/
namespace SssdOidc.Murmur3

def rotateLeft (x r : UInt32) : UInt32 := (x <<< r) ||| (x >>> (32 - r))

def scramble (k : UInt32) : UInt32 := rotateLeft (k * 0xcc9e2d51) 15 * 0x1b873593

def word (a b c d : UInt8) : UInt32 :=
  a.toUInt32 ||| (b.toUInt32 <<< 8) ||| (c.toUInt32 <<< 16) ||| (d.toUInt32 <<< 24)

def blocks (h : UInt32) : List UInt8 → UInt32
  | a :: b :: c :: d :: rest => blocks (rotateLeft (h ^^^ scramble (word a b c d)) 13 * 5 + 0xe6546b64) rest
  | [a,b,c] => h ^^^ scramble (word a b c 0)
  | [a,b] => h ^^^ scramble (word a b 0 0)
  | [a] => h ^^^ scramble (word a 0 0 0)
  | [] => h

def finish (h : UInt32) : UInt32 :=
  let h := (h ^^^ (h >>> 16)) * 0x85ebca6b
  let h := (h ^^^ (h >>> 13)) * 0xc2b2ae35
  h ^^^ (h >>> 16)

def murmur3_32 (seed : UInt32) (s : String) : UInt32 :=
  let bytes := s.toUTF8.toList
  finish (blocks seed bytes ^^^ UInt32.ofNat bytes.length)

example : murmur3_32 0 "Hello, world!" = 0xc0363e43 := by decide +kernel

end SssdOidc.Murmur3
