/-
# MD5

The digest that identifies an image in messages. A message is padded with one
set bit, zeroes and its bit length to a multiple of 64 bytes, and its blocks are
mixed into a state of four 32 bit words.
-/

namespace Handheld.Md5

/-- The four state words. -/
structure State where
  a : UInt32
  b : UInt32
  c : UInt32
  d : UInt32

/-- The state before the first block. -/
def State.initial : State :=
  ⟨0x67452301, 0xefcdab89, 0x98badcfe, 0x10325476⟩

/-- Rotation distances, four per round of sixteen steps. -/
def shifts : Array UInt32 :=
  #[ 7, 12, 17, 22, 5, 9, 14, 20, 4, 11, 16, 23, 6, 10, 15, 21 ]

/-- The integer parts of 2^32 times the sines of 1 to 64. -/
def sines : Array UInt32 :=
  #[ 0xd76aa478, 0xe8c7b756, 0x242070db, 0xc1bdceee, 0xf57c0faf, 0x4787c62a, 0xa8304613, 0xfd469501,
     0x698098d8, 0x8b44f7af, 0xffff5bb1, 0x895cd7be, 0x6b901122, 0xfd987193, 0xa679438e, 0x49b40821,
     0xf61e2562, 0xc040b340, 0x265e5a51, 0xe9b6c7aa, 0xd62f105d, 0x02441453, 0xd8a1e681, 0xe7d3fbc8,
     0x21e1cde6, 0xc33707d6, 0xf4d50d87, 0x455a14ed, 0xa9e3e905, 0xfcefa3f8, 0x676f02d9, 0x8d2a4c8a,
     0xfffa3942, 0x8771f681, 0x6d9d6122, 0xfde5380c, 0xa4beea44, 0x4bdecfa9, 0xf6bb4b60, 0xbebfbc70,
     0x289b7ec6, 0xeaa127fa, 0xd4ef3085, 0x04881d05, 0xd9d4d039, 0xe6db99e5, 0x1fa27cf8, 0xc4ac5665,
     0xf4292244, 0x432aff97, 0xab9423a7, 0xfc93a039, 0x655b59c3, 0x8f0ccc92, 0xffeff47d, 0x85845dd1,
     0x6fa87e4f, 0xfe2ce6e0, 0xa3014314, 0x4e0811a1, 0xf7537e82, 0xbd3af235, 0x2ad7d2bb, 0xeb86d391 ]

/-- Rotate a word to the left. -/
def rotate (word distance : UInt32) : UInt32 :=
  (word <<< distance) ||| (word >>> (32 - distance))

/-- The little-endian word at an offset; bytes past the end are zero. -/
def word (bytes : Array UInt8) (offset : Nat) : UInt32 :=
  let byte (i : Nat) : UInt32 := (bytes.getD (offset + i) 0).toUInt32
  byte 0 ||| (byte 1 <<< 8) ||| (byte 2 <<< 16) ||| (byte 3 <<< 24)

/-- Step `i` of 64 on the block that starts at `offset`. -/
def step (bytes : Array UInt8) (offset i : Nat) (s : State) : State :=
  let (mixed, index) : UInt32 × Nat :=
    match i / 16 with
    | 0 => ((s.b &&& s.c) ||| (~~~s.b &&& s.d), i)
    | 1 => ((s.d &&& s.b) ||| (~~~s.d &&& s.c), (5 * i + 1) % 16)
    | 2 => (s.b ^^^ s.c ^^^ s.d, (3 * i + 5) % 16)
    | _ => (s.c ^^^ (s.b ||| ~~~s.d), (7 * i) % 16)
  let sum := s.a + mixed + sines.getD i 0 + word bytes (offset + 4 * index)
  ⟨s.d, s.b + rotate sum (shifts.getD (4 * (i / 16) + i % 4) 0), s.b, s.c⟩

/-- Mix in the block that starts at `offset`. -/
def mix (bytes : Array UInt8) (offset : Nat) (s : State) : State :=
  let t := Nat.fold 64 (fun i _ t => step bytes offset i t) s
  ⟨s.a + t.a, s.b + t.b, s.c + t.c, s.d + t.d⟩

/-- The low `n` bytes of a number, least significant first. -/
def littleEndian (n value : Nat) : Array UInt8 :=
  Array.ofFn fun i : Fin n => UInt8.ofNat (value >>> (8 * i.val))

/-- A message with its padding. -/
def pad (message : Array UInt8) : Array UInt8 :=
  let zeroes := (119 - message.size % 64) % 64
  message.push 0x80 ++ Array.replicate zeroes 0 ++ littleEndian 8 (8 * message.size)

/-- The sixteen bytes of the digest. -/
def digest (message : Array UInt8) : Array UInt8 :=
  let bytes := pad message
  let s := Nat.fold (bytes.size / 64) (fun i _ s => mix bytes (64 * i) s) State.initial
  littleEndian 4 s.a.toNat ++ littleEndian 4 s.b.toNat ++
    littleEndian 4 s.c.toNat ++ littleEndian 4 s.d.toNat

end Handheld.Md5
