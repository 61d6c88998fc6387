import SegmentedFiles.Hex
import SegmentedFiles.Payload

/-! The MD5 digest: what an object's content tag and the place of a payload on disk are made from. -/

namespace SegmentedFiles.Md5

/-- The four words carried from block to block. -/
structure State where
  a : UInt32
  b : UInt32
  c : UInt32
  d : UInt32

def State.start : State := ⟨0x67452301, 0xefcdab89, 0x98badcfe, 0x10325476⟩

/-- The word added in each of the sixty-four steps: the integer part of `2 ^ 32 * |sin (i + 1)|`. -/
def sines : Array UInt32 := #[
  0xd76aa478, 0xe8c7b756, 0x242070db, 0xc1bdceee,
  0xf57c0faf, 0x4787c62a, 0xa8304613, 0xfd469501,
  0x698098d8, 0x8b44f7af, 0xffff5bb1, 0x895cd7be,
  0x6b901122, 0xfd987193, 0xa679438e, 0x49b40821,
  0xf61e2562, 0xc040b340, 0x265e5a51, 0xe9b6c7aa,
  0xd62f105d, 0x02441453, 0xd8a1e681, 0xe7d3fbc8,
  0x21e1cde6, 0xc33707d6, 0xf4d50d87, 0x455a14ed,
  0xa9e3e905, 0xfcefa3f8, 0x676f02d9, 0x8d2a4c8a,
  0xfffa3942, 0x8771f681, 0x6d9d6122, 0xfde5380c,
  0xa4beea44, 0x4bdecfa9, 0xf6bb4b60, 0xbebfbc70,
  0x289b7ec6, 0xeaa127fa, 0xd4ef3085, 0x04881d05,
  0xd9d4d039, 0xe6db99e5, 0x1fa27cf8, 0xc4ac5665,
  0xf4292244, 0x432aff97, 0xab9423a7, 0xfc93a039,
  0x655b59c3, 0x8f0ccc92, 0xffeff47d, 0x85845dd1,
  0x6fa87e4f, 0xfe2ce6e0, 0xa3014314, 0x4e0811a1,
  0xf7537e82, 0xbd3af235, 0x2ad7d2bb, 0xeb86d391]

/-- The rotation of each step: four amounts a round, used in turn. -/
def rotations : Array UInt32 := #[7, 12, 17, 22, 5, 9, 14, 20, 4, 11, 16, 23, 6, 10, 15, 21]

def rotateLeft (word amount : UInt32) : UInt32 := (word <<< amount) ||| (word >>> (32 - amount))

/-- The little-endian word at byte `start`. -/
def wordAt (bytes : ByteArray) (start : Nat) : UInt32 :=
  bytes[start]!.toUInt32 ||| (bytes[start + 1]!.toUInt32 <<< 8) |||
    (bytes[start + 2]!.toUInt32 <<< 16) ||| (bytes[start + 3]!.toUInt32 <<< 24)

def step (bytes : ByteArray) (start i : Nat) (s : State) : State :=
  let round := i / 16
  let mix :=
    if round = 0 then (s.b &&& s.c) ||| (~~~s.b &&& s.d)
    else if round = 1 then (s.d &&& s.b) ||| (~~~s.d &&& s.c)
    else if round = 2 then s.b ^^^ s.c ^^^ s.d
    else s.c ^^^ (s.b ||| ~~~s.d)
  let word :=
    if round = 0 then i
    else if round = 1 then (5 * i + 1) % 16
    else if round = 2 then (3 * i + 5) % 16
    else 7 * i % 16
  let sum := s.a + mix + sines[i]! + wordAt bytes (start + 4 * word)
  ⟨s.d, s.b + rotateLeft sum rotations[4 * round + i % 4]!, s.b, s.c⟩

def absorb (bytes : ByteArray) (start : Nat) (s : State) : State :=
  let t := Nat.fold 64 (fun i _ t => step bytes start i t) s
  ⟨s.a + t.a, s.b + t.b, s.c + t.c, s.d + t.d⟩

/-- The eight little-endian bytes of a length counted in bits. -/
def lengthBytes (bits : Nat) : ByteArray :=
  ⟨Array.ofFn fun i : Fin 8 => UInt8.ofNat (bits >>> (8 * i.val))⟩

/-- The message, a marker bit, zeros up to eight bytes before a block's end, and the length. -/
def pad (message : ByteArray) : ByteArray :=
  message.push 0x80 ++ Payload.zeros ((119 - message.size % 64) % 64)
    ++ lengthBytes (8 * message.size)

def wordBytes (word : UInt32) : List UInt8 :=
  [word.toUInt8, (word >>> 8).toUInt8, (word >>> 16).toUInt8, (word >>> 24).toUInt8]

def digest (message : ByteArray) : ByteArray :=
  let padded := pad message
  let s := Nat.fold (padded.size / 64) (fun i _ s => absorb padded (64 * i) s) State.start
  ⟨(wordBytes s.a ++ wordBytes s.b ++ wordBytes s.c ++ wordBytes s.d).toArray⟩

def hexDigest (message : ByteArray) : String := Hex.encode (digest message)

theorem size_digest (message : ByteArray) : (digest message).size = 16 := by
  simp [digest, wordBytes, ← ByteArray.size_data]

end SegmentedFiles.Md5
