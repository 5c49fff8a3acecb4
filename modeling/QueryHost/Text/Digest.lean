import QueryHost.Text.Digits

/-!
# The MD5 digest

The digest of RFC 1321: the message is padded to blocks of 64 bytes, and each block turns a state of
four words through 64 rounds. `md5Hex` is the digest in lowercase hexadecimal.
-/

namespace QueryHost

abbrev Bytes := List UInt8

namespace MD5

structure State where
  a : UInt32
  b : UInt32
  c : UInt32
  d : UInt32
  deriving DecidableEq, Repr

def initial : State := ⟨0x67452301, 0xefcdab89, 0x98badcfe, 0x10325476⟩

/-- The constants of the rounds: the whole parts of `2 ^ 32 * |sin i|`. -/
def sines : Array UInt32 :=
  #[
    0xd76aa478, 0xe8c7b756, 0x242070db, 0xc1bdceee, 0xf57c0faf, 0x4787c62a,
    0xa8304613, 0xfd469501, 0x698098d8, 0x8b44f7af, 0xffff5bb1, 0x895cd7be,
    0x6b901122, 0xfd987193, 0xa679438e, 0x49b40821, 0xf61e2562, 0xc040b340,
    0x265e5a51, 0xe9b6c7aa, 0xd62f105d, 0x02441453, 0xd8a1e681, 0xe7d3fbc8,
    0x21e1cde6, 0xc33707d6, 0xf4d50d87, 0x455a14ed, 0xa9e3e905, 0xfcefa3f8,
    0x676f02d9, 0x8d2a4c8a, 0xfffa3942, 0x8771f681, 0x6d9d6122, 0xfde5380c,
    0xa4beea44, 0x4bdecfa9, 0xf6bb4b60, 0xbebfbc70, 0x289b7ec6, 0xeaa127fa,
    0xd4ef3085, 0x04881d05, 0xd9d4d039, 0xe6db99e5, 0x1fa27cf8, 0xc4ac5665,
    0xf4292244, 0x432aff97, 0xab9423a7, 0xfc93a039, 0x655b59c3, 0x8f0ccc92,
    0xffeff47d, 0x85845dd1, 0x6fa87e4f, 0xfe2ce6e0, 0xa3014314, 0x4e0811a1,
    0xf7537e82, 0xbd3af235, 0x2ad7d2bb, 0xeb86d391]

/-- The rotations of the rounds, four for each sixteen rounds. -/
def rotations : Array UInt32 :=
  #[7, 12, 17, 22, 5, 9, 14, 20, 4, 11, 16, 23, 6, 10, 15, 21]

def rotate (x n : UInt32) : UInt32 :=
  (x <<< n) ||| (x >>> (32 - n))

/-- The round's mix of three words, and the word of the block that it takes. -/
def mix (round : Nat) (s : State) : UInt32 × Nat :=
  match round / 16 with
  | 0 => ((s.b &&& s.c) ||| (~~~s.b &&& s.d), round)
  | 1 => ((s.d &&& s.b) ||| (~~~s.d &&& s.c), (5 * round + 1) % 16)
  | 2 => (s.b ^^^ s.c ^^^ s.d, (3 * round + 5) % 16)
  | _ => (s.c ^^^ (s.b ||| ~~~s.d), 7 * round % 16)

def step (block : Array UInt32) (s : State) (round : Nat) : State :=
  let (f, word) := mix round s
  let sum := s.a + f + sines.getD round 0 + block.getD word 0
  let turn := rotations.getD (round / 16 * 4 + round % 4) 0
  ⟨s.d, s.b + rotate sum turn, s.b, s.c⟩

def compress (s : State) (block : Array UInt32) : State :=
  let t := (List.range 64).foldl (step block) s
  ⟨s.a + t.a, s.b + t.b, s.c + t.c, s.d + t.d⟩

/-- A word of four bytes, the least significant first. -/
def littleEndian : List UInt8 → UInt32
  | [] => 0
  | b :: bs => b.toUInt32 ||| (littleEndian bs <<< 8)

/-- The last `count` bytes of `n`, the least significant first. -/
def leastBytes : (count n : Nat) → List UInt8
  | 0, _ => []
  | count + 1, n => UInt8.ofNat n :: leastBytes count (n / 256)

/-- What follows the message: a set bit, zeros up to 56 modulo 64 bytes, and the length in bits. -/
def padding (length : Nat) : List UInt8 :=
  0x80 :: List.replicate ((119 - length % 64) % 64) 0 ++ leastBytes 8 (8 * length)

/-- Takes whole blocks into the state, a word at a time. -/
def absorb (s : State) (block : Array UInt32) : List UInt8 → State
  | b0 :: b1 :: b2 :: b3 :: rest =>
    let filled := block.push (littleEndian [b0, b1, b2, b3])
    if filled.size = 16 then absorb (compress s filled) #[] rest else absorb s filled rest
  | _ => s

def digest (message : Bytes) : List UInt8 :=
  let s := absorb initial #[] (message ++ padding message.length)
  [s.a, s.b, s.c, s.d].flatMap fun w => leastBytes 4 w.toNat

end MD5

def md5Hex (message : Bytes) : String :=
  hexBytes (MD5.digest message)

end QueryHost
