import ObjectTransfer.Text.Hex
/-!
The MD5 digest. A message is padded with one bit, zeros and its length in bits to whole blocks of 64
bytes; each block is mixed into a state of four words by 64 steps.
-/
namespace ObjectTransfer.Digest

/-- The four words that the blocks of a message are mixed into. -/
structure Md5State where
  a : UInt32
  b : UInt32
  c : UInt32
  d : UInt32

/-- The constants of the 64 steps: the integer parts of `2 ^ 32 * |sin (i + 1)|`. -/
def md5Sines : Array UInt32 := #[
  0xd76aa478, 0xe8c7b756, 0x242070db, 0xc1bdceee, 0xf57c0faf, 0x4787c62a, 0xa8304613, 0xfd469501,
  0x698098d8, 0x8b44f7af, 0xffff5bb1, 0x895cd7be, 0x6b901122, 0xfd987193, 0xa679438e, 0x49b40821,
  0xf61e2562, 0xc040b340, 0x265e5a51, 0xe9b6c7aa, 0xd62f105d, 0x02441453, 0xd8a1e681, 0xe7d3fbc8,
  0x21e1cde6, 0xc33707d6, 0xf4d50d87, 0x455a14ed, 0xa9e3e905, 0xfcefa3f8, 0x676f02d9, 0x8d2a4c8a,
  0xfffa3942, 0x8771f681, 0x6d9d6122, 0xfde5380c, 0xa4beea44, 0x4bdecfa9, 0xf6bb4b60, 0xbebfbc70,
  0x289b7ec6, 0xeaa127fa, 0xd4ef3085, 0x04881d05, 0xd9d4d039, 0xe6db99e5, 0x1fa27cf8, 0xc4ac5665,
  0xf4292244, 0x432aff97, 0xab9423a7, 0xfc93a039, 0x655b59c3, 0x8f0ccc92, 0xffeff47d, 0x85845dd1,
  0x6fa87e4f, 0xfe2ce6e0, 0xa3014314, 0x4e0811a1, 0xf7537e82, 0xbd3af235, 0x2ad7d2bb, 0xeb86d391]

/-- How far each of the 64 steps rotates. -/
def md5Turns : Array UInt32 := #[
  7, 12, 17, 22, 7, 12, 17, 22, 7, 12, 17, 22, 7, 12, 17, 22, 5, 9, 14, 20, 5, 9, 14, 20, 5, 9, 14,
  20, 5, 9, 14, 20, 4, 11, 16, 23, 4, 11, 16, 23, 4, 11, 16, 23, 4, 11, 16, 23, 6, 10, 15, 21, 6,
  10, 15, 21, 6, 10, 15, 21, 6, 10, 15, 21]

/-- The byte at `i`, zero past the end. -/
def byteAt (m : ByteArray) (i : Nat) : UInt8 := if h : i < m.size then m[i] else 0

/-- The little-endian word at byte `i`. -/
def wordAt (m : ByteArray) (i : Nat) : UInt32 :=
  (byteAt m i).toUInt32 ||| ((byteAt m (i + 1)).toUInt32 <<< 8) |||
  ((byteAt m (i + 2)).toUInt32 <<< 16) ||| ((byteAt m (i + 3)).toUInt32 <<< 24)

def turnLeft (x n : UInt32) : UInt32 := (x <<< n) ||| (x >>> (32 - n))

/-- Step `i` of the block that begins at byte `start`. -/
def md5Step (m : ByteArray) (start i : Nat) (s : Md5State) : Md5State :=
  let mixed : UInt32 :=
    if i < 16 then (s.b &&& s.c) ||| (~~~s.b &&& s.d)
    else if i < 32 then (s.d &&& s.b) ||| (~~~s.d &&& s.c)
    else if i < 48 then s.b ^^^ s.c ^^^ s.d
    else s.c ^^^ (s.b ||| ~~~s.d)
  let word : Nat :=
    if i < 16 then i
    else if i < 32 then (5 * i + 1) % 16
    else if i < 48 then (3 * i + 5) % 16
    else (7 * i) % 16
  let sum := s.a + mixed + md5Sines.getD i 0 + wordAt m (start + 4 * word)
  ⟨s.d, s.b + turnLeft sum (md5Turns.getD i 0), s.b, s.c⟩

/-- The first `n` steps of the block that begins at byte `start`. -/
def md5Steps (m : ByteArray) (start : Nat) : (n : Nat) → Md5State → Md5State
  | 0, s => s
  | n + 1, s => md5Step m start n (md5Steps m start n s)

/-- Mixes in `n` blocks, the first of which begins at byte `start`. -/
def md5Blocks (m : ByteArray) : (n start : Nat) → Md5State → Md5State
  | 0, _, s => s
  | n + 1, start, s =>
    let t := md5Steps m start 64 s
    md5Blocks m n (start + 64) ⟨s.a + t.a, s.b + t.b, s.c + t.c, s.d + t.d⟩

/-- The `n` lowest bytes of a number, lowest first. -/
def lowBytes : (n value : Nat) → List UInt8
  | 0, _ => []
  | n + 1, value => UInt8.ofNat value :: lowBytes n (value / 256)

/-- What is written behind a message of `size` bytes to fill its last block. -/
def md5Padding (size : Nat) : ByteArray :=
  ((0x80 : UInt8) :: List.replicate ((119 - size % 64) % 64) 0 ++ lowBytes 8 (8 * size)).toByteArray

def md5 (message : ByteArray) : ByteArray :=
  let m := message ++ md5Padding message.size
  let s := md5Blocks m (m.size / 64) 0 ⟨0x67452301, 0xefcdab89, 0x98badcfe, 0x10325476⟩
  ([s.a, s.b, s.c, s.d].flatMap fun w => lowBytes 4 w.toNat).toByteArray

def md5Hex (message : ByteArray) : String := Text.Hex.ofBytes (md5 message)

end ObjectTransfer.Digest
