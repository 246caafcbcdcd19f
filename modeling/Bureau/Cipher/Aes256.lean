import Bureau.Words

/-!
# AES-256

The block cipher of FIPS 197 with a key of 32 bytes. A block is four columns of four bytes; every
step of a round is a bijection of blocks.
-/

namespace Bureau.Aes256

/-- Four bytes that are mixed together. -/
structure Column where
  b₀ : UInt8
  b₁ : UInt8
  b₂ : UInt8
  b₃ : UInt8
deriving DecidableEq

/-- Sixteen bytes, column by column. -/
structure Block where
  c₀ : Column
  c₁ : Column
  c₂ : Column
  c₃ : Column
deriving DecidableEq

namespace Column

/-- A column with every byte replaced. -/
def map (f : UInt8 → UInt8) (c : Column) : Column := ⟨f c.b₀, f c.b₁, f c.b₂, f c.b₃⟩

/-- The sum of two columns, byte by byte. -/
def xor (c d : Column) : Column := ⟨c.b₀ ^^^ d.b₀, c.b₁ ^^^ d.b₁, c.b₂ ^^^ d.b₂, c.b₃ ^^^ d.b₃⟩

/-- The column with its first byte last, as the key schedule needs it. -/
def rotate (c : Column) : Column := ⟨c.b₁, c.b₂, c.b₃, c.b₀⟩

/-- The bytes of a column from top to bottom. -/
def toBytes (c : Column) : Bytes := [c.b₀, c.b₁, c.b₂, c.b₃]

end Column

namespace Block

/-- The sum of two blocks, column by column. -/
def xor (s t : Block) : Block := ⟨s.c₀.xor t.c₀, s.c₁.xor t.c₁, s.c₂.xor t.c₂, s.c₃.xor t.c₃⟩

/-- The bytes of a block, one column after the other. -/
def toBytes (s : Block) : Bytes :=
  s.c₀.toBytes ++ s.c₁.toBytes ++ s.c₂.toBytes ++ s.c₃.toBytes

/-- The block of sixteen bytes; bytes that are missing count as zero. -/
def ofBytes (bytes : Bytes) : Block :=
  let byteAt (i : Nat) : UInt8 := bytes.getD i 0
  let column (i : Nat) : Column := ⟨byteAt i, byteAt (i + 1), byteAt (i + 2), byteAt (i + 3)⟩
  ⟨column 0, column 4, column 8, column 12⟩

end Block

/-! ### The substitution of bytes -/

/-- What each byte is substituted by, in the order of the bytes. -/
def sboxTable : Array UInt8 := #[
  0x63, 0x7c, 0x77, 0x7b, 0xf2, 0x6b, 0x6f, 0xc5, 0x30, 0x01, 0x67, 0x2b, 0xfe, 0xd7, 0xab, 0x76,
  0xca, 0x82, 0xc9, 0x7d, 0xfa, 0x59, 0x47, 0xf0, 0xad, 0xd4, 0xa2, 0xaf, 0x9c, 0xa4, 0x72, 0xc0,
  0xb7, 0xfd, 0x93, 0x26, 0x36, 0x3f, 0xf7, 0xcc, 0x34, 0xa5, 0xe5, 0xf1, 0x71, 0xd8, 0x31, 0x15,
  0x04, 0xc7, 0x23, 0xc3, 0x18, 0x96, 0x05, 0x9a, 0x07, 0x12, 0x80, 0xe2, 0xeb, 0x27, 0xb2, 0x75,
  0x09, 0x83, 0x2c, 0x1a, 0x1b, 0x6e, 0x5a, 0xa0, 0x52, 0x3b, 0xd6, 0xb3, 0x29, 0xe3, 0x2f, 0x84,
  0x53, 0xd1, 0x00, 0xed, 0x20, 0xfc, 0xb1, 0x5b, 0x6a, 0xcb, 0xbe, 0x39, 0x4a, 0x4c, 0x58, 0xcf,
  0xd0, 0xef, 0xaa, 0xfb, 0x43, 0x4d, 0x33, 0x85, 0x45, 0xf9, 0x02, 0x7f, 0x50, 0x3c, 0x9f, 0xa8,
  0x51, 0xa3, 0x40, 0x8f, 0x92, 0x9d, 0x38, 0xf5, 0xbc, 0xb6, 0xda, 0x21, 0x10, 0xff, 0xf3, 0xd2,
  0xcd, 0x0c, 0x13, 0xec, 0x5f, 0x97, 0x44, 0x17, 0xc4, 0xa7, 0x7e, 0x3d, 0x64, 0x5d, 0x19, 0x73,
  0x60, 0x81, 0x4f, 0xdc, 0x22, 0x2a, 0x90, 0x88, 0x46, 0xee, 0xb8, 0x14, 0xde, 0x5e, 0x0b, 0xdb,
  0xe0, 0x32, 0x3a, 0x0a, 0x49, 0x06, 0x24, 0x5c, 0xc2, 0xd3, 0xac, 0x62, 0x91, 0x95, 0xe4, 0x79,
  0xe7, 0xc8, 0x37, 0x6d, 0x8d, 0xd5, 0x4e, 0xa9, 0x6c, 0x56, 0xf4, 0xea, 0x65, 0x7a, 0xae, 0x08,
  0xba, 0x78, 0x25, 0x2e, 0x1c, 0xa6, 0xb4, 0xc6, 0xe8, 0xdd, 0x74, 0x1f, 0x4b, 0xbd, 0x8b, 0x8a,
  0x70, 0x3e, 0xb5, 0x66, 0x48, 0x03, 0xf6, 0x0e, 0x61, 0x35, 0x57, 0xb9, 0x86, 0xc1, 0x1d, 0x9e,
  0xe1, 0xf8, 0x98, 0x11, 0x69, 0xd9, 0x8e, 0x94, 0x9b, 0x1e, 0x87, 0xe9, 0xce, 0x55, 0x28, 0xdf,
  0x8c, 0xa1, 0x89, 0x0d, 0xbf, 0xe6, 0x42, 0x68, 0x41, 0x99, 0x2d, 0x0f, 0xb0, 0x54, 0xbb, 0x16]

/-- The nonlinear substitution. -/
def sbox (b : UInt8) : UInt8 :=
  sboxTable.getD b.toNat 0

/-! ### Steps of a round -/

/-- Substitutes every byte of the block. -/
def subBytes (s : Block) : Block :=
  ⟨s.c₀.map sbox, s.c₁.map sbox, s.c₂.map sbox, s.c₃.map sbox⟩

/-- Row `i` moves `i` columns to the left. -/
def shiftRows (s : Block) : Block :=
  ⟨⟨s.c₀.b₀, s.c₁.b₁, s.c₂.b₂, s.c₃.b₃⟩, ⟨s.c₁.b₀, s.c₂.b₁, s.c₃.b₂, s.c₀.b₃⟩,
   ⟨s.c₂.b₀, s.c₃.b₁, s.c₀.b₂, s.c₁.b₃⟩, ⟨s.c₃.b₀, s.c₀.b₁, s.c₁.b₂, s.c₂.b₃⟩⟩

/-- Multiplication by `x` in the field of bytes. -/
def xtime (b : UInt8) : UInt8 :=
  (b <<< 1) ^^^ (if b &&& 0x80 = 0 then 0 else 0x1b)

/-- One byte of a mixed column: twice the first, three times the second, and the other two. -/
def mixByte (p q r t : UInt8) : UInt8 :=
  xtime p ^^^ (xtime q ^^^ q) ^^^ r ^^^ t

/-- One column mixed: each byte becomes a sum that starts from its own place. -/
def mixColumn (c : Column) : Column :=
  ⟨mixByte c.b₀ c.b₁ c.b₂ c.b₃, mixByte c.b₁ c.b₂ c.b₃ c.b₀,
   mixByte c.b₂ c.b₃ c.b₀ c.b₁, mixByte c.b₃ c.b₀ c.b₁ c.b₂⟩

/-- Mixes every column of the block. -/
def mixColumns (s : Block) : Block :=
  ⟨mixColumn s.c₀, mixColumn s.c₁, mixColumn s.c₂, mixColumn s.c₃⟩

/-! ### Keys -/

/-- Each column of a round key is the one before it, added to the column of the key two before. -/
def chain (first : Column) (s : Block) : Block :=
  let a := s.c₀.xor first
  let b := s.c₁.xor a
  let c := s.c₂.xor b
  ⟨a, b, c, s.c₃.xor c⟩

/-- The round keys from two of them on. -/
def expandFrom : List UInt8 → Block → Block → List Block
  | [], k, l => [k, l]
  | constant :: rest, k, l =>
    let mixed := (l.c₃.rotate.map sbox).xor ⟨constant, 0, 0, 0⟩
    let next := chain mixed k
    k :: l :: expandFrom rest next (chain (next.c₃.map sbox) l)

/-- A key of 256 bits. -/
structure Key where
  bytes : Bytes
  length_eq : bytes.length = 32
deriving DecidableEq

/-- The key of exactly 32 bytes. -/
def Key.ofBytes? (bytes : Bytes) : Option Key :=
  if h : bytes.length = 32 then some ⟨bytes, h⟩ else none

/-- The fifteen round keys. -/
def Key.expand (key : Key) : List Block :=
  (expandFrom [0x01, 0x02, 0x04, 0x08, 0x10, 0x20, 0x40] (Block.ofBytes (key.bytes.take 16))
    (Block.ofBytes (key.bytes.drop 16))).take 15

/-! ### The cipher -/

/-- The rounds after the first key; the last one mixes no columns. -/
def rounds : List Block → Block → Block
  | [], s => s
  | [k], s => (shiftRows (subBytes s)).xor k
  | k :: ks, s => rounds ks ((mixColumns (shiftRows (subBytes s))).xor k)

/-- Enciphers a block under round keys. -/
def encryptWith (keys : List Block) (s : Block) : Block :=
  match keys with
  | [] => s
  | k :: ks => rounds ks (s.xor k)

end Bureau.Aes256
