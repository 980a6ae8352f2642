/-
The XXH3 digest of a text in 64 bits, with seed zero and the default secret.

All arithmetic is modulo 2^64. Inputs of up to 16, 128 and 240 bytes have rules of their own;
longer ones are read in stripes of 64 bytes into eight accumulators, which are scrambled after
every sixteen stripes.
-/
namespace Stencil.Xxh3

/-- The default secret. -/
def secret : ByteArray := ⟨#[
  0xb8, 0xfe, 0x6c, 0x39, 0x23, 0xa4, 0x4b, 0xbe, 0x7c, 0x01, 0x81, 0x2c, 0xf7, 0x21, 0xad, 0x1c,
  0xde, 0xd4, 0x6d, 0xe9, 0x83, 0x90, 0x97, 0xdb, 0x72, 0x40, 0xa4, 0xa4, 0xb7, 0xb3, 0x67, 0x1f,
  0xcb, 0x79, 0xe6, 0x4e, 0xcc, 0xc0, 0xe5, 0x78, 0x82, 0x5a, 0xd0, 0x7d, 0xcc, 0xff, 0x72, 0x21,
  0xb8, 0x08, 0x46, 0x74, 0xf7, 0x43, 0x24, 0x8e, 0xe0, 0x35, 0x90, 0xe6, 0x81, 0x3a, 0x26, 0x4c,
  0x3c, 0x28, 0x52, 0xbb, 0x91, 0xc3, 0x00, 0xcb, 0x88, 0xd0, 0x65, 0x8b, 0x1b, 0x53, 0x2e, 0xa3,
  0x71, 0x64, 0x48, 0x97, 0xa2, 0x0d, 0xf9, 0x4e, 0x38, 0x19, 0xef, 0x46, 0xa9, 0xde, 0xac, 0xd8,
  0xa8, 0xfa, 0x76, 0x3f, 0xe3, 0x9c, 0x34, 0x3f, 0xf9, 0xdc, 0xbb, 0xc7, 0xc7, 0x0b, 0x4f, 0x1d,
  0x8a, 0x51, 0xe0, 0x4b, 0xcd, 0xb4, 0x59, 0x31, 0xc8, 0x9f, 0x7e, 0xc9, 0xd9, 0x78, 0x73, 0x64,
  0xea, 0xc5, 0xac, 0x83, 0x34, 0xd3, 0xeb, 0xc3, 0xc5, 0x81, 0xa0, 0xff, 0xfa, 0x13, 0x63, 0xeb,
  0x17, 0x0d, 0xdd, 0x51, 0xb7, 0xf0, 0xda, 0x49, 0xd3, 0x16, 0x55, 0x26, 0x29, 0xd4, 0x68, 0x9e,
  0x2b, 0x16, 0xbe, 0x58, 0x7d, 0x47, 0xa1, 0xfc, 0x8f, 0xf8, 0xb8, 0xd1, 0x7a, 0xd0, 0x31, 0xce,
  0x45, 0xcb, 0x3a, 0x8f, 0x95, 0x16, 0x04, 0x28, 0xaf, 0xd7, 0xfb, 0xca, 0xbb, 0x4b, 0x40, 0x7e]⟩

/-- The byte at an index, zero beyond the end. -/
def byteAt (data : ByteArray) (i : Nat) : UInt64 :=
  if h : i < data.size then data[i].toUInt64 else 0

/-- `n` bytes from an index on as a number, the first byte lowest. -/
def readBytes (data : ByteArray) (i : Nat) : Nat → UInt64
  | 0 => 0
  | n + 1 => byteAt data i + (readBytes data (i + 1) n) * 256

def read32 (data : ByteArray) (i : Nat) : UInt64 := readBytes data i 4

def read64 (data : ByteArray) (i : Nat) : UInt64 := readBytes data i 8

def prime1 : UInt64 := 0x9E3779B185EBCA87

def prime2 : UInt64 := 0xC2B2AE3D27D4EB4F

def prime3 : UInt64 := 0x165667B19E3779F9

def prime4 : UInt64 := 0x85EBCA77C2B2AE63

def prime5 : UInt64 := 0x27D4EB2F165667C5

def primeMix : UInt64 := 0x9FB21C651E98DF25

def primeAvalanche : UInt64 := 0x165667919E3779F9

def smallPrime1 : UInt64 := 0x9E3779B1

def smallPrime2 : UInt64 := 0x85EBCA77

def smallPrime3 : UInt64 := 0xC2B2AE3D

def rotateLeft (x n : UInt64) : UInt64 := (x <<< n) ||| (x >>> (64 - n))

/-- The eight bytes of a word in reverse. -/
def reverseBytes (x : UInt64) : UInt64 :=
  (List.range 8).foldl (fun r i => (r <<< 8) ||| ((x >>> (8 * UInt64.ofNat i)) &&& 0xFF)) 0

/-- The two halves of the full product, combined. -/
def foldProduct (x y : UInt64) : UInt64 :=
  let product := x.toNat * y.toNat
  UInt64.ofNat product ^^^ UInt64.ofNat (product >>> 64)

def avalanche64 (h : UInt64) : UInt64 :=
  let h := (h ^^^ (h >>> 33)) * prime2
  let h := (h ^^^ (h >>> 29)) * prime3
  h ^^^ (h >>> 32)

def avalanche (h : UInt64) : UInt64 :=
  let h := (h ^^^ (h >>> 37)) * primeAvalanche
  h ^^^ (h >>> 32)

/-- Sixteen bytes of input mixed with sixteen of the secret. -/
def mix (data : ByteArray) (i s : Nat) : UInt64 :=
  foldProduct (read64 data i ^^^ read64 secret s) (read64 data (i + 8) ^^^ read64 secret (s + 8))

/-- One to three bytes. -/
def digestTo3 (data : ByteArray) : UInt64 :=
  let n := data.size
  let word := (byteAt data 0 <<< 16) ||| (byteAt data (n / 2) <<< 24) ||| byteAt data (n - 1)
    ||| (UInt64.ofNat n <<< 8)
  avalanche64 (word ^^^ (read32 secret 0 ^^^ read32 secret 4))

/-- Four to eight bytes. -/
def digestTo8 (data : ByteArray) : UInt64 :=
  let n := data.size
  let h := (read32 data (n - 4) + (read32 data 0 <<< 32)) ^^^ (read64 secret 8 ^^^ read64 secret 16)
  let h := (h ^^^ (rotateLeft h 49 ^^^ rotateLeft h 24)) * primeMix
  let h := (h ^^^ ((h >>> 35) + UInt64.ofNat n)) * primeMix
  h ^^^ (h >>> 28)

/-- Nine to sixteen bytes. -/
def digestTo16 (data : ByteArray) : UInt64 :=
  let n := data.size
  let low := read64 data 0 ^^^ read64 secret 24 ^^^ read64 secret 32
  let high := read64 data (n - 8) ^^^ read64 secret 40 ^^^ read64 secret 48
  avalanche (UInt64.ofNat n + reverseBytes low + high + foldProduct low high)

/-- Up to 128 bytes: pairs of words from both ends inwards. -/
def digestTo128 (data : ByteArray) : UInt64 :=
  let n := data.size
  avalanche ((List.range ((n - 1) / 32 + 1)).foldl
    (fun h i => h + mix data (16 * i) (32 * i) + mix data (n - 16 * (i + 1)) (32 * i + 16))
    (UInt64.ofNat n * prime1))

/-- Up to 240 bytes: words in order, the secret shifted after the first eight. -/
def digestTo240 (data : ByteArray) : UInt64 :=
  let n := data.size
  let first := (List.range 8).foldl (fun h i => h + mix data (16 * i) (16 * i))
    (UInt64.ofNat n * prime1)
  let rest := (List.range (n / 16 - 8)).foldl
    (fun h i => h + mix data (16 * (i + 8)) (16 * i + 3)) (avalanche first)
  avalanche (rest + mix data (n - 16) 119)

/-- The product of the two halves of a word. -/
def halvesProduct (x : UInt64) : UInt64 := x.toUInt32.toUInt64 * (x >>> 32)

/-- The accumulators after a stripe of 64 bytes at index `i`, with the secret from `s` on. Each
word is added to its neighbour's accumulator and, multiplied, to its own. -/
def addStripe (data : ByteArray) (i s : Nat) (acc : Array UInt64) : Array UInt64 :=
  (List.range 8).foldl (fun acc k =>
    let word := read64 data (i + 8 * k)
    let keyed := word ^^^ read64 secret (s + 8 * k)
    let acc := acc.modify (k ^^^ 1) (· + word)
    acc.modify k (· + halvesProduct keyed)) acc

/-- The accumulators after sixteen stripes. -/
def scramble (acc : Array UInt64) : Array UInt64 :=
  acc.mapIdx fun (k : Nat) (a : UInt64) =>
    ((a ^^^ (a >>> 47)) ^^^ read64 secret (128 + 8 * k)) * smallPrime1

def initialAccumulators : Array UInt64 :=
  #[smallPrime3, prime1, prime2, prime3, prime4, smallPrime2, prime5, smallPrime1]

/-- `count` stripes from number `j` on. -/
def addStripes (data : ByteArray) (j : Nat) : Nat → Array UInt64 → Array UInt64
  | 0, acc => acc
  | count + 1, acc =>
    let acc := addStripe data (64 * j) (8 * (j % 16)) acc
    addStripes data (j + 1) count (if j % 16 == 15 then scramble acc else acc)

/-- More than 240 bytes. The last stripe ends with the input. -/
def digestLong (data : ByteArray) : UInt64 :=
  let n := data.size
  let acc := addStripes data 0 ((n - 1) / 64) initialAccumulators
  let acc := addStripe data (n - 64) 121 acc
  avalanche ((List.range 4).foldl (fun h k =>
    h + foldProduct (acc.getD (2 * k) 0 ^^^ read64 secret (11 + 16 * k))
      (acc.getD (2 * k + 1) 0 ^^^ read64 secret (19 + 16 * k))) (UInt64.ofNat n * prime1))

/-- The digest of some bytes. -/
def ofBytes (data : ByteArray) : UInt64 :=
  let n := data.size
  if n = 0 then avalanche64 (read64 secret 56 ^^^ read64 secret 64)
  else if n ≤ 3 then digestTo3 data
  else if n ≤ 8 then digestTo8 data
  else if n ≤ 16 then digestTo16 data
  else if n ≤ 128 then digestTo128 data
  else if n ≤ 240 then digestTo240 data
  else digestLong data

def ofText (text : String) : UInt64 := ofBytes text.toUTF8

end Stencil.Xxh3
