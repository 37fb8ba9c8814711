/-
The hash XXH3 with 64 bits, with a seed. Inputs of up to 16, 128 and 240
bytes and longer ones are hashed in four different ways, all built from one
product of 128 bits folded to 64 and a final mixing step.
-/
namespace FlowScript

namespace Xxh3

def prime32x1 : UInt64 := 0x9e3779b1
def prime32x2 : UInt64 := 0x85ebca77
def prime32x3 : UInt64 := 0xc2b2ae3d
def prime64x1 : UInt64 := 0x9e3779b185ebca87
def prime64x2 : UInt64 := 0xc2b2ae3d27d4eb4f
def prime64x3 : UInt64 := 0x165667b19e3779f9
def prime64x4 : UInt64 := 0x85ebca77c2b2ae63
def prime64x5 : UInt64 := 0x27d4eb2f165667c5

/-- The key material that the hash defines: 192 bytes. -/
def secret : ByteArray := ⟨#[
    0xb8, 0xfe, 0x6c, 0x39, 0x23, 0xa4, 0x4b, 0xbe, 0x7c, 0x01, 0x81, 0x2c, 0xf7, 0x21, 0xad, 0x1c,
    0xde, 0xd4, 0x6d, 0xe9, 0x83, 0x90, 0x97, 0xdb, 0x72, 0x40, 0xa4, 0xa4, 0xb7, 0xb3, 0x67, 0x1f,
    0xcb, 0x79, 0xe6, 0x4e, 0xcc, 0xc0, 0xe5, 0x78, 0x82, 0x5a, 0xd0, 0x7d, 0xcc, 0xff, 0x72, 0x21,
    0xb8, 0x08, 0x46, 0x74, 0xf7, 0x43, 0x24, 0x8e, 0xe0, 0x35, 0x90, 0xe6, 0x81, 0x3a, 0x26, 0x4c,
    0x3c, 0x28, 0x52, 0xbb, 0x91, 0xc3, 0x00, 0xcb, 0x88, 0xd0, 0x65, 0x8b, 0x1b, 0x53, 0x2e, 0xa3,
    0x71, 0x64, 0x48, 0x97, 0xa2, 0x0d, 0xf9, 0x4e, 0x38, 0x19, 0xef, 0x46, 0xa9, 0xde, 0xac, 0xd8,
    0xa8, 0xfa, 0x76, 0x3f, 0xe3, 0x9c, 0x34, 0x3f, 0xf9, 0xdc, 0xbb, 0xc7, 0xc7, 0x0b, 0x4f, 0x1d,
    0x8a, 0x51, 0xe0, 0x4b, 0xcd, 0xb4, 0x59, 0x31, 0xc8, 0x9f, 0x7e, 0xc9, 0xd9, 0x78, 0x73, 0x64,
    0xea, 0xc5, 0xac, 0x83, 0x34, 0xd3, 0xeb, 0xc3, 0xc5, 0x81, 0xa0, 0xff, 0xfa, 0x13, 0x63, 0xeb,
    0x17, 0x0d, 0xdd, 0x51, 0xb7, 0xf0, 0xda, 0x49, 0xd3, 0x16, 0x55, 0x26, 0x29, 0xd4, 0x68, 0x9e,
    0x2b, 0x16, 0xbe, 0x58, 0x7d, 0x47, 0xa1, 0xfc, 0x8f, 0xf8, 0xb8, 0xd1, 0x7a, 0xd0, 0x31, 0xce,
    0x45, 0xcb, 0x3a, 0x8f, 0x95, 0x16, 0x04, 0x28, 0xaf, 0xd7, 0xfb, 0xca, 0xbb, 0x4b, 0x40, 0x7e]⟩

def secretSize : Nat := 192

/-- The byte at an index; zero past the end. -/
def byte (b : ByteArray) (i : Nat) : UInt64 := (b.data[i]?.getD 0).toUInt64

/-- `n` bytes from an index on as a number, the first byte lowest. -/
def readLow (b : ByteArray) (i : Nat) : Nat → UInt64
  | 0 => 0
  | n + 1 => byte b i ||| (readLow b (i + 1) n <<< 8)

def word32 (b : ByteArray) (i : Nat) : UInt64 := readLow b i 4

def word64 (b : ByteArray) (i : Nat) : UInt64 := readLow b i 8

/-- The eight bytes of a number from the lowest on. -/
def bytesOf (x : UInt64) : List UInt8 := (List.range 8).map fun i => (x >>> (8 * i.toUInt64)).toUInt8

/-- The number with its bytes in reverse order. -/
def reverseBytes (x : UInt64) : UInt64 :=
  (bytesOf x).foldl (fun acc b => (acc <<< 8) ||| b.toUInt64) 0

def rotateLeft (x n : UInt64) : UInt64 := (x <<< n) ||| (x >>> (64 - n))

/-- The product of 128 bits, its halves put together by exclusive or. -/
def foldedProduct (x y : UInt64) : UInt64 :=
  let p := x.toNat * y.toNat
  p.toUInt64 ^^^ (p >>> 64).toUInt64

/-- The final mixing of inputs longer than eight bytes. -/
def mix (h : UInt64) : UInt64 :=
  let h := (h ^^^ (h >>> 37)) * 0x165667919e3779f9
  h ^^^ (h >>> 32)

/-- The final mixing of the shortest inputs. -/
def mixShort (h : UInt64) : UInt64 :=
  let h := (h ^^^ (h >>> 33)) * prime64x2
  let h := (h ^^^ (h >>> 29)) * prime64x3
  h ^^^ (h >>> 32)

/-- The final mixing of inputs of four to eight bytes. -/
def mixWords (h size : UInt64) : UInt64 :=
  let h := (h ^^^ rotateLeft h 49 ^^^ rotateLeft h 24) * 0x9fb21c651e98df25
  let h := (h ^^^ ((h >>> 35) + size)) * 0x9fb21c651e98df25
  h ^^^ (h >>> 28)

/-- Sixteen bytes of input under sixteen bytes of key material. -/
def mixPair (seed : UInt64) (b : ByteArray) (i k : Nat) : UInt64 :=
  foldedProduct (word64 b i ^^^ (word64 secret k + seed))
    (word64 b (i + 8) ^^^ (word64 secret (k + 8) - seed))

/-- Inputs of at most 16 bytes. -/
def hashShort (seed : UInt64) (b : ByteArray) : UInt64 :=
  let n := b.size
  let size := n.toUInt64
  if 8 < n then
    let low := word64 b 0 ^^^ ((word64 secret 24 ^^^ word64 secret 32) + seed)
    let high := word64 b (n - 8) ^^^ ((word64 secret 40 ^^^ word64 secret 48) - seed)
    mix (size + reverseBytes low + high + foldedProduct low high)
  else if 3 < n then
    let seed := seed ^^^ reverseBytes (seed &&& 0xffffffff)
    let flip := (word64 secret 8 ^^^ word64 secret 16) - seed
    mixWords ((word32 b (n - 4) + (word32 b 0 <<< 32)) ^^^ flip) size
  else if 0 < n then
    let word := (byte b 0 <<< 16) ||| (byte b (n / 2) <<< 24) ||| byte b (n - 1) ||| (size <<< 8)
    mixShort (word ^^^ ((word32 secret 0 ^^^ word32 secret 4) + seed))
  else mixShort (seed ^^^ word64 secret 56 ^^^ word64 secret 64)

/-- Inputs of 17 to 128 bytes: pairs from both ends towards the middle. -/
def hashMedium (seed : UInt64) (b : ByteArray) : UInt64 :=
  let n := b.size
  let pairs := fun i =>
    mixPair seed b (16 * i) (32 * i) + mixPair seed b (n - 16 * (i + 1)) (32 * i + 16)
  mix ((List.range ((n - 1) / 32 + 1)).foldl (fun acc i => acc + pairs i) (n.toUInt64 * prime64x1))

/-- Inputs of 129 to 240 bytes. -/
def hashLarge (seed : UInt64) (b : ByteArray) : UInt64 :=
  let n := b.size
  let first := (List.range 8).foldl (fun acc i => acc + mixPair seed b (16 * i) (16 * i))
    (n.toUInt64 * prime64x1)
  let last := mixPair seed b (n - 16) 119
  mix ((List.range (n / 16 - 8)).foldl (fun acc i => acc + mixPair seed b (16 * (i + 8)) (16 * i + 3))
    (mix first + last))

/-- The key material that belongs to a seed. -/
def seededSecret (seed : UInt64) : ByteArray :=
  ⟨((List.range 12).flatMap fun i =>
    bytesOf (word64 secret (16 * i) + seed) ++ bytesOf (word64 secret (16 * i + 8) - seed)).toArray⟩

def words (b : ByteArray) (i : Nat) : List UInt64 := (List.range 8).map fun k => word64 b (i + 8 * k)

/-- A list with neighbours in pairs exchanged. -/
def swapPairs : List UInt64 → List UInt64
  | x :: y :: rest => y :: x :: swapPairs rest
  | rest => rest

def halvesProduct (x : UInt64) : UInt64 :=
  let low : UInt64 := x &&& 0xffffffff
  let high : UInt64 := x >>> 32
  low * high

/-- Two lists of words put together by exclusive or. -/
def keyed (xs ys : List UInt64) : List UInt64 := xs.zipWith (· ^^^ ·) ys

def added (xs ys : List UInt64) : List UInt64 := xs.zipWith (· + ·) ys

/-- Adds 64 bytes of input under key material to eight sums. -/
def accumulate (key b : ByteArray) (sums : List UInt64) (i k : Nat) : List UInt64 :=
  let data := words b i
  let products := (keyed data (words key k)).map halvesProduct
  added (added sums (swapPairs data)) products

/-- Mixes the sums at the end of a block. -/
def scramble (key : ByteArray) (sums : List UInt64) : List UInt64 :=
  sums.zipWith (fun (x k : UInt64) => (x ^^^ (x >>> 47) ^^^ k) * prime32x1) (words key (secretSize - 64))

/-- Adds `n` stripes of 64 bytes from an index on. -/
def accumulateStripes (key b : ByteArray) (sums : List UInt64) (i n : Nat) : List UInt64 :=
  (List.range n).foldl (fun sums s => accumulate key b sums (i + 64 * s) (8 * s)) sums

/-- The folded products of neighbours in pairs, added up. -/
def sumOfProducts : List UInt64 → UInt64
  | x :: y :: rest => foldedProduct x y + sumOfProducts rest
  | _ => 0

/-- Puts eight sums together. -/
def merge (key : ByteArray) (start : UInt64) (sums : List UInt64) : UInt64 :=
  mix (start + sumOfProducts (keyed sums (words key 11)))

/-- What the sums begin with. -/
def initialSums : List UInt64 :=
  [prime32x3, prime64x1, prime64x2, prime64x3, prime64x4, prime32x2, prime64x5, prime32x1]

/-- Inputs of more than 240 bytes: blocks of sixteen stripes. -/
def hashLong (seed : UInt64) (b : ByteArray) : UInt64 :=
  let n := b.size
  let key := seededSecret seed
  let blocks := (n - 1) / 1024
  let sums := (List.range blocks).foldl
    (fun sums block => scramble key (accumulateStripes key b sums (1024 * block) 16)) initialSums
  let sums := accumulateStripes key b sums (1024 * blocks) ((n - 1 - 1024 * blocks) / 64)
  let sums := accumulate key b sums (n - 64) (secretSize - 71)
  merge key (n.toUInt64 * prime64x1) sums

def hash (seed : UInt64) (b : ByteArray) : UInt64 :=
  if b.size ≤ 16 then hashShort seed b
  else if b.size ≤ 128 then hashMedium seed b
  else if b.size ≤ 240 then hashLarge seed b
  else hashLong seed b

end Xxh3

end FlowScript
