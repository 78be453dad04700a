import Mathlib.Algebra.Ring.Nat
import Mathlib.Data.List.Basic

/-! SHA-256 of a text in UTF-8, as hexadecimal digits. -/

namespace Sha256

abbrev Word := BitVec 32

def initialHash : List Word :=
  [0x6a09e667, 0xbb67ae85, 0x3c6ef372, 0xa54ff53a, 0x510e527f, 0x9b05688c, 0x1f83d9ab, 0x5be0cd19]

def roundConstants : List Word :=
  [0x428a2f98, 0x71374491, 0xb5c0fbcf, 0xe9b5dba5, 0x3956c25b, 0x59f111f1, 0x923f82a4, 0xab1c5ed5,
    0xd807aa98, 0x12835b01, 0x243185be, 0x550c7dc3, 0x72be5d74, 0x80deb1fe, 0x9bdc06a7, 0xc19bf174,
    0xe49b69c1, 0xefbe4786, 0x0fc19dc6, 0x240ca1cc, 0x2de92c6f, 0x4a7484aa, 0x5cb0a9dc, 0x76f988da,
    0x983e5152, 0xa831c66d, 0xb00327c8, 0xbf597fc7, 0xc6e00bf3, 0xd5a79147, 0x06ca6351, 0x14292967,
    0x27b70a85, 0x2e1b2138, 0x4d2c6dfc, 0x53380d13, 0x650a7354, 0x766a0abb, 0x81c2c92e, 0x92722c85,
    0xa2bfe8a1, 0xa81a664b, 0xc24b8b70, 0xc76c51a3, 0xd192e819, 0xd6990624, 0xf40e3585, 0x106aa070,
    0x19a4c116, 0x1e376c08, 0x2748774c, 0x34b0bcb5, 0x391c0cb3, 0x4ed8aa4a, 0x5b9cca4f, 0x682e6ff3,
    0x748f82ee, 0x78a5636f, 0x84c87814, 0x8cc70208, 0x90befffa, 0xa4506ceb, 0xbef9a3f7, 0xc67178f2]

def padded (message : List ℕ) : List ℕ :=
  let zeros := (119 - message.length % 64) % 64
  let bits := 8 * message.length
  message ++ 128 :: List.replicate zeros 0 ++
    (List.range 8).map fun i => bits / 256 ^ (7 - i) % 256

def words : List ℕ → List Word
  | a :: b :: c :: d :: rest =>
    BitVec.ofNat 32 (((a * 256 + b) * 256 + c) * 256 + d) :: words rest
  | _ => []

def blocks : List Word → ℕ → List (List Word)
  | _, 0 => []
  | message, n + 1 => message.take 16 :: blocks (message.drop 16) n

def schedule (newest : List Word) : ℕ → List Word
  | 0 => newest
  | n + 1 =>
    let w (i : ℕ) : Word := newest.getD (i - 1) 0
    let sigma0 := (w 15).rotateRight 7 ^^^ (w 15).rotateRight 18 ^^^ (w 15) >>> 3
    let sigma1 := (w 2).rotateRight 17 ^^^ (w 2).rotateRight 19 ^^^ (w 2) >>> 10
    schedule ((w 16 + sigma0 + w 7 + sigma1) :: newest) n

def round (state : List Word) (constant word : Word) : List Word :=
  match state with
  | [a, b, c, d, e, f, g, h] =>
    let sum1 := e.rotateRight 6 ^^^ e.rotateRight 11 ^^^ e.rotateRight 25
    let choose := (e &&& f) ^^^ (~~~e &&& g)
    let first := h + sum1 + choose + constant + word
    let sum0 := a.rotateRight 2 ^^^ a.rotateRight 13 ^^^ a.rotateRight 22
    let majority := (a &&& b) ^^^ (a &&& c) ^^^ (b &&& c)
    [first + (sum0 + majority), a, b, c, d + first, e, f, g]
  | _ => state

def compress (hash block : List Word) : List Word :=
  let rounds := roundConstants.zip (schedule block.reverse 48).reverse
  List.zipWith (· + ·) hash (rounds.foldl (fun state next => round state next.1 next.2) hash)

def hexDigit (n : ℕ) : Char := "0123456789abcdef".toList.getD n '0'

def hexWord (word : Word) : List Char :=
  (List.range 8).map fun i => hexDigit (word.toNat / 16 ^ (7 - i) % 16)

def utf8 (text : String) : List ℕ :=
  (text.toList.flatMap String.utf8EncodeChar).map UInt8.toNat

def hexdigest (text : String) : String :=
  let message := words (padded (utf8 text))
  let digest := (blocks message (message.length / 16)).foldl compress initialHash
  String.ofList (digest.flatMap hexWord)

example : hexdigest "abc" =
    "ba7816bf8f01cfea414140de5dae2223b00361a396177a9cb410ff61f20015ad" := by
  decide +kernel

end Sha256
