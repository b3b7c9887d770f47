import AikitRuntime.Durability.Json

/-!
# Stable identifiers and hashes

Durable identities are SHA-256 digests of length-framed fields, and values are hashed
through a canonical rendering. This module is that code: `hexSha256` with its message
schedule and rounds, `stableIdentifier` over framed fields and `stableInputHash` over
canonical JSON. Everything runs, so a digest of a concrete input is a computation.

Nothing else in the development looks inside a digest: the state machine only compares
identities, and it is modelled over any way of computing them (`Digest`).
-/

namespace AikitRuntime.Durability

namespace Sha256

/-- The eight working words. -/
structure Words where
  a : UInt32
  b : UInt32
  c : UInt32
  d : UInt32
  e : UInt32
  f : UInt32
  g : UInt32
  h : UInt32

def initial : Words :=
  ⟨0x6a09e667, 0xbb67ae85, 0x3c6ef372, 0xa54ff53a, 0x510e527f, 0x9b05688c, 0x1f83d9ab, 0x5be0cd19⟩

def k : List UInt32 := [
  0x428a2f98, 0x71374491, 0xb5c0fbcf, 0xe9b5dba5, 0x3956c25b, 0x59f111f1, 0x923f82a4, 0xab1c5ed5,
  0xd807aa98, 0x12835b01, 0x243185be, 0x550c7dc3, 0x72be5d74, 0x80deb1fe, 0x9bdc06a7, 0xc19bf174,
  0xe49b69c1, 0xefbe4786, 0x0fc19dc6, 0x240ca1cc, 0x2de92c6f, 0x4a7484aa, 0x5cb0a9dc, 0x76f988da,
  0x983e5152, 0xa831c66d, 0xb00327c8, 0xbf597fc7, 0xc6e00bf3, 0xd5a79147, 0x06ca6351, 0x14292967,
  0x27b70a85, 0x2e1b2138, 0x4d2c6dfc, 0x53380d13, 0x650a7354, 0x766a0abb, 0x81c2c92e, 0x92722c85,
  0xa2bfe8a1, 0xa81a664b, 0xc24b8b70, 0xc76c51a3, 0xd192e819, 0xd6990624, 0xf40e3585, 0x106aa070,
  0x19a4c116, 0x1e376c08, 0x2748774c, 0x34b0bcb5, 0x391c0cb3, 0x4ed8aa4a, 0x5b9cca4f, 0x682e6ff3,
  0x748f82ee, 0x78a5636f, 0x84c87814, 0x8cc70208, 0x90befffa, 0xa4506ceb, 0xbef9a3f7, 0xc67178f2]

def rotateRight (w : UInt32) (n : UInt32) : UInt32 := (w >>> n) ||| (w <<< (32 - n))

/-- The schedule's next word, from the sixteen before it. -/
def nextWord (window : List UInt32) : UInt32 :=
  let w15 := window.getD 1 0
  let w2 := window.getD 14 0
  let s0 := rotateRight w15 7 ^^^ rotateRight w15 18 ^^^ (w15 >>> 3)
  let s1 := rotateRight w2 17 ^^^ rotateRight w2 19 ^^^ (w2 >>> 10)
  window.getD 0 0 + s0 + window.getD 9 0 + s1

/-- `count` words of the schedule, starting with the window. -/
def schedule : Nat → List UInt32 → List UInt32
  | 0, _ => []
  | count + 1, window => window.getD 0 0 :: schedule count (window.tail ++ [nextWord window])

def round (w : Words) (k word : UInt32) : Words :=
  let sum1 := w.h + (rotateRight w.e 6 ^^^ rotateRight w.e 11 ^^^ rotateRight w.e 25) +
    ((w.e &&& w.f) ^^^ (~~~w.e &&& w.g)) + k + word
  let sum0 := (rotateRight w.a 2 ^^^ rotateRight w.a 13 ^^^ rotateRight w.a 22) +
    ((w.a &&& w.b) ^^^ (w.a &&& w.c) ^^^ (w.b &&& w.c))
  ⟨sum0 + sum1, w.a, w.b, w.c, w.d + sum1, w.e, w.f, w.g⟩

def rounds : Words → List UInt32 → List UInt32 → Words
  | w, k :: ks, word :: words => rounds (round w k word) ks words
  | w, _, _ => w

/-- One chunk of sixteen words. -/
def compress (hash : Words) (chunk : List UInt32) : Words :=
  let w := rounds hash k (schedule 64 chunk)
  ⟨hash.a + w.a, hash.b + w.b, hash.c + w.c, hash.d + w.d,
    hash.e + w.e, hash.f + w.f, hash.g + w.g, hash.h + w.h⟩

/-- The bytes of a `u64`, most significant first. -/
def toBeBytes (n : Nat) : List UInt8 :=
  (List.range 8).reverse.map fun i => UInt8.ofNat (n / 256 ^ i % 256)

/-- The message: the input, `0x80`, zeros up to 56 modulo 64, and the length in bits. -/
def pad (input : List UInt8) : List UInt8 :=
  let zeros := (119 - input.length % 64) % 64
  input ++ 0x80 :: (List.replicate zeros 0 ++ toBeBytes (input.length * 8 % 2 ^ 64))

/-- Big-endian words of four bytes. -/
def toWords : List UInt8 → List UInt32
  | b0 :: b1 :: b2 :: b3 :: rest =>
    ((b0.toUInt32 <<< 24) ||| (b1.toUInt32 <<< 16) ||| (b2.toUInt32 <<< 8) ||| b3.toUInt32) ::
      toWords rest
  | _ => []

/-- Fold the chunks of sixteen words; `count` bounds their number. -/
def digestChunks : Nat → Words → List UInt32 → Words
  | 0, hash, _ => hash
  | _, hash, [] => hash
  | count + 1, hash, words => digestChunks count (compress hash (words.take 16)) (words.drop 16)

def hexDigits : List Char := "0123456789abcdef".toList

/-- One hexadecimal digit. -/
def hexDigit (n : Nat) : Char := hexDigits[n]?.getD '0'

/-- `{word:08x}`. -/
def hexWord (w : UInt32) : List Char :=
  (List.range 8).reverse.map fun i => hexDigit (w.toNat / 16 ^ i % 16)

end Sha256

open Sha256 in
/-- `hex_sha256`. -/
def hexSha256 (input : List UInt8) : List Char :=
  let words := toWords (pad input)
  let hash := digestChunks words.length initial words
  [hash.a, hash.b, hash.c, hash.d, hash.e, hash.f, hash.g, hash.h].flatMap hexWord

/-- `push_hash_field`: a field behind its length. -/
def hashField (text : String) : List UInt8 :=
  let bytes := text.toUTF8.toList
  Sha256.toBeBytes bytes.length ++ bytes

/-! ### Canonical JSON -/

/-- One character of a JSON string: escaped when it must be. -/
def escapeChar (c : Char) : List Char :=
  match c.toNat with
  | 0x22 => ['\\', '"']
  | 0x5c => ['\\', '\\']
  | 0x08 => ['\\', 'b']
  | 0x09 => ['\\', 't']
  | 0x0a => ['\\', 'n']
  | 0x0c => ['\\', 'f']
  | 0x0d => ['\\', 'r']
  | n => if n < 0x20 then
      ['\\', 'u', '0', '0', Sha256.hexDigit (n / 16), Sha256.hexDigit (n % 16)]
    else [c]

/-- `serde_json::to_string` of a string. -/
def jsonString (text : String) : List Char :=
  '"' :: ((Library.Utf8.charsOf text).flatMap escapeChar ++ ['"'])

theorem jsonString_eq (text : String) : jsonString text = '"' :: (text.toList.flatMap escapeChar ++ ['"']) := by
  rw [jsonString, Library.Utf8.charsOf_eq]

def jsonNumber : Number → List Char
  | .posInt n => (toString n).toList
  | .negInt n => '-' :: (toString n).toList
  | .float text => text.toList

/-- A rendered field put in the order of the keys (`keys.sort_unstable()`). -/
def insertRendered (key : String) (text : List Char) :
    List (String × List Char) → List (String × List Char)
  | [] => [(key, text)]
  | (k, t) :: rest =>
    if key < k then (key, text) :: (k, t) :: rest else (k, t) :: insertRendered key text rest

/-- Items between commas. -/
def commaSeparated : List (List Char) → List Char
  | [] => []
  | [item] => item
  | item :: rest => item ++ ',' :: commaSeparated rest

mutual

/-- `write_canonical_json`. The fields are rendered first, and sorted then. -/
def canonicalJson : Value → List Char
  | .null => "null".toList
  | .bool b => (if b then "true" else "false").toList
  | .number n => jsonNumber n
  | .string s => jsonString s
  | .array items => '[' :: (commaSeparated (canonicalItems items) ++ [']'])
  | .object fields =>
    '\x7b' :: (commaSeparated ((canonicalFields fields).map fun field =>
      jsonString field.1 ++ ':' :: field.2) ++ ['\x7d'])

def canonicalItems : List Value → List (List Char)
  | [] => []
  | item :: rest => canonicalJson item :: canonicalItems rest

def canonicalFields : List (String × Value) → List (String × List Char)
  | [] => []
  | (key, value) :: rest => insertRendered key (canonicalJson value) (canonicalFields rest)

end

/-- The bytes of some characters. -/
def utf8 (chars : List Char) : List UInt8 := (String.ofList chars).toUTF8.toList

end AikitRuntime.Durability
