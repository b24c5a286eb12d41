import Mathlib.Data.List.GetD
import Mathlib.Data.List.Nodup
import Mathlib.Tactic.Common

/-!
# Machinery/Sha256 — `hashlib.sha256`

    bytes ──pad──▸ 16-word blocks ──compress──▸ ⋯ ──▸ eight words ──▸ 64 hex digits

The hash function itself, over bytes and words as natural numbers, so that the ids the program
prints can be computed.  What proofs use of it is only the shape of the digest: 64 hexadecimal
digits, hence no separator inside.
-/

namespace BareAnalysis.Sha256

/-- One more than the largest word. -/
def wordSize : ℕ := 4294967296

/-- Rotate a word to the right. -/
def rotr (n x : ℕ) : ℕ := x >>> n ||| (x <<< (32 - n)) % wordSize

/-- The round constants: the cube roots of the first 64 primes. -/
def roundConstants : List ℕ :=
  [0x428a2f98, 0x71374491, 0xb5c0fbcf, 0xe9b5dba5, 0x3956c25b, 0x59f111f1, 0x923f82a4, 0xab1c5ed5,
   0xd807aa98, 0x12835b01, 0x243185be, 0x550c7dc3, 0x72be5d74, 0x80deb1fe, 0x9bdc06a7, 0xc19bf174,
   0xe49b69c1, 0xefbe4786, 0x0fc19dc6, 0x240ca1cc, 0x2de92c6f, 0x4a7484aa, 0x5cb0a9dc, 0x76f988da,
   0x983e5152, 0xa831c66d, 0xb00327c8, 0xbf597fc7, 0xc6e00bf3, 0xd5a79147, 0x06ca6351, 0x14292967,
   0x27b70a85, 0x2e1b2138, 0x4d2c6dfc, 0x53380d13, 0x650a7354, 0x766a0abb, 0x81c2c92e, 0x92722c85,
   0xa2bfe8a1, 0xa81a664b, 0xc24b8b70, 0xc76c51a3, 0xd192e819, 0xd6990624, 0xf40e3585, 0x106aa070,
   0x19a4c116, 0x1e376c08, 0x2748774c, 0x34b0bcb5, 0x391c0cb3, 0x4ed8aa4a, 0x5b9cca4f, 0x682e6ff3,
   0x748f82ee, 0x78a5636f, 0x84c87814, 0x8cc70208, 0x90befffa, 0xa4506ceb, 0xbef9a3f7, 0xc67178f2]

/-- The eight working words. -/
structure Words where
  (a b c d e f g h : ℕ)
  deriving DecidableEq, Repr

/-- The initial hash value: the square roots of the first eight primes. -/
def Words.init : Words :=
  ⟨0x6a09e667, 0xbb67ae85, 0x3c6ef372, 0xa54ff53a, 0x510e527f, 0x9b05688c, 0x1f83d9ab, 0x5be0cd19⟩

def Words.add (s t : Words) : Words :=
  ⟨(s.a + t.a) % wordSize, (s.b + t.b) % wordSize, (s.c + t.c) % wordSize, (s.d + t.d) % wordSize,
    (s.e + t.e) % wordSize, (s.f + t.f) % wordSize, (s.g + t.g) % wordSize, (s.h + t.h) % wordSize⟩

def Words.toList (s : Words) : List ℕ := [s.a, s.b, s.c, s.d, s.e, s.f, s.g, s.h]

/-- One of the 64 rounds, with its constant and schedule word. -/
def round : Words → ℕ × ℕ → Words
  | ⟨a, b, c, d, e, f, g, h⟩, (k, w) =>
    let t₁ := (h + (rotr 6 e ^^^ rotr 11 e ^^^ rotr 25 e)
      + ((e &&& f) ^^^ ((wordSize - 1 - e) &&& g)) + k + w) % wordSize
    let t₂ := (rotr 2 a ^^^ rotr 13 a ^^^ rotr 22 a) + ((a &&& b) ^^^ (a &&& c) ^^^ (b &&& c))
    ⟨(t₁ + t₂) % wordSize, a, b, c, (d + t₁) % wordSize, e, f, g⟩

/-- The message schedule, latest word first, `n` words longer. -/
def extend : ℕ → List ℕ → List ℕ
  | 0, ws => ws
  | n + 1, ws =>
    let w₁ := ws.getD 14 0
    let w₁₄ := ws.getD 1 0
    let s₀ := rotr 7 w₁ ^^^ rotr 18 w₁ ^^^ w₁ >>> 3
    let s₁ := rotr 17 w₁₄ ^^^ rotr 19 w₁₄ ^^^ w₁₄ >>> 10
    extend n ((ws.getD 15 0 + s₀ + ws.getD 6 0 + s₁) % wordSize :: ws)

/-- The compression function on one block of 16 words. -/
def compress (s : Words) (block : List ℕ) : Words :=
  s.add ((roundConstants.zip (extend 48 block.reverse).reverse).foldl round s)

/-- The `k` low bytes of a number, most significant first. -/
def bigEndian : ℕ → ℕ → List ℕ
  | 0, _ => []
  | k + 1, n => n / 256 ^ k % 256 :: bigEndian k n

/-- A one bit, zeros up to 56 bytes past a block boundary, and the length in bits. -/
def pad (msg : List ℕ) : List ℕ :=
  msg ++ 128 :: List.replicate ((119 - msg.length % 64) % 64) 0 ++ bigEndian 8 (8 * msg.length)

/-- Four bytes to the word. -/
def words : List ℕ → List ℕ
  | a :: b :: c :: d :: rest => (a * 2 ^ 24 + b * 2 ^ 16 + c * 2 ^ 8 + d) :: words rest
  | _ => []

/-- The first `n` blocks of 16 words. -/
def blocks : ℕ → List ℕ → List (List ℕ)
  | 0, _ => []
  | n + 1, ws => ws.take 16 :: blocks n (ws.drop 16)

def digest (msg : List ℕ) : Words :=
  let ws := words (pad msg)
  (blocks (ws.length / 16) ws).foldl compress Words.init

/-- A digit of a hexadecimal numeral. -/
def hexDigit (n : ℕ) : Char := "0123456789abcdef".toList.getD n '0'

/-- Two digits to the byte. -/
def hex (bytes : List ℕ) : List Char := bytes.flatMap fun b => [hexDigit (b / 16), hexDigit (b % 16)]

/-- `text.encode()`: the UTF-8 bytes. -/
def encode (text : String) : List ℕ :=
  text.toList.flatMap fun c => (String.utf8EncodeChar c).map UInt8.toNat

end BareAnalysis.Sha256

namespace BareAnalysis

open Sha256

/-- `hashlib.sha256(data).hexdigest()`. -/
def sha256Bytes (data : List ℕ) : String :=
  String.ofList (hex ((digest data).toList.flatMap (bigEndian 4)))

/-- `hashlib.sha256(text.encode()).hexdigest()`. -/
def sha256 (text : String) : String := sha256Bytes (encode text)

example : sha256 "abc" = "ba7816bf8f01cfea414140de5dae2223b00361a396177a9cb410ff61f20015ad" := by
  decide +kernel

/-! ## The shape of a digest -/

/-- The sixteen digits. -/
def isHexDigit (c : Char) : Bool := "0123456789abcdef".toList.contains c

theorem isHexDigit_hexDigit (n : ℕ) : isHexDigit (Sha256.hexDigit n) = true := by
  have hsmall : ∀ m < 16, isHexDigit (Sha256.hexDigit m) = true := by decide
  by_cases h : n < 16
  · exact hsmall n h
  · rw [Sha256.hexDigit, List.getD_eq_default _ _ (by simpa using h)]
    decide

theorem length_bigEndian (k n : ℕ) : (bigEndian k n).length = k := by
  induction k with
  | zero => rfl
  | succ k ih => exact congrArg Nat.succ ih

theorem length_hex (bytes : List ℕ) : (hex bytes).length = 2 * bytes.length := by
  induction bytes with
  | nil => rfl
  | cons b bs ih =>
    simp only [hex, List.flatMap_cons, List.length_append, List.length_cons, List.length_nil] at *
    omega

/-- **A digest is 64 characters long.** -/
theorem length_sha256Bytes (data : List ℕ) : (sha256Bytes data).toList.length = 64 := by
  rw [sha256Bytes, String.toList_ofList, length_hex]
  simp [Words.toList, length_bigEndian]

/-- **A digest is made of hexadecimal digits.** -/
theorem isHexDigit_of_mem_sha256Bytes {data : List ℕ} {c : Char}
    (hc : c ∈ (sha256Bytes data).toList) : isHexDigit c = true := by
  rw [sha256Bytes, String.toList_ofList] at hc
  obtain ⟨b, -, hb⟩ := List.mem_flatMap.mp hc
  rcases List.mem_cons.mp hb with rfl | hb
  · exact isHexDigit_hexDigit _
  · rw [List.mem_singleton.mp hb]
    exact isHexDigit_hexDigit _

/-- Some texts have pairwise different hashes: what injectivity of a hash means for the texts that
are really hashed. -/
def NoCollision (hash : String → String) (texts : List String) : Prop :=
  ∀ s ∈ texts, ∀ t ∈ texts, hash s = hash t → s = t

theorem noCollision_of_nodup {hash : String → String} {texts : List String}
    (h : (texts.map hash).Nodup) : NoCollision hash texts :=
  fun _ hs _ ht => List.inj_on_of_nodup_map h hs ht

/-- A text of 64 hexadecimal digits. -/
def IsDigest (text : String) : Prop :=
  text.toList.length = 64 ∧ ∀ c ∈ text.toList, isHexDigit c = true

instance (text : String) : Decidable (IsDigest text) :=
  inferInstanceAs (Decidable (_ ∧ _))

theorem isDigest_sha256Bytes (data : List ℕ) : IsDigest (sha256Bytes data) :=
  ⟨length_sha256Bytes data, fun _ => isHexDigit_of_mem_sha256Bytes⟩

theorem isDigest_sha256 (text : String) : IsDigest (sha256 text) := isDigest_sha256Bytes _

/-- A digest holds no character that is not a digit. -/
theorem IsDigest.not_mem {text : String} (h : IsDigest text) {c : Char}
    (hc : isHexDigit c = false) : c ∉ text.toList := fun hmem => by
  rw [h.2 c hmem] at hc
  cases hc

end BareAnalysis
