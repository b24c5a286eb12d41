import Mathlib.Algebra.Group.Nat.Defs
import Mathlib.Data.List.Basic
import Mathlib.Data.Nat.Basic
import Mathlib.Tactic.Common

/-!
# Machinery/Utf8 — `text.encode("utf-8")` and `data.decode("utf-8", errors)`

    e2 82 ac 0a   ──▸   € \n          e2 82 0a   ──▸   ⟨error⟩ \n

The decoder reads byte by byte; what it carries is the character it is inside of.  Bytes it cannot
continue with are an error, once for what it had read of a character.  An ASCII byte is never part of
another character, so it starts the decoder afresh.
-/

namespace BareAnalysis.Utf8

/-- `text.encode("utf-8")`. -/
def encode (text : List Char) : List UInt8 := text.flatMap String.utf8EncodeChar

@[simp] theorem encode_nil : encode [] = [] := rfl

theorem encode_append (a b : List Char) : encode (a ++ b) = encode a ++ encode b :=
  List.flatMap_append

/-- A character that is begun: the range of its next byte, how many bytes come after that, and the
bits read so far.  It will not be an ASCII character. -/
structure Pending where
  low : ℕ
  high : ℕ
  after : ℕ
  bits : ℕ
  low_ge : 0x80 ≤ low
  wide : 0x80 ≤ (bits * 64 + (low - 0x80)) * 64 ^ after

/-- The first byte of a longer character. -/
def lead (b : UInt8) : Option Pending :=
  if h : 0xC2 ≤ b.toNat ∧ b.toNat ≤ 0xDF then
    some ⟨0x80, 0xBF, 0, b.toNat - 0xC0, by omega, by omega⟩
  else if b = 0xE0 then some ⟨0xA0, 0xBF, 1, 0x0, by omega, by omega⟩
  else if b = 0xED then some ⟨0x80, 0x9F, 1, 0xD, by omega, by omega⟩
  else if h : 0xE1 ≤ b.toNat ∧ b.toNat ≤ 0xEF then
    some ⟨0x80, 0xBF, 1, b.toNat - 0xE0, by omega, by omega⟩
  else if b = 0xF0 then some ⟨0x90, 0xBF, 2, 0x0, by omega, by omega⟩
  else if b = 0xF4 then some ⟨0x80, 0x8F, 2, 0x4, by omega, by omega⟩
  else if h : 0xF1 ≤ b.toNat ∧ b.toNat ≤ 0xF3 then
    some ⟨0x80, 0xBF, 2, b.toNat - 0xF0, by omega, by omega⟩
  else none

/-- The bits of a character with one more byte. -/
def Pending.bitsWith (p : Pending) (b : UInt8) : ℕ := p.bits * 64 + (b.toNat - 0x80)

theorem Pending.le_bitsWith {p : Pending} {b : UInt8} (h : p.low ≤ b.toNat) :
    0x80 ≤ p.bitsWith b * 64 ^ p.after :=
  le_trans p.wide (Nat.mul_le_mul_right _ (Nat.add_le_add_left (Nat.sub_le_sub_right h _) _))

/-- One more byte of a character. -/
def Pending.next (p : Pending) (b : UInt8) (h : p.low ≤ b.toNat) : List Char × Option Pending :=
  match hafter : p.after with
  | 0 => ([Char.ofNat (p.bitsWith b)], none)
  | n + 1 =>
    ([], some ⟨0x80, 0xBF, n, p.bitsWith b, le_rfl, by
      have := p.le_bitsWith h
      rw [hafter, Nat.pow_succ'] at this
      rwa [Nat.sub_self, Nat.add_zero, Nat.mul_assoc]⟩)

variable (onError : List Char)

/-- A byte between characters. -/
def startByte (b : UInt8) : List Char × Option Pending :=
  if b < 0x80 then ([Char.ofNat b.toNat], none)
  else
    match lead b with
    | some p => ([], some p)
    | none => (onError, none)

/-- One byte: the characters it settles, and the one it leaves begun. -/
def decodeByte : Option Pending → UInt8 → List Char × Option Pending
  | none, b => startByte onError b
  | some p, b =>
    if h : p.low ≤ b.toNat ∧ b.toNat ≤ p.high then p.next b h.1
    else (onError ++ (startByte onError b).1, (startByte onError b).2)

/-- The decoder, inside a character or between two. -/
def decodeFrom : Option Pending → List UInt8 → List Char
  | none, [] => []
  | some _, [] => onError
  | state, b :: rest =>
    (decodeByte onError state b).1 ++ decodeFrom (decodeByte onError state b).2 rest

/-- `data.decode("utf-8", errors)`, with what an error puts in place of the bytes. -/
def decode (data : List UInt8) : List Char := decodeFrom onError none data

/-- `data.decode("utf-8")`: what an error would put in is not what was read. -/
def decodeStrict (data : List UInt8) : Option (List Char) :=
  let text := decode ['\uFFFD'] data
  if encode text = data then some text else none

example : decode ['\uFFFD'] [0x61, 0xE2, 0x82, 0xAC, 0xE2, 0x82, 0x0A, 0xC0, 0xF0, 0x9F]
    = ['a', '€', '\uFFFD', '\n', '\uFFFD', '\uFFFD'] := by decide

/-! ## ASCII bytes -/

variable {onError}

theorem decodeFrom_cons (state : Option Pending) (b : UInt8) (rest : List UInt8) :
    decodeFrom onError state (b :: rest) = (decodeByte onError state b).1
      ++ decodeFrom onError (decodeByte onError state b).2 rest := by
  cases state <;> rfl

theorem startByte_ascii {b : UInt8} (h : b < 0x80) :
    startByte onError b = ([Char.ofNat b.toNat], none) := if_pos h

/-- **An ASCII byte is a character**, and ends the one that was begun. -/
theorem decodeFrom_append_ascii {b : UInt8} (h : b < 0x80) (state : Option Pending)
    (p q : List UInt8) :
    decodeFrom onError state (p ++ b :: q)
      = decodeFrom onError state p ++ Char.ofNat b.toNat :: decodeFrom onError none q := by
  induction p generalizing state with
  | nil =>
    rw [List.nil_append]
    obtain - | pending := state
    · rw [decodeFrom_cons, decodeByte, startByte_ascii h]
      rfl
    · have hout : ¬(pending.low ≤ b.toNat ∧ b.toNat ≤ pending.high) := fun hin => by
        have := pending.low_ge
        have : b.toNat < 0x80 := h
        omega
      rw [decodeFrom_cons, decodeByte, dif_neg hout, startByte_ascii h, List.append_assoc]
      rfl
  | cons a p ih =>
    rw [List.cons_append, decodeFrom_cons, decodeFrom_cons, ih, List.append_assoc]

theorem decode_append_ascii {b : UInt8} (h : b < 0x80) (p q : List UInt8) :
    decode onError (p ++ b :: q)
      = decode onError p ++ Char.ofNat b.toNat :: decode onError q :=
  decodeFrom_append_ascii h none p q

theorem eq_toNat_of_ofNat {n : ℕ} {c : Char} (hc : c ≠ '\x00') (h : Char.ofNat n = c) :
    n = c.toNat := by
  by_cases hvalid : n.isValidChar
  · rw [← h, Char.ofNat, dif_pos hvalid]
    rfl
  · rw [Char.ofNat, dif_neg hvalid] at h
    exact absurd h.symm hc

/-- Only its own byte decodes to an ASCII character. -/
theorem not_mem_decodeByte {c : Char} (hc : c ≠ '\x00') (hascii : c.toNat < 0x80)
    (herror : c ∉ onError) {b : UInt8} (hb : b.toNat ≠ c.toNat) (state : Option Pending) :
    c ∉ (decodeByte onError state b).1 := by
  have hstart : c ∉ (startByte onError b).1 := by
    rw [startByte]
    split
    · intro hmem
      exact hb (eq_toNat_of_ofNat hc (List.mem_singleton.mp hmem).symm)
    · split
      · exact List.not_mem_nil
      · exact herror
  obtain - | pending := state
  · exact hstart
  · rw [decodeByte]
    split
    · rename_i hin
      rw [Pending.next]
      split
      · rename_i hafter
        intro hmem
        have hbits := pending.le_bitsWith hin.1
        rw [hafter, Nat.pow_zero, Nat.mul_one,
          eq_toNat_of_ofNat hc (List.mem_singleton.mp hmem).symm] at hbits
        omega
      · exact List.not_mem_nil
    · intro hmem
      obtain hmem | hmem := List.mem_append.mp hmem
      · exact herror hmem
      · exact hstart hmem

theorem not_mem_decodeFrom {c : Char} (hc : c ≠ '\x00') (hascii : c.toNat < 0x80)
    (herror : c ∉ onError) {data : List UInt8} (hdata : ∀ b ∈ data, b.toNat ≠ c.toNat)
    (state : Option Pending) : c ∉ decodeFrom onError state data := by
  induction data generalizing state with
  | nil =>
    obtain - | pending := state
    · exact List.not_mem_nil
    · exact herror
  | cons b rest ih =>
    rw [decodeFrom_cons]
    intro hmem
    obtain hmem | hmem := List.mem_append.mp hmem
    · exact not_mem_decodeByte hc hascii herror (hdata b List.mem_cons_self) state hmem
    · exact ih (fun b hb => hdata b (List.mem_cons_of_mem _ hb)) _ hmem

/-- **An ASCII character comes from an ASCII byte.** -/
theorem not_mem_decode {c : Char} (hc : c ≠ '\x00') (hascii : c.toNat < 0x80)
    (herror : c ∉ onError) {data : List UInt8} (hdata : ∀ b ∈ data, b.toNat ≠ c.toNat) :
    c ∉ decode onError data :=
  not_mem_decodeFrom hc hascii herror hdata none

/-! ## There and back -/

/-- A byte that continues a character: six bits of it. -/
def tailByte (x : ℕ) : UInt8 := UInt8.ofNat (x % 64 + 0x80)

/-- The last bytes of a character, from its code point. -/
def tailBytes : ℕ → ℕ → List UInt8
  | 0, _ => []
  | n + 1, v => tailByte (v / 64 ^ n) :: tailBytes n v

theorem toNat_tailByte (x : ℕ) : (tailByte x).toNat = x % 64 + 0x80 := by
  rw [tailByte, UInt8.toNat_ofNat']
  omega

theorem Pending.bitsWith_tailByte (p : Pending) (x : ℕ) :
    p.bitsWith (tailByte x) = p.bits * 64 + x % 64 := by
  have hbyte := toNat_tailByte x
  unfold Pending.bitsWith
  omega

/-- The byte is one that the character can go on with. -/
def Pending.Takes (p : Pending) (b : UInt8) : Prop := p.low ≤ b.toNat ∧ b.toNat ≤ p.high

theorem decodeFrom_takes {p : Pending} {b : UInt8} (h : p.Takes b) (rest : List UInt8) :
    decodeFrom onError (some p) (b :: rest)
      = (p.next b h.1).1 ++ decodeFrom onError (p.next b h.1).2 rest := by
  have hbyte : decodeByte onError (some p) b = p.next b h.1 := dif_pos h
  rw [decodeFrom_cons, hbyte]

theorem decodeFrom_last {p : Pending} (hafter : p.after = 0) {x : ℕ} (h : p.Takes (tailByte x))
    (rest : List UInt8) :
    decodeFrom onError (some p) (tailByte x :: rest)
      = Char.ofNat (p.bits * 64 + x % 64) :: decodeFrom onError none rest := by
  rw [decodeFrom_takes h, Pending.next]
  split
  · rw [p.bitsWith_tailByte]
    rfl
  · rename_i hmore
    rw [hafter] at hmore
    cases hmore

theorem decodeFrom_more {p : Pending} {n : ℕ} (hafter : p.after = n + 1) {x : ℕ}
    (h : p.Takes (tailByte x)) :
    ∃ q : Pending, (q.low = 0x80 ∧ q.high = 0xBF) ∧ q.after = n ∧ q.bits = p.bits * 64 + x % 64 ∧
      ∀ rest, decodeFrom onError (some p) (tailByte x :: rest) = decodeFrom onError (some q) rest := by
  have hnext : ∃ q : Pending, p.next (tailByte x) h.1 = ([], some q) ∧
      (q.low = 0x80 ∧ q.high = 0xBF) ∧ q.after = n ∧ q.bits = p.bitsWith (tailByte x) := by
    rw [Pending.next]
    split
    · rename_i hlast
      rw [hafter] at hlast
      cases hlast
    · rename_i m hmore
      exact ⟨_, rfl, ⟨rfl, rfl⟩, Nat.succ.inj (hmore.symm.trans hafter), rfl⟩
  obtain ⟨q, hq, hrange, hn, hbits⟩ := hnext
  refine ⟨q, hrange, hn, hbits.trans (p.bitsWith_tailByte x), fun rest => ?_⟩
  rw [decodeFrom_takes h, hq]
  rfl

/-- **The bytes of a character that is begun end it.** -/
theorem decodeFrom_tailBytes (n : ℕ) (p : Pending) (hafter : p.after = n) {v : ℕ}
    (h : p.Takes (tailByte (v / 64 ^ n))) (rest : List UInt8) :
    decodeFrom onError (some p) (tailBytes (n + 1) v ++ rest)
      = Char.ofNat (p.bits * 64 ^ (n + 1) + v % 64 ^ (n + 1)) :: decodeFrom onError none rest := by
  rw [tailBytes, List.cons_append]
  induction n generalizing p with
  | zero =>
    rw [decodeFrom_last hafter h, Nat.pow_zero, Nat.div_one, Nat.zero_add, Nat.pow_one]
    rfl
  | succ n ih =>
    obtain ⟨q, hrange, hq, hbits, hstep⟩ := @decodeFrom_more onError _ _ hafter _ h
    have htakes : q.Takes (tailByte (v / 64 ^ n)) := by
      rw [Pending.Takes, toNat_tailByte, hrange.1, hrange.2]
      omega
    have hvalue : (p.bits * 64 + v / 64 ^ (n + 1) % 64) * 64 ^ (n + 1) + v % 64 ^ (n + 1)
        = p.bits * 64 ^ (n + 1 + 1) + v % 64 ^ (n + 1 + 1) := by
      rw [@Nat.mod_pow_succ v 64 (n + 1), Nat.pow_succ 64 (n + 1), Nat.add_mul, Nat.mul_assoc,
        Nat.mul_comm 64, Nat.mul_comm (v / 64 ^ (n + 1) % 64), Nat.add_assoc,
        Nat.add_comm (v % 64 ^ (n + 1))]
    rw [hstep, tailBytes, List.cons_append, ih q hq htakes, hbits, hvalue]

theorem lead_two {b : UInt8} (h : 0xC2 ≤ b.toNat ∧ b.toNat ≤ 0xDF) :
    ∃ p, lead b = some p ∧ p.after = 0 ∧ p.bits = b.toNat - 0xC0 ∧ p.low = 0x80 ∧
      p.high = 0xBF := by
  rw [lead, dif_pos h]
  exact ⟨_, rfl, rfl, rfl, rfl, rfl⟩

theorem lead_three {b : UInt8} (h : 0xE0 ≤ b.toNat ∧ b.toNat ≤ 0xEF) :
    ∃ p, lead b = some p ∧ p.after = 1 ∧ p.bits = b.toNat - 0xE0 ∧
      p.low = (if b.toNat = 0xE0 then 0xA0 else 0x80) ∧
      p.high = if b.toNat = 0xED then 0x9F else 0xBF := by
  have hE0 : b = 0xE0 ↔ b.toNat = 0xE0 := UInt8.toNat_inj.symm
  have hED : b = 0xED ↔ b.toNat = 0xED := UInt8.toNat_inj.symm
  rw [lead, dif_neg (by omega)]
  by_cases hfirst : b.toNat = 0xE0
  · rw [if_pos (hE0.mpr hfirst), if_pos hfirst, hfirst]
    exact ⟨_, rfl, rfl, rfl, rfl, rfl⟩
  rw [if_neg (mt hE0.mp hfirst), if_neg hfirst]
  by_cases hsurrogate : b.toNat = 0xED
  · rw [if_pos (hED.mpr hsurrogate), if_pos hsurrogate, hsurrogate]
    exact ⟨_, rfl, rfl, rfl, rfl, rfl⟩
  rw [if_neg (mt hED.mp hsurrogate), if_neg hsurrogate, dif_pos (by omega)]
  exact ⟨_, rfl, rfl, rfl, rfl, rfl⟩

theorem lead_four {b : UInt8} (h : 0xF0 ≤ b.toNat ∧ b.toNat ≤ 0xF4) :
    ∃ p, lead b = some p ∧ p.after = 2 ∧ p.bits = b.toNat - 0xF0 ∧
      p.low = (if b.toNat = 0xF0 then 0x90 else 0x80) ∧
      p.high = if b.toNat = 0xF4 then 0x8F else 0xBF := by
  have hE0 : ¬b = 0xE0 := fun heq => by
    rw [heq] at h
    exact absurd h.1 (by decide)
  have hED : ¬b = 0xED := fun heq => by
    rw [heq] at h
    exact absurd h.1 (by decide)
  have hF0 : b = 0xF0 ↔ b.toNat = 0xF0 := UInt8.toNat_inj.symm
  have hF4 : b = 0xF4 ↔ b.toNat = 0xF4 := UInt8.toNat_inj.symm
  rw [lead, dif_neg (by omega), if_neg hE0, if_neg hED, dif_neg (by omega)]
  by_cases hfirst : b.toNat = 0xF0
  · rw [if_pos (hF0.mpr hfirst), if_pos hfirst, hfirst]
    exact ⟨_, rfl, rfl, rfl, rfl, rfl⟩
  rw [if_neg (mt hF0.mp hfirst), if_neg hfirst]
  by_cases hlast : b.toNat = 0xF4
  · rw [if_pos (hF4.mpr hlast), if_pos hlast, hlast]
    exact ⟨_, rfl, rfl, rfl, rfl, rfl⟩
  rw [if_neg (mt hF4.mp hlast), if_neg hlast, dif_pos (by omega)]
  exact ⟨_, rfl, rfl, rfl, rfl, rfl⟩

/-- **A longer character is the byte that begins it and those that end it.** -/
theorem exists_lead {c : Char} (h : 0x80 ≤ c.toNat) :
    ∃ (b : UInt8) (p : Pending), String.utf8EncodeChar c = b :: tailBytes (p.after + 1) c.toNat ∧
      0x80 ≤ b.toNat ∧ lead b = some p ∧ p.Takes (tailByte (c.toNat / 64 ^ p.after)) ∧
      p.bits * 64 ^ (p.after + 1) + c.toNat % 64 ^ (p.after + 1) = c.toNat := by
  have hvalid : c.toNat < 0xD800 ∨ 0xDFFF < c.toNat ∧ c.toNat < 0x110000 := c.valid
  have hone : ¬c.toNat ≤ 0x7f := by omega
  rw [String.utf8EncodeChar]
  change ∃ b p, (if c.toNat ≤ 0x7f then _ else if c.toNat ≤ 0x7ff then _ else
    if c.toNat ≤ 0xffff then _ else _) = _ ∧ _
  rw [if_neg hone]
  by_cases htwo : c.toNat ≤ 0x7ff
  · have hbyte : (UInt8.ofNat (c.toNat / 64 % 0x20 + 0xc0)).toNat = c.toNat / 64 + 0xc0 := by
      rw [UInt8.toNat_ofNat']
      omega
    obtain ⟨p, hlead, hafter, hbits, hlow, hhigh⟩ := lead_two
      (b := UInt8.ofNat (c.toNat / 64 % 0x20 + 0xc0)) (by omega)
    refine ⟨_, p, ?_, by omega, hlead, ?_, ?_⟩
    · rw [if_pos htwo, hafter]
      simp [tailBytes, tailByte]
    · rw [Pending.Takes, toNat_tailByte, hlow, hhigh]
      omega
    · rw [hafter, hbits, hbyte]
      omega
  rw [if_neg htwo]
  by_cases hthree : c.toNat ≤ 0xffff
  · have hbyte : (UInt8.ofNat (c.toNat / 4096 % 0x10 + 0xe0)).toNat = c.toNat / 4096 + 0xe0 := by
      rw [UInt8.toNat_ofNat']
      omega
    obtain ⟨p, hlead, hafter, hbits, hlow, hhigh⟩ := lead_three
      (b := UInt8.ofNat (c.toNat / 4096 % 0x10 + 0xe0)) (by omega)
    refine ⟨_, p, ?_, by omega, hlead, ?_, ?_⟩
    · rw [if_pos hthree, hafter]
      simp [tailBytes, tailByte]
    · rw [Pending.Takes, toNat_tailByte, hafter, hlow, hhigh, hbyte]
      split_ifs <;> omega
    · rw [hafter, hbits, hbyte]
      omega
  · have hbyte : (UInt8.ofNat (c.toNat / 262144 % 0x08 + 0xf0)).toNat
        = c.toNat / 262144 + 0xf0 := by
      rw [UInt8.toNat_ofNat']
      omega
    obtain ⟨p, hlead, hafter, hbits, hlow, hhigh⟩ := lead_four
      (b := UInt8.ofNat (c.toNat / 262144 % 0x08 + 0xf0)) (by omega)
    refine ⟨_, p, ?_, by omega, hlead, ?_, ?_⟩
    · rw [if_neg hthree, hafter]
      simp [tailBytes, tailByte]
    · rw [Pending.Takes, toNat_tailByte, hafter, hlow, hhigh, hbyte]
      split_ifs <;> omega
    · rw [hafter, hbits, hbyte]
      omega

theorem decodeFrom_encodeChar (c : Char) (rest : List UInt8) :
    decodeFrom onError none (String.utf8EncodeChar c ++ rest)
      = c :: decodeFrom onError none rest := by
  by_cases hascii : c.toNat < 0x80
  · have hbyte : (UInt8.ofNat c.toNat).toNat = c.toNat := by
      rw [UInt8.toNat_ofNat']
      omega
    have hsmall : UInt8.ofNat c.toNat < 0x80 := UInt8.lt_iff_toNat_lt.mpr (by rwa [hbyte])
    have hchar : String.utf8EncodeChar c = [UInt8.ofNat c.toNat] :=
      if_pos (Nat.le_of_lt_succ hascii)
    rw [hchar, List.singleton_append, decodeFrom_cons, decodeByte, startByte_ascii hsmall, hbyte,
      Char.ofNat_toNat]
    rfl
  · obtain ⟨b, p, hchar, hlarge, hlead, htakes, hvalue⟩ := exists_lead (Nat.le_of_not_lt hascii)
    have hstart : ¬b < 0x80 := fun hlt => absurd (UInt8.lt_iff_toNat_lt.mp hlt) (by
      exact Nat.not_lt.mpr hlarge)
    have hbegin : startByte onError b = ([], some p) := by
      rw [startByte, if_neg hstart, hlead]
    rw [hchar, List.cons_append, decodeFrom_cons, decodeByte, hbegin, List.nil_append,
      decodeFrom_tailBytes p.after p rfl htakes, hvalue, Char.ofNat_toNat]

/-- **What is encoded decodes as it was.** -/
theorem decode_encode (text : List Char) : decode onError (encode text) = text := by
  rw [decode]
  induction text with
  | nil => rfl
  | cons c text ih =>
    rw [encode, List.flatMap_cons, decodeFrom_encodeChar]
    exact congrArg (c :: ·) ih

theorem decodeStrict_encode (text : List Char) : decodeStrict (encode text) = some text := by
  rw [decodeStrict, decode_encode]
  exact if_pos rfl

end BareAnalysis.Utf8
