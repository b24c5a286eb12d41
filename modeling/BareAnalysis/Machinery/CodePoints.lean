import BareAnalysis.Machinery.Utf8

/-!
# Machinery/CodePoints — texts that may hold lone surrogates

    62 ff 63   ──surrogateescape──▸   b  U+DCFF  c   ──encode──▸   UnicodeEncodeError

A file name is bytes, and what is no UTF-8 of it is carried as lone surrogates.  Strict encoding
refuses them: a text is `Encodable` when it holds none.
-/

namespace BareAnalysis

/-- A text as its code points. -/
abbrev CodePoints := List ℕ

namespace CodePoints

/-- The code points of a text without surrogates. -/
def ofText (text : String) : CodePoints := text.toList.map Char.toNat

/-- A code point that stands for no character on its own. -/
def isSurrogate (c : ℕ) : Bool := decide (0xd800 ≤ c ∧ c ≤ 0xdfff)

/-- A text that has an encoding. -/
def Encodable (text : CodePoints) : Prop := ∀ c ∈ text, isSurrogate c = false

instance (text : CodePoints) : Decidable (Encodable text) :=
  inferInstanceAs (Decidable (∀ c ∈ text, isSurrogate c = false))

theorem encodable_append {s t : CodePoints} : Encodable (s ++ t) ↔ Encodable s ∧ Encodable t := by
  simp only [Encodable, List.mem_append, or_imp, forall_and]

theorem encodable_ofText (text : String) : Encodable (ofText text) := fun c hc => by
  obtain ⟨char, -, rfl⟩ := List.mem_map.mp hc
  have hvalid := char.valid
  refine decide_eq_false fun hsurrogate => ?_
  have : char.toNat < 0xd800 ∨ 0xdfff < char.toNat ∧ char.toNat < 0x110000 := hvalid
  omega

/-- `UnicodeEncodeError`, with the position of the first code point that is refused. -/
structure EncodeError where
  position : ℕ
  deriving DecidableEq, Repr

/-- `text.encode()`. -/
def encode (text : CodePoints) : Except EncodeError (List UInt8) :=
  match text.findIdx? isSurrogate with
  | some position => .error ⟨position⟩
  | none => .ok (Utf8.encode (text.map Char.ofNat))

theorem encode_eq_ok {text : CodePoints} (h : Encodable text) :
    encode text = .ok (Utf8.encode (text.map Char.ofNat)) := by
  rw [encode, List.findIdx?_eq_none_iff.mpr h]

/-! ## `surrogateescape` -/

/-- A byte that belongs to no character. -/
def escaped (b : UInt8) : ℕ := 0xdc00 + b.toNat

/-- A character that is begun, with the bytes read of it. -/
structure Begun where
  pending : Utf8.Pending
  raw : List UInt8

/-- A byte between characters. -/
def startByte (b : UInt8) : CodePoints × Option Begun :=
  if b < 0x80 then ([b.toNat], none)
  else
    match Utf8.lead b with
    | some pending => ([], some ⟨pending, [b]⟩)
    | none => ([escaped b], none)

/-- One byte: the code points it settles, and the character it leaves begun. -/
def decodeByte : Option Begun → UInt8 → CodePoints × Option Begun
  | none, b => startByte b
  | some begun, b =>
    if h : begun.pending.low ≤ b.toNat ∧ b.toNat ≤ begun.pending.high then
      let next := begun.pending.next b h.1
      (next.1.map Char.toNat, next.2.map fun pending => ⟨pending, begun.raw ++ [b]⟩)
    else (begun.raw.map escaped ++ (startByte b).1, (startByte b).2)

/-- The decoder, inside a character or between two. -/
def decodeFrom : Option Begun → List UInt8 → CodePoints
  | none, [] => []
  | some begun, [] => begun.raw.map escaped
  | state, b :: rest => (decodeByte state b).1 ++ decodeFrom (decodeByte state b).2 rest

/-- `data.decode("utf-8", "surrogateescape")`. -/
def decodeEscaping (data : List UInt8) : CodePoints := decodeFrom none data

example : decodeEscaping [0x62, 0xff, 0xe2, 0x82, 0xac, 0xe2, 0x82]
    = [0x62, 0xdcff, 0x20ac, 0xdce2, 0xdc82] := by decide

/-- `text.split(sep)[-1]`: `skip` code points of a separator are still to be passed over, and the
piece so far is held backwards. -/
def lastPiece (sep : CodePoints) : CodePoints → ℕ → CodePoints → CodePoints
  | [], _, piece => piece.reverse
  | _ :: text, skip + 1, piece => lastPiece sep text skip piece
  | c :: text, 0, piece =>
    if sep.isPrefixOf (c :: text) then lastPiece sep text (sep.length - 1) []
    else lastPiece sep text 0 (c :: piece)

/-! ## Paths -/

/-- The components of a path. -/
abbrev Parts := List CodePoints

/-- `path.as_posix()` of a relative path. -/
def asPosix (parts : Parts) : CodePoints :=
  if parts = [] then ofText "." else (ofText "/").intercalate parts

/-- The components pathlib makes of a text: empty ones and `.` are dropped. -/
def partsOf (text : CodePoints) : Parts :=
  (text.splitOn 0x2f).filter fun part => part ≠ [] ∧ part ≠ ofText "."

/-- `path.resolve()` without links: a `..` takes its parent away. -/
def resolve (parts : Parts) : Parts :=
  parts.foldl (fun done part => if part = ofText ".." then done.dropLast else done ++ [part]) []

/-- `path.relative_to(base)`. -/
def relativeTo? (parts base : Parts) : Option Parts :=
  if base.isPrefixOf parts then some (parts.drop base.length) else none

theorem relativeTo?_eq_some {parts base below : Parts} (h : relativeTo? parts base = some below) :
    below = parts.drop base.length := by
  rw [relativeTo?] at h
  by_cases hpre : base.isPrefixOf parts = true
  · rw [if_pos hpre] at h
    exact (Option.some.inj h).symm
  · rw [if_neg hpre] at h
    cases h

end CodePoints

end BareAnalysis
