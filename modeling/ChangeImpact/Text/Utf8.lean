/-!
# Text.Utf8

Reading bytes as text.

* `decode?`     — the text, when all bytes are well formed.
* `decodeLossy` — the text of the well formed stretches; a malformed byte is left out together
  with the continuation bytes that belong to it.
* `firstFault?` — where the first malformed stretch lies and what is wrong with it.
-/

namespace ChangeImpact.Text.Utf8

def decode? (bytes : ByteArray) : Option String := String.fromUTF8? bytes

theorem decode?_toUTF8 (s : String) : decode? s.toUTF8 = some s := by
  have hvalid : s.toUTF8.IsValidUTF8 := s.isValidUTF8
  rw [decode?, String.fromUTF8?, dif_pos hvalid]
  rfl

/-- The number of continuation bytes after a lead byte, the bounds of the first of them, and the
bits that the lead byte contributes. Lead bytes of overlong forms, of surrogates and of values
past U+10FFFF have narrower bounds or are no lead bytes at all. -/
def lead? (b : UInt8) : Option (Nat × UInt8 × UInt8 × Nat) :=
  if 0xc2 ≤ b && b ≤ 0xdf then some (1, 0x80, 0xbf, (b &&& 0x1f).toNat)
  else if b == 0xe0 then some (2, 0xa0, 0xbf, 0)
  else if b == 0xed then some (2, 0x80, 0x9f, 0xd)
  else if 0xe1 ≤ b && b ≤ 0xef then some (2, 0x80, 0xbf, (b &&& 0xf).toNat)
  else if b == 0xf0 then some (3, 0x90, 0xbf, 0)
  else if 0xf1 ≤ b && b ≤ 0xf3 then some (3, 0x80, 0xbf, (b &&& 0x7).toNat)
  else if b == 0xf4 then some (3, 0x80, 0x8f, 4)
  else none

/-- A character that has begun: how many bytes are missing, the bounds of the next one, and the
value so far. -/
structure Pending where
  missing : Nat
  lo : UInt8
  hi : UInt8
  value : Nat

/-- Takes up a byte outside of any character. -/
def start (b : UInt8) : Option Char × Option Pending :=
  if b < 0x80 then (some (Char.ofNat b.toNat), none)
  else
    match lead? b with
    | some (missing, lo, hi, value) => (none, some ⟨missing, lo, hi, value⟩)
    | none => (none, none)

/-- A byte out of bounds gives up the character that has begun and is looked at afresh. -/
def lossy : Option Pending → List UInt8 → List Char
  | _, [] => []
  | none, b :: bs =>
    match start b with
    | (some c, pending) => c :: lossy pending bs
    | (none, pending) => lossy pending bs
  | some p, b :: bs =>
    if p.lo ≤ b && b ≤ p.hi then
      let value := p.value * 64 + (b &&& 0x3f).toNat
      if p.missing ≤ 1 then Char.ofNat value :: lossy none bs
      else lossy (some ⟨p.missing - 1, 0x80, 0xbf, value⟩) bs
    else
      match start b with
      | (some c, pending) => c :: lossy pending bs
      | (none, pending) => lossy pending bs

inductive FaultKind where
  | badStart
  | badContinuation
  | unfinished
  deriving DecidableEq, Repr

/-- A malformed stretch: its first byte, its position, its length. -/
structure Malformed where
  byte : UInt8
  position : Nat
  length : Nat
  kind : FaultKind
  deriving DecidableEq, Repr

/-- Looks for a fault from `position` on; the second argument is the character that has begun, with
the position and the byte it begins with. -/
def faultFrom (position : Nat) : Option (Pending × Nat × UInt8) → List UInt8 → Option Malformed
  | none, [] => none
  | some (_, first, byte), [] => some ⟨byte, first, position - first, .unfinished⟩
  | none, b :: bs =>
    match start b with
    | (_, some p) => faultFrom (position + 1) (some (p, position, b)) bs
    | (some _, none) => faultFrom (position + 1) none bs
    | (none, none) => some ⟨b, position, 1, .badStart⟩
  | some (p, first, byte), b :: bs =>
    if p.lo ≤ b && b ≤ p.hi then
      if p.missing ≤ 1 then faultFrom (position + 1) none bs
      else faultFrom (position + 1) (some (⟨p.missing - 1, 0x80, 0xbf, 0⟩, first, byte)) bs
    else some ⟨byte, first, position - first, .badContinuation⟩

def firstFault? (bytes : ByteArray) : Option Malformed := faultFrom 0 none bytes.toList

/-- Well formed bytes are taken as they are. -/
def decodeLossy (bytes : ByteArray) : String :=
  match decode? bytes with
  | some s => s
  | none => .ofList (lossy none bytes.toList)

end ChangeImpact.Text.Utf8
