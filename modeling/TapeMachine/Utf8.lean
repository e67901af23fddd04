/-!
# UTF-8

Values are written as UTF-8 and read back one character at a time.  Reading never fails on bytes that
are no UTF-8: what cannot be a character reads as the replacement character U+FFFD, and covers as many
bytes as could still have been the start of one, but at least one byte.

The first byte of a character tells how many bytes follow it and, where some followers would spell a
character in more bytes than it needs, a surrogate, or a value above U+10FFFF, which range the second
byte must lie in.

## Main definitions

* `Utf8.encode` — the bytes of a value, the replacement character standing for what is no scalar value.
* `Utf8.lead?` — what the first byte of a character announces.
* `Utf8.first?` — the value at the front of a byte string and the number of bytes it covers.

## Main results

* `Utf8.first?_eq_none_iff`, `Utf8.used_pos_of_first?` — reading fails only at the end, and moves on
  otherwise.
-/

namespace TapeMachine

/-- A value read off the front of a byte string. -/
structure Decoded where
  /-- The value. -/
  value : Nat
  /-- The number of bytes it covers. -/
  used : Nat
  deriving DecidableEq, Repr, Inhabited

namespace Utf8

/-- The replacement character, which stands for whatever is no character. -/
def replacement : Char := '\uFFFD'

/-- The character of a code point, and the replacement character if there is none. -/
def scalar (value : Nat) : Char :=
  if value.isValidChar then Char.ofNat value else replacement

/-- The bytes that a value is written as. -/
def encode (value : Nat) : List UInt8 :=
  String.utf8EncodeChar (scalar value)

/-- What the first byte of a character announces. -/
structure Lead where
  /-- The leading bits of the value. -/
  payload : Nat
  /-- The number of bytes that follow. -/
  owed : Nat
  /-- The least byte that may follow directly. -/
  low : Nat
  /-- The greatest byte that may follow directly. -/
  high : Nat
  deriving DecidableEq, Repr

/-- What a byte announces as the first byte of a character; `none` if no character starts with it. -/
def lead? (byte : Nat) : Option Lead :=
  if byte ≤ 0x7f then some ⟨byte, 0, 0x80, 0xbf⟩
  else if byte < 0xc2 then none
  else if byte ≤ 0xdf then some ⟨byte % 32, 1, 0x80, 0xbf⟩
  else if byte = 0xe0 then some ⟨0, 2, 0xa0, 0xbf⟩
  else if byte = 0xed then some ⟨0xd, 2, 0x80, 0x9f⟩
  else if byte ≤ 0xef then some ⟨byte % 16, 2, 0x80, 0xbf⟩
  else if byte = 0xf0 then some ⟨0, 3, 0x90, 0xbf⟩
  else if byte ≤ 0xf3 then some ⟨byte % 8, 3, 0x80, 0xbf⟩
  else if byte = 0xf4 then some ⟨4, 3, 0x80, 0x8f⟩
  else none

/-- Reads the `owed` bytes that are still missing from a character, the next of them between `low`
and `high`.  The first one that does not fit ends the character before it is one. -/
def follow : Nat → Nat → Nat → Decoded → List UInt8 → Decoded
  | 0, _, _, sofar, _ => sofar
  | _ + 1, _, _, sofar, [] => ⟨replacement.toNat, sofar.used⟩
  | owed + 1, low, high, sofar, byte :: rest =>
    if low ≤ byte.toNat ∧ byte.toNat ≤ high then
      follow owed 0x80 0xbf ⟨64 * sofar.value + byte.toNat % 64, sofar.used + 1⟩ rest
    else ⟨replacement.toNat, sofar.used⟩

/-- The value that starts with a byte, the other bytes following it. -/
def first (byte : UInt8) (rest : List UInt8) : Decoded :=
  match lead? byte.toNat with
  | none => ⟨replacement.toNat, 1⟩
  | some lead => follow lead.owed lead.low lead.high ⟨lead.payload, 1⟩ rest

/-- The value at the front of a byte string; `none` if the string is empty. -/
def first? : List UInt8 → Option Decoded
  | [] => none
  | byte :: rest => some (first byte rest)

@[simp] theorem first?_eq_none_iff {bytes : List UInt8} : first? bytes = none ↔ bytes = [] := by
  cases bytes <;> simp [first?]

/-- Reading on never gives bytes back. -/
theorem used_le_follow (owed low high : Nat) (sofar : Decoded) (bytes : List UInt8) :
    sofar.used ≤ (follow owed low high sofar bytes).used := by
  induction bytes generalizing owed low high sofar with
  | nil => cases owed <;> exact Nat.le_refl _
  | cons byte rest ih =>
    cases owed with
    | zero => exact Nat.le_refl _
    | succ owed =>
      unfold follow
      split
      · have h := ih owed 0x80 0xbf ⟨64 * sofar.value + byte.toNat % 64, sofar.used + 1⟩
        exact Nat.le_trans (Nat.le_succ _) h
      · exact Nat.le_refl _

/-- Every value covers at least one byte. -/
theorem used_pos_of_first? {bytes : List UInt8} {decoded : Decoded} (h : first? bytes = some decoded) :
    0 < decoded.used := by
  cases bytes with
  | nil => cases h
  | cons byte rest =>
    cases h
    unfold first
    split
    · exact Nat.one_pos
    · exact used_le_follow _ _ _ ⟨_, 1⟩ _

end Utf8

end TapeMachine
