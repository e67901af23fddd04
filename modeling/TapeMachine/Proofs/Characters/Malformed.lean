import Mathlib.Order.Bounds.Basic
import TapeMachine.Proofs.Characters

/-!
# Bytes that are no character

At the front of an input there is a character or there is none.  If there is none, the bytes that stand
there are skipped as far as they could have been the start of a character, and the first one in any case.
The reading does not compare them with characters, though.  From each byte it learns only how many more
are owed and in which range the next one must lie.  That is enough, since this much says exactly which
bytes would complete those that are read to a character.

## Main definitions

* `Utf8.Incomplete` — bytes that are the start of a character but not all of it.
* `Utf8.Broken` — how many bytes are skipped where there is no character.
* `Utf8.Announces` — what a first byte says about the others.
* `Utf8.Follows` — bytes that pay what is owed.
* `Utf8.Expects` — what is owed says which bytes complete those that are read to a character.

## Main results

* `Utf8.exists_utf8EncodeChar_cons_iff` — what the first byte announces.
* `Utf8.Expects.follow_eq` — how many bytes the reading skips from the first one on.
* `Utf8.exists_first?_of_none` — what is skipped at the front of an input.
* `Utf8.first?_take_four` — no reading looks at more than four bytes.
* `CellWidth.decode?_eq_cases` — what a wide cell reads.
-/

namespace TapeMachine

namespace Utf8

/-! ### Starts of characters -/

/-- The bytes are the start of a character, and there is more of it. -/
def Incomplete (bytes : List UInt8) : Prop :=
  ∃ c : Char, bytes <+: String.utf8EncodeChar c ∧ bytes ≠ String.utf8EncodeChar c

/-- The lengths of the incomplete characters that an input starts with. -/
def incompleteLengths (bytes : List UInt8) : Set Nat :=
  {k | k ≤ bytes.length ∧ Incomplete (bytes.take k)}

/-- `Broken bytes k` says that `k` bytes are skipped if there is no character at the front of
`bytes`. -/
inductive Broken (bytes : List UInt8) : Nat → Prop
  /-- They are the longest incomplete character at the front. -/
  | cut {k : Nat} (hpos : 0 < k) (hgreatest : IsGreatest (incompleteLengths bytes) k) :
      Broken bytes k
  /-- No character starts with the first byte. -/
  | stray (hne : bytes ≠ []) (hnone : ∀ c, ¬ bytes.take 1 <+: String.utf8EncodeChar c) :
      Broken bytes 1

variable {bytes done tail : List UInt8} {byte : UInt8} {owed low high k : Nat}

/-- **How many bytes are skipped is settled.** -/
theorem Broken.unique {k' : Nat} (h : Broken bytes k) (h' : Broken bytes k') : k = k' := by
  have hone : ∀ {n}, 0 < n → IsGreatest (incompleteLengths bytes) n →
      ∃ c, bytes.take 1 <+: String.utf8EncodeChar c := by
    intro n hpos hgreatest
    obtain ⟨c, hstart, -⟩ := hgreatest.1.2
    exact ⟨c, (List.take_prefix_take_left hpos).trans hstart⟩
  cases h with
  | cut hpos hgreatest =>
    cases h' with
    | cut hpos' hgreatest' => exact hgreatest.unique hgreatest'
    | stray hne hnone =>
      obtain ⟨c, hc⟩ := hone hpos hgreatest
      exact absurd hc (hnone c)
  | stray hne hnone =>
    cases h' with
    | cut hpos' hgreatest' =>
      obtain ⟨c, hc⟩ := hone hpos' hgreatest'
      exact absurd hc (hnone c)
    | stray hne' hnone' => rfl

theorem Broken.ne_nil (h : Broken bytes k) : bytes ≠ [] := by
  cases h with
  | cut hpos hgreatest =>
    rintro rfl
    exact absurd hgreatest.1.1 (Nat.not_le.mpr hpos)
  | stray hne hnone => exact hne

theorem Broken.pos (h : Broken bytes k) : 0 < k := by
  cases h with
  | cut hpos hgreatest => exact hpos
  | stray hne hnone => exact Nat.one_pos

/-! ### What the first byte announces -/

/-- What a first byte announces, by the pieces that it is made of. -/
inductive Announces : Nat → Lead → Prop
  /-- It is a character by itself. -/
  | one {x : Nat} (hx : x < 128) : Announces x ⟨x, 0, 0x80, 0xbf⟩
  /-- One byte follows. -/
  | two {x : Nat} (hx : x < 32) (hlow : 2 ≤ x) : Announces (x + 0xc0) ⟨x, 1, 0x80, 0xbf⟩
  /-- Two bytes follow. -/
  | three {x : Nat} (hx : x < 16) : Announces (x + 0xe0)
      ⟨x, 2, if x = 0 then 0xa0 else 0x80, if x = 0xd then 0x9f else 0xbf⟩
  /-- Three bytes follow. -/
  | four {x : Nat} (hx : x < 5) : Announces (x + 0xf0)
      ⟨x, 3, if x = 0 then 0x90 else 0x80, if x = 4 then 0x8f else 0xbf⟩

theorem lead?_eq_some_iff {x : Nat} {lead : Lead} : lead? x = some lead ↔ Announces x lead := by
  constructor
  · intro h
    rcases Nat.lt_or_ge x 0x80 with hone | hone
    · rw [lead?_one hone] at h
      cases h
      exact .one hone
    rcases Nat.lt_or_ge x 0xc2 with hnone | htwo
    · rw [lead?, if_neg (by omega), if_pos hnone] at h
      cases h
    rcases Nat.lt_or_ge x 0xe0 with hlt | hthree
    · obtain ⟨y, rfl⟩ := Nat.exists_eq_add_of_le' (show 0xc0 ≤ x by omega)
      rw [lead?_two y (by omega) (by omega)] at h
      cases h
      exact .two (by omega) (by omega)
    rcases Nat.lt_or_ge x 0xf0 with hlt | hfour
    · obtain ⟨y, rfl⟩ := Nat.exists_eq_add_of_le' hthree
      rw [lead?_three y (by omega)] at h
      cases h
      exact .three (by omega)
    rcases Nat.lt_or_ge x 0xf5 with hlt | hnone
    · obtain ⟨y, rfl⟩ := Nat.exists_eq_add_of_le' hfour
      rw [lead?_four y (by omega)] at h
      cases h
      exact .four (by omega)
    · unfold lead? at h
      repeat rw [if_neg (by omega)] at h
      cases h
  · intro h
    cases h with
    | one hx => exact lead?_one hx
    | two hx hlow => exact lead?_two _ hx hlow
    | three hx => exact lead?_three _ hx
    | four hx => exact lead?_four _ hx

theorem owed_le_of_lead? {x : Nat} {lead : Lead} (h : lead? x = some lead) : lead.owed ≤ 3 := by
  cases lead?_eq_some_iff.mp h <;> dsimp only <;> omega

/-- The second byte is one that may follow, in a range that is not empty. -/
theorem Announces.bounds {x payload : Nat} (h : Announces x ⟨payload, owed, low, high⟩) :
    0x80 ≤ low ∧ low ≤ high ∧ high ≤ 0xbf := by
  cases h with
  | one hx => omega
  | two hx hlow => omega
  | three hx => split <;> split <;> omega
  | four hx => split <;> split <;> omega

/-- The bytes pay what is owed: there are `owed` of them, the first one lies between `low` and `high`,
and all others are any that may follow. -/
inductive Follows : Nat → Nat → Nat → List UInt8 → Prop
  /-- Nothing is owed. -/
  | done {low high : Nat} : Follows 0 low high []
  /-- The first byte lies in its range. -/
  | step {owed low high : Nat} {byte : UInt8} {tail : List UInt8} (hlow : low ≤ byte.toNat)
      (hhigh : byte.toNat ≤ high) (htail : Follows owed 0x80 0xbf tail) :
      Follows (owed + 1) low high (byte :: tail)

/-- What is owed can be paid. -/
theorem exists_follows (owed : Nat) {low high : Nat} (hle : low ≤ high) (hlt : high < 256) :
    ∃ tail, Follows owed low high tail := by
  induction owed generalizing low high with
  | zero => exact ⟨[], .done⟩
  | succ owed ih =>
    obtain ⟨tail, htail⟩ : ∃ tail, Follows owed 0x80 0xbf tail := ih (by decide) (by decide)
    have hbyte : (UInt8.ofNat low).toNat = low := UInt8.toNat_ofNat_of_lt' (Nat.lt_of_le_of_lt hle hlt)
    exact ⟨UInt8.ofNat low :: tail, .step (by omega) (by omega) htail⟩

/-- Six bits make a byte that may follow. -/
theorem Follows.trail {y : Nat} (hy : y < 64) (hlow : low ≤ y + 0x80) (hhigh : y + 0x80 ≤ high)
    (h : Follows owed 0x80 0xbf tail) :
    Follows (owed + 1) low high (UInt8.ofNat (y + 0x80) :: tail) := by
  have hbyte : (UInt8.ofNat (y + 0x80)).toNat = y + 0x80 :=
    UInt8.toNat_ofNat_of_lt' (Nat.lt_of_lt_of_le (Nat.add_lt_add_right hy _) (by decide))
  exact .step (by omega) (by omega) h

/-- A byte that may follow is made of six bits. -/
theorem Follows.exists_cons (h : Follows (owed + 1) low high tail) (hlow : 0x80 ≤ low)
    (hhigh : high ≤ 0xbf) : ∃ y rest, tail = UInt8.ofNat (y + 0x80) :: rest ∧ y < 64 ∧
      low ≤ y + 0x80 ∧ y + 0x80 ≤ high ∧ Follows owed 0x80 0xbf rest := by
  cases h with
  | @step _ _ _ byte rest hlow' hhigh' htail =>
    obtain ⟨y, hy⟩ := Nat.exists_eq_add_of_le' (hlow.trans hlow')
    have hbyte : byte = UInt8.ofNat (y + 0x80) := by
      rw [← hy]
      exact UInt8.ofNat_toNat.symm
    exact ⟨y, rest, by rw [hbyte], by omega, by omega, by omega, htail⟩

/-- The bytes behind the first one of a character pay what it announces. -/
theorem Spelled.exists_lead? {v : Nat} (h : Spelled v (byte :: tail)) :
    ∃ payload owed low high, lead? byte.toNat = some ⟨payload, owed, low, high⟩ ∧
      Follows owed low high tail := by
  have htoNat : ∀ {x}, x < 256 → (UInt8.ofNat x).toNat = x := fun hx => UInt8.toNat_ofNat_of_lt' hx
  cases h with
  | one hx =>
    rw [htoNat (by omega)]
    exact ⟨_, _, _, _, lead?_one hx, .done⟩
  | two hx hy hlow =>
    rw [htoNat (by omega)]
    exact ⟨_, _, _, _, lead?_two _ hx hlow, .trail hy (by omega) (by omega) .done⟩
  | three hx hy hz hlow hhigh =>
    rw [htoNat (by omega)]
    refine ⟨_, _, _, _, lead?_three _ hx, .trail hy ?_ ?_ (.trail hz (by omega) (by omega) .done)⟩
    · split <;> omega
    · split <;> omega
  | four hx hy hz hw hlow hhigh =>
    rw [htoNat (by omega)]
    refine ⟨_, _, _, _, lead?_four _ hx, .trail hy ?_ ?_
      (.trail hz (by omega) (by omega) (.trail hw (by omega) (by omega) .done))⟩
    · split <;> omega
    · split <;> omega

/-- A first byte and bytes that pay what it announces spell a value. -/
theorem Announces.exists_spelled {x payload : Nat} (h : Announces x ⟨payload, owed, low, high⟩)
    (htail : Follows owed low high tail) : ∃ v, Spelled v (UInt8.ofNat x :: tail) := by
  obtain ⟨hbelow, -, habove⟩ := h.bounds
  cases h with
  | one hx =>
    cases htail
    exact ⟨_, .one hx⟩
  | two hx hlow =>
    obtain ⟨y, _, rfl, hy, -, -, hrest⟩ := htail.exists_cons hbelow habove
    cases hrest
    exact ⟨_, .two hx hy hlow⟩
  | three hx =>
    obtain ⟨y, _, rfl, hy, hlow, hhigh, hrest⟩ := htail.exists_cons hbelow habove
    obtain ⟨z, _, rfl, hz, -, -, hrest⟩ := hrest.exists_cons (by omega) (by omega)
    cases hrest
    refine ⟨_, .three hx hy hz (fun h => ?_) fun h => ?_⟩
    · rw [if_pos h] at hlow; omega
    · rw [if_pos h] at hhigh; omega
  | four hx =>
    obtain ⟨y, _, rfl, hy, hlow, hhigh, hrest⟩ := htail.exists_cons hbelow habove
    obtain ⟨z, _, rfl, hz, -, -, hrest⟩ := hrest.exists_cons (by omega) (by omega)
    obtain ⟨w, _, rfl, hw, -, -, hrest⟩ := hrest.exists_cons (by omega) (by omega)
    cases hrest
    refine ⟨_, .four hx hy hz hw (fun h => ?_) fun h => ?_⟩
    · rw [if_pos h] at hlow; omega
    · rw [if_pos h] at hhigh; omega

/-- **What the first byte announces** is what completes it to a character. -/
theorem exists_utf8EncodeChar_cons_iff : (∃ c, String.utf8EncodeChar c = byte :: tail) ↔
    ∃ payload owed low high, lead? byte.toNat = some ⟨payload, owed, low, high⟩ ∧
      Follows owed low high tail := by
  constructor
  · rintro ⟨c, hc⟩
    have hspelled := spelled_utf8EncodeChar c
    rw [hc] at hspelled
    exact hspelled.exists_lead?
  · rintro ⟨payload, owed, low, high, hlead, htail⟩
    obtain ⟨v, hspelled⟩ := (lead?_eq_some_iff.mp hlead).exists_spelled htail
    rw [UInt8.ofNat_toNat] at hspelled
    exact hspelled.exists_char

/-! ### What is owed behind the first byte -/

/-- The bytes `done` are the start of a character, and what completes them to one is what is owed. -/
structure Expects (owed low high : Nat) (done : List UInt8) : Prop where
  /-- The bytes that complete them are those that pay what is owed. -/
  completes_iff : ∀ tail, (∃ c, String.utf8EncodeChar c = done ++ tail) ↔ Follows owed low high tail
  /-- The range of the next byte is not empty. -/
  low_le : low ≤ high
  /-- The range of the next byte is one of bytes. -/
  high_lt : high < 256

theorem expects_of_lead? {payload : Nat} (h : lead? byte.toNat = some ⟨payload, owed, low, high⟩) :
    Expects owed low high [byte] := by
  obtain ⟨-, hle, hlt⟩ := (lead?_eq_some_iff.mp h).bounds
  refine ⟨fun tail => ?_, hle, Nat.lt_of_le_of_lt hlt (by decide)⟩
  rw [List.singleton_append, exists_utf8EncodeChar_cons_iff]
  constructor
  · rintro ⟨_, _, _, _, hlead, htail⟩
    rw [h] at hlead
    cases hlead
    exact htail
  · intro htail
    exact ⟨payload, owed, low, high, h, htail⟩

namespace Expects

/-- If nothing is owed, the bytes are a character. -/
theorem exists_char (h : Expects 0 low high done) : ∃ c, String.utf8EncodeChar c = done := by
  obtain ⟨c, hc⟩ := (h.completes_iff []).mpr .done
  rw [List.append_nil] at hc
  exact ⟨c, hc⟩

/-- As long as something is owed, the character is incomplete. -/
theorem incomplete (h : Expects (owed + 1) low high done) : Incomplete done := by
  obtain ⟨tail, htail⟩ := exists_follows (owed + 1) h.low_le h.high_lt
  obtain ⟨c, hc⟩ := (h.completes_iff tail).mpr htail
  refine ⟨c, ⟨tail, hc.symm⟩, fun heq => ?_⟩
  have hnil : tail = [] := by
    rw [← heq] at hc
    exact List.self_eq_append_right.mp hc
  rw [hnil] at htail
  cases htail

/-- A byte in the range pays for one. -/
theorem next (h : Expects (owed + 1) low high done) (hlow : low ≤ byte.toNat)
    (hhigh : byte.toNat ≤ high) : Expects owed 0x80 0xbf (done ++ [byte]) := by
  refine ⟨fun tail => ?_, by decide, by decide⟩
  rw [List.append_assoc, List.singleton_append, h.completes_iff]
  constructor
  · intro hfollows
    cases hfollows with
    | step _ _ htail => exact htail
  · intro htail
    exact .step hlow hhigh htail

/-- A byte outside the range belongs to no character. -/
theorem range_of_isPrefix (h : Expects (owed + 1) low high done) {c : Char}
    (hstart : done ++ [byte] <+: String.utf8EncodeChar c) : low ≤ byte.toNat ∧ byte.toNat ≤ high := by
  obtain ⟨tail, hc⟩ := hstart
  rw [List.append_assoc, List.singleton_append] at hc
  cases (h.completes_iff (byte :: tail)).mp ⟨c, hc.symm⟩ with
  | step hlow hhigh _ => exact ⟨hlow, hhigh⟩

/-- Where the bytes end or go on with one that is outside the range, the incomplete character is as long
as it can be. -/
theorem isGreatest_length (h : Expects (owed + 1) low high done)
    (hstop : ∀ byte ∈ bytes.head?, ¬ (low ≤ byte.toNat ∧ byte.toNat ≤ high)) :
    IsGreatest (incompleteLengths (done ++ bytes)) done.length := by
  refine ⟨⟨(List.prefix_append _ _).length_le, ?_⟩, fun n hn => ?_⟩
  · rw [List.take_left]
    exact h.incomplete
  · obtain ⟨hle, c, hstart, -⟩ := hn
    cases bytes with
    | nil =>
      rw [List.append_nil] at hle
      exact hle
    | cons byte bytes =>
      -- a longer one would have this byte in it
      by_contra hlonger
      have hbyte : done ++ [byte] <+: (done ++ byte :: bytes).take n := by
        rw [List.prefix_take_iff, List.append_cons done byte bytes, List.length_append,
          List.length_singleton]
        exact ⟨List.prefix_append _ _, by omega⟩
      exact hstop byte rfl (h.range_of_isPrefix (hbyte.trans hstart))

/-- Where no character comes about, something stays owed. -/
theorem exists_eq_succ (h : Expects owed low high done)
    (hnone : ∀ c, ¬ String.utf8EncodeChar c <+: done ++ bytes) : ∃ n, owed = n + 1 := by
  cases owed with
  | zero =>
    obtain ⟨c, rfl⟩ := h.exists_char
    exact absurd (List.prefix_append _ _) (hnone c)
  | succ n => exact ⟨n, rfl⟩

/-- **Where no character comes about, the longest incomplete one is skipped.** -/
theorem follow_eq (h : Expects owed low high done)
    (hnone : ∀ c, ¬ String.utf8EncodeChar c <+: done ++ bytes) {sofar : Decoded}
    (hused : sofar.used = done.length) :
    ∃ k, follow owed low high sofar bytes = ⟨replacement.toNat, k⟩ ∧
      IsGreatest (incompleteLengths (done ++ bytes)) k := by
  induction bytes generalizing owed low high done sofar with
  | nil =>
    obtain ⟨owed, rfl⟩ := h.exists_eq_succ hnone
    exact ⟨done.length, by rw [follow, hused], h.isGreatest_length nofun⟩
  | cons byte bytes ih =>
    obtain ⟨owed, rfl⟩ := h.exists_eq_succ hnone
    by_cases hrange : low ≤ byte.toNat ∧ byte.toNat ≤ high
    · rw [follow, if_pos hrange, List.append_cons]
      rw [List.append_cons] at hnone
      have hused' : sofar.used + 1 = (done ++ [byte]).length := by
        rw [List.length_append, hused, List.length_singleton]
      exact ih (h.next hrange.1 hrange.2) hnone hused'
    · rw [follow, if_neg hrange, hused]
      refine ⟨done.length, rfl, h.isGreatest_length fun byte' hbyte' => ?_⟩
      cases hbyte'
      exact hrange

end Expects

/-! ### The front of an input -/

/-- **Where there is no character at the front, the bytes that stand there are skipped.** -/
theorem exists_first?_of_none (hne : bytes ≠ [])
    (hnone : ∀ c, ¬ String.utf8EncodeChar c <+: bytes) :
    ∃ k, first? bytes = some ⟨replacement.toNat, k⟩ ∧ Broken bytes k := by
  obtain ⟨byte, rest, rfl⟩ := List.exists_cons_of_ne_nil hne
  cases hlead : lead? byte.toNat with
  | none =>
    refine ⟨1, by rw [first?, first, hlead], .stray hne fun c hc => ?_⟩
    obtain ⟨tail, htail⟩ := hc
    obtain ⟨_, _, _, _, hsome, -⟩ := exists_utf8EncodeChar_cons_iff.mp ⟨c, htail.symm⟩
    rw [hlead] at hsome
    cases hsome
  | some lead =>
    have hused : (⟨lead.payload, 1⟩ : Decoded).used = [byte].length := rfl
    obtain ⟨k, hfollow, hgreatest⟩ := (expects_of_lead? hlead).follow_eq hnone hused
    have hfirst : first? (byte :: rest) = some ⟨replacement.toNat, k⟩ := by
      rw [first?, first, hlead]
      exact congrArg some hfollow
    exact ⟨k, hfirst, .cut (used_pos_of_first? hfirst) hgreatest⟩

theorem follow_take {n : Nat} {sofar : Decoded} (h : owed ≤ n) :
    follow owed low high sofar (bytes.take n) = follow owed low high sofar bytes := by
  induction bytes generalizing owed low high sofar n with
  | nil => rw [List.take_nil]
  | cons byte bytes ih =>
    cases owed with
    | zero => rw [follow, follow]
    | succ owed =>
      obtain ⟨n, rfl⟩ := Nat.exists_eq_add_of_le' (Nat.lt_of_lt_of_le (Nat.succ_pos owed) h)
      rw [List.take_succ_cons, follow, follow, ih (Nat.le_of_succ_le_succ h)]

/-- **No reading looks at more than four bytes.** -/
theorem first?_take_four (bytes : List UInt8) : first? (bytes.take 4) = first? bytes := by
  cases bytes with
  | nil => rfl
  | cons byte rest =>
    rw [List.take_succ_cons, first?, first?, first, first]
    cases hlead : lead? byte.toNat with
    | none => rfl
    | some lead =>
      have howed := owed_le_of_lead? hlead
      exact congrArg some (follow_take howed)

end Utf8

namespace CellWidth

theorem decode?_eq_first? {width : CellWidth} (hwide : width ≠ .bits8) (input : List UInt8) :
    width.decode? input = Utf8.first? input := by
  rw [decode?_of_ne_bits8 hwide, Utf8.first?_take_four]

/-- **What is no character is read as one replacement character.** -/
theorem decodeAll_of_broken {width : CellWidth} (hwide : width ≠ .bits8)
    {invalid rest : List UInt8}
    (hnone : ∀ c, ¬ String.utf8EncodeChar c <+: invalid ++ rest)
    (hbroken : Utf8.Broken (invalid ++ rest) invalid.length) :
    width.decodeAll (invalid ++ rest) =
      ⟨Utf8.replacement.toNat, invalid.length⟩ :: width.decodeAll rest := by
  obtain ⟨k, hfirst, hk⟩ := Utf8.exists_first?_of_none hbroken.ne_nil hnone
  rw [hk.unique hbroken, ← decode?_eq_first? hwide] at hfirst
  rw [decodeAll_eq_cons hfirst, List.drop_left]

/-- **What a wide cell reads.**  There is nothing to read exactly at the end of the input.  If the input
starts with a character, there is only one that it starts with, its bytes are those that it is written
as, and the cell reads this character.  Otherwise it reads the replacement character, and skips the
longest part of the input that is the start of a character, or one byte if no character starts with
that. -/
theorem decode?_eq_cases {width : CellWidth} (hwide : width ≠ .bits8) (input : List UInt8) :
    (width.decode? input = none ↔ input = []) ∧
    (∀ c, String.utf8EncodeChar c <+: input →
      width.decode? input = some ⟨c.toNat, (String.utf8EncodeChar c).length⟩ ∧
      String.utf8EncodeChar c = CellWidth.bits32.encode c.toNat ∧
      ∀ c', String.utf8EncodeChar c' <+: input → c' = c) ∧
    (input ≠ [] → (∀ c, ¬ String.utf8EncodeChar c <+: input) →
      ∃ k, width.decode? input = some ⟨0xfffd, k⟩ ∧ Utf8.Broken input k) := by
  refine ⟨decode?_eq_none_iff, fun c hc => ⟨?_, ?_, fun c' hc' => ?_⟩, fun hne hnone => ?_⟩
  · obtain ⟨rest, rfl⟩ := hc
    exact decode?_utf8EncodeChar_append hwide c rest
  · exact (encode_toNat (by decide) c).symm
  · exact Utf8.eq_of_isPrefix hc' hc
  · rw [decode?_eq_first? hwide]
    exact Utf8.exists_first?_of_none hne hnone

/-- Half a character, and then one that is complete. -/
theorem decode?_eq_cases_of_truncated :
    (CellWidth.bits16 ≠ .bits8 ∧ [0xe2, 0x82, 0x41] ≠ ([] : List UInt8) ∧
      ∀ c, ¬ String.utf8EncodeChar c <+: [0xe2, 0x82, 0x41]) ∧
    CellWidth.bits16.decode? [0xe2, 0x82, 0x41] = some ⟨0xfffd, 2⟩ ∧
      Utf8.Broken [0xe2, 0x82, 0x41] 2 := by
  have hwide : CellWidth.bits16 ≠ .bits8 := by decide
  have hread : CellWidth.bits16.decode? [0xe2, 0x82, 0x41] = some ⟨0xfffd, 2⟩ := by decide
  obtain ⟨-, hsome, hbroken⟩ := decode?_eq_cases hwide [0xe2, 0x82, 0x41]
  have hnone : ∀ c, ¬ String.utf8EncodeChar c <+: [0xe2, 0x82, 0x41] := by
    intro c hc
    -- it would be read as the replacement character, which has three bytes
    obtain ⟨hdecode, -, -⟩ := hsome c hc
    rw [hread, Option.some.injEq, Decoded.mk.injEq] at hdecode
    have hchar : c = Utf8.replacement := Char.toNat_inj.mp hdecode.1.symm
    rw [hchar] at hdecode
    exact absurd hdecode.2 (by decide)
  obtain ⟨k, hk, hskipped⟩ := hbroken (by decide) hnone
  rw [hread, Option.some.injEq, Decoded.mk.injEq] at hk
  rw [← hk.2] at hskipped
  exact ⟨⟨hwide, by decide, hnone⟩, hread, hskipped⟩

end CellWidth

end TapeMachine
