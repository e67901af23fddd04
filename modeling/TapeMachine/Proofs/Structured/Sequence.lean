import TapeMachine.Proofs.Decoding
import TapeMachine.Proofs.Structured.Simulation

/-!
# One program after another

Two accepted programs can be written one after the other.  The result runs like both in turn, the
second on the tape and the input that the first one left.

Blocks make this a matter of the store alone.  No position is shifted, and no loop of the first
program can reach into the second.  What is left to see is that a run does not look at what was read
and written before it.

## Main definitions

* `Source.append` — the lines of one program and then those of another.
* `Store.behind` — a store behind some input and some output.

## Main results

* `Block.runs_behind_iff` — a run does not look at what was read and written before it.
* `Block.Runs.unread_eq_drop` — what is not read yet is the input without what is read.
* `Source.append_yields_iff` — one program after another.
-/

namespace TapeMachine

/-! ### What was read and written before -/

/-- The store behind `consumed` more bytes of input and behind some output. -/
def Store.behind (s : Store) (consumed : Nat) (output : List UInt8) : Store :=
  { s with consumed := consumed + s.consumed, output := output ++ s.output }

theorem Store.perform_behind (s : Store) (consumed : Nat) (output : List UInt8) (op : Operation) :
    (s.behind consumed output).perform op = (s.perform op).behind consumed output := by
  cases op with
  | input =>
    rw [perform, perform]
    cases hdecode : s.tape.width.decode? s.unread with
    | none => simp [behind, hdecode]
    | some decoded => simp [behind, hdecode, Nat.add_assoc]
  | output => simp [perform, behind, cell]
  | _ => rfl

namespace Block

/-- **A run does not look at what was read and written before it.** -/
theorem runs_behind_iff {block : Block} {s t : Store} {count consumed : Nat} {output : List UInt8} :
    block.Runs (s.behind consumed output) t count ↔
      ∃ s', t = s'.behind consumed output ∧ block.Runs s s' count :=
  runs_image_iff (P := fun _ => True) (f := fun s => s.behind consumed output)
    (fun {_} _ => Iff.rfl) (fun {s} _ op => ⟨trivial, s.perform_behind consumed output op⟩) trivial

/-- **What is not read yet is the input without what is read**, which is never more than the input. -/
theorem Runs.unread_eq_drop {block : Block} {tape : Tape} {input : List UInt8} {s : Store}
    {count : Nat} (h : block.Runs (.start tape input) s count) :
    s.unread = input.drop s.consumed ∧ s.consumed ≤ input.length := by
  refine Runs.invariant (P := fun s => s.unread = input.drop s.consumed ∧ s.consumed ≤ input.length)
    ?_ ⟨rfl, Nat.zero_le _⟩ h
  rintro s ⟨hunread, hle⟩ op
  cases op with
  | input =>
    rw [Store.perform]
    cases hdecode : s.tape.width.decode? s.unread with
    | none => exact ⟨hunread, hle⟩
    | some decoded =>
      have hused := CellWidth.used_le_of_decode? hdecode
      rw [hunread, List.length_drop] at hused
      refine ⟨?_, ?_⟩
      · simp only [hunread, List.drop_drop]
      · simp only
        omega
  | _ => exact ⟨hunread, hle⟩

theorem SpeltBy.append {block after : Block} {flat flat' : List Char} (h : block.SpeltBy flat)
    (h' : after.SpeltBy flat') : (block.append after).SpeltBy (flat ++ flat') := by
  rw [SpeltBy] at h h' ⊢
  rw [List.filterMap_append, h, h', symbols_append]

end Block

namespace Source

/-- The lines of one program, and then those of another. -/
def append (first second : Source) : Source :=
  ⟨first.lines ++ second.lines⟩

instance : Append Source := ⟨append⟩

@[simp] theorem lines_append (first second : Source) :
    (first ++ second).lines = first.lines ++ second.lines := rfl

@[simp] theorem chars_append (first second : Source) :
    (first ++ second).chars = first.chars ++ second.chars := by
  rw [chars, lines_append, List.flatten_append, chars, chars]

/-- **One program after another.**  The lines of two accepted programs make up an accepted program.
It comes to an end exactly when the first program does, and the second does from the tape that is left
and on the input that is left.  Then it leaves the tape of the second run, and has the output, the
instructions and the input bytes of both. -/
theorem append_yields_iff {first second : Source} (hfirst : first.syntaxError? = none)
    (hsecond : second.syntaxError? = none) :
    (first ++ second).syntaxError? = none ∧
      ∀ tape input result, (first ++ second).Yields tape input result ↔
        ∃ result₁ result₂, first.Yields tape input result₁ ∧
          result₁.inputConsumed ≤ input.length ∧
          second.Yields result₁.tape (input.drop result₁.inputConsumed) result₂ ∧
          result = ⟨result₁.output ++ result₂.output, result₂.tape,
            result₁.instructions + result₂.instructions,
            result₁.inputConsumed + result₂.inputConsumed⟩ := by
  obtain ⟨block₁, hblock₁⟩ := exists_block hfirst
  obtain ⟨block₂, hblock₂⟩ := exists_block hsecond
  have hblock := hblock₁.append hblock₂
  rw [← chars_append] at hblock
  refine ⟨syntaxError?_eq_none_iff.mpr hblock.balanced, fun tape input result => ?_⟩
  -- the second block starts where the first one ends, which is a start behind what that one did
  have hstart : ∀ {s : Store} {count : Nat}, block₁.Runs (.start tape input) s count →
      s = (Store.start s.tape (input.drop s.consumed)).behind s.consumed s.output := by
    intro s count hrun
    simp [Store.behind, Store.start, ← hrun.unread_eq_drop.1]
  rw [hblock.yields_iff]
  constructor
  · rintro ⟨s', count, hrun, rfl⟩
    obtain ⟨s, c₁, c₂, hrun₁, hrun₂, rfl⟩ := Block.runs_append_iff.mp hrun
    rw [hstart hrun₁] at hrun₂
    obtain ⟨t, rfl, hrest⟩ := Block.runs_behind_iff.mp hrun₂
    exact ⟨_, _, hblock₁.yields_iff.mpr ⟨s, c₁, hrun₁, rfl⟩, hrun₁.unread_eq_drop.2,
      hblock₂.yields_iff.mpr ⟨t, c₂, hrest, rfl⟩, rfl⟩
  · rintro ⟨_, _, hyields₁, -, hyields₂, rfl⟩
    obtain ⟨s, c₁, hrun₁, rfl⟩ := hblock₁.yields_iff.mp hyields₁
    obtain ⟨t, c₂, hrun₂, rfl⟩ := hblock₂.yields_iff.mp hyields₂
    have hrun₂' : block₂.Runs ((Store.start s.tape (input.drop s.consumed)).behind s.consumed s.output)
        (t.behind s.consumed s.output) c₂ := Block.runs_behind_iff.mpr ⟨t, rfl, hrun₂⟩
    rw [← hstart hrun₁] at hrun₂'
    exact ⟨_, _, Block.runs_append_iff.mpr ⟨s, c₁, c₂, hrun₁, hrun₂', rfl⟩, rfl⟩

/-- A program that clears a cell, and one that reads up to the first zero. -/
theorem append_yields_iff_clear_read :
    ((ofLines ["[-]"]).syntaxError? = none ∧ (ofLines ["first ,", "[ next , ]"]).syntaxError? = none) ∧
      ∀ tape input result,
        (ofLines ["[-]"] ++ ofLines ["first ,", "[ next , ]"]).Yields tape input result ↔
          ∃ result₁ result₂, (ofLines ["[-]"]).Yields tape input result₁ ∧
            result₁.inputConsumed ≤ input.length ∧
            (ofLines ["first ,", "[ next , ]"]).Yields result₁.tape
              (input.drop result₁.inputConsumed) result₂ ∧
            result = ⟨result₁.output ++ result₂.output, result₂.tape,
              result₁.instructions + result₂.instructions,
              result₁.inputConsumed + result₂.inputConsumed⟩ := by
  have hclear : (ofLines ["[-]"]).syntaxError? = none := by decide
  have hread : (ofLines ["first ,", "[ next , ]"]).syntaxError? = none := by decide
  exact ⟨⟨hclear, hread⟩, (append_yields_iff hclear hread).2⟩

end Source

end TapeMachine
