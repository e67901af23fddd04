import TapeMachine.Machine
import TapeMachine.Proofs.Structured.Block

/-!
# The structured language

What a block does, with no position and no jump: a sequence runs its parts in order, and a loop runs
its body as long as the current cell is not zero.  The relation also counts the instructions that the
machine spends.  A loop of `n` iterations spends one for its opening bracket, one for the closing
bracket at the end of each iteration, and what its body spends.

A block is run on a store: the tape, the input and the output, which is the machine without its
position and its count.

## Main definitions

* `Store`, `Store.perform` — what blocks work on, and what an operation does to it.
* `Iterates` — the iterations of a loop around a body that is given by its runs.
* `Block.Runs` — the runs of a block.
* `Block.append` — one block after another.

## Main results

* `Block.runs_append_iff` — one block after another runs like both in turn.
* `Block.Runs.simulate`, `Block.runs_image_iff` — a relation between stores that operations respect, or a
  change of the store that they do not notice, is respected by runs.
-/

namespace TapeMachine

/-- What a program works on. -/
structure Store where
  /-- The memory. -/
  tape : Tape
  /-- The input that is not read yet. -/
  unread : List UInt8
  /-- The number of input bytes that are read. -/
  consumed : Nat
  /-- Everything written so far. -/
  output : List UInt8
  deriving DecidableEq, Repr

namespace Store

/-- The store at the start of a program, with a tape and an input. -/
def start (tape : Tape) (input : List UInt8) : Store :=
  ⟨tape, input, 0, []⟩

/-- The value of the current cell. -/
def cell (s : Store) : Nat :=
  s.tape.read

/-- The same store with another tape. -/
def withTape (s : Store) (tape : Tape) : Store :=
  { s with tape := tape }

/-- What an operation does. -/
def perform (s : Store) : Operation → Store
  | .increment => { s with tape := s.tape.increment }
  | .decrement => { s with tape := s.tape.decrement }
  | .right => { s with tape := s.tape.moveRight }
  | .left => { s with tape := s.tape.moveLeft }
  | .input =>
    match s.tape.width.decode? s.unread with
    | none => s
    | some decoded =>
      { s with
        tape := s.tape.write decoded.value
        unread := s.unread.drop decoded.used
        consumed := s.consumed + decoded.used }
  | .output => { s with output := s.output ++ s.tape.width.encode s.cell }

theorem perform_input_of_none {s : Store} (h : s.tape.width.decode? s.unread = none) :
    s.perform .input = s := by
  rw [perform, h]

theorem perform_input_of_some {s : Store} {decoded : Decoded}
    (h : s.tape.width.decode? s.unread = some decoded) :
    s.perform .input = { s with
      tape := s.tape.write decoded.value
      unread := s.unread.drop decoded.used
      consumed := s.consumed + decoded.used } := by
  rw [perform, h]

/-- An operation keeps a tape well formed. -/
theorem wellFormed_perform {s : Store} (h : s.tape.WellFormed) (op : Operation) :
    (s.perform op).tape.WellFormed := by
  cases op with
  | increment => exact h.increment
  | decrement => exact h.decrement
  | right => exact h.moveRight
  | left => exact h.moveLeft
  | input =>
    rw [perform]
    split
    · exact h
    · exact h.write _
  | output => exact h

end Store

/-- The iterations of a loop around a body.  `Iterates run n s s' c` says that the loop leads from `s`
to `s'` in `n` iterations, in which its body spends `c` instructions. -/
inductive Iterates (run : Store → Store → Nat → Prop) : Nat → Store → Store → Nat → Prop
  /-- On a zero the loop is over. -/
  | stop {s : Store} (hcell : s.cell = 0) : Iterates run 0 s s 0
  /-- On any other value the body runs, and then the loop again. -/
  | again {n c c' : Nat} {s s₁ s₂ : Store} (hcell : s.cell ≠ 0) (hbody : run s s₁ c)
      (hagain : Iterates run n s₁ s₂ c') : Iterates run (n + 1) s s₂ (c + c')

namespace Block

/-- The runs of a block.  `block.Runs s s' c` says that the block leads from `s` to `s'` and spends `c`
instructions. -/
def Runs : Block → Store → Store → Nat → Prop
  | done, s, s', count => s' = s ∧ count = 0
  | act op rest, s, s', count => ∃ c, rest.Runs (s.perform op) s' c ∧ count = 1 + c
  | loop body rest, s, s', count =>
    ∃ n s₁ c c', Iterates body.Runs n s s₁ c ∧ rest.Runs s₁ s' c' ∧ count = 1 + n + c + c'

theorem runs_act {op : Operation} {rest : Block} {s s' : Store} {count : Nat} :
    (act op rest).Runs s s' count ↔ ∃ c, rest.Runs (s.perform op) s' c ∧ count = 1 + c := Iff.rfl

theorem runs_loop {body rest : Block} {s s' : Store} {count : Nat} :
    (loop body rest).Runs s s' count ↔
      ∃ n s₁ c c', Iterates body.Runs n s s₁ c ∧ rest.Runs s₁ s' c' ∧ count = 1 + n + c + c' :=
  Iff.rfl

/-! ### One block after another -/

/-- One block after another. -/
def append : Block → Block → Block
  | done, after => after
  | act op rest, after => act op (rest.append after)
  | loop body rest, after => loop body (rest.append after)

@[simp] theorem symbols_append (block after : Block) :
    (block.append after).symbols = block.symbols ++ after.symbols := by
  induction block with
  | done => rfl
  | act op rest ih => rw [append, symbols, symbols, ih, List.cons_append]
  | loop body rest _ ih =>
    rw [append, symbols, symbols, ih, List.cons_append, List.append_assoc, List.cons_append]

/-- **One block after another runs like both in turn**, and spends what both spend. -/
theorem runs_append_iff {block after : Block} : ∀ {s s' : Store} {count : Nat},
    (block.append after).Runs s s' count ↔
      ∃ s₁ c c', block.Runs s s₁ c ∧ after.Runs s₁ s' c' ∧ count = c + c' := by
  induction block with
  | done =>
    intro s s' count
    rw [append]
    constructor
    · intro h
      exact ⟨s, 0, count, ⟨rfl, rfl⟩, h, (Nat.zero_add count).symm⟩
    · rintro ⟨_, _, c', ⟨rfl, rfl⟩, hafter, rfl⟩
      rwa [Nat.zero_add]
  | act op rest ih =>
    intro s s' count
    rw [append, runs_act]
    constructor
    · rintro ⟨_, hrun, rfl⟩
      obtain ⟨s₁, c, c', hrest, hafter, rfl⟩ := ih.mp hrun
      exact ⟨s₁, 1 + c, c', ⟨c, hrest, rfl⟩, hafter, (Nat.add_assoc 1 c c').symm⟩
    · rintro ⟨s₁, _, c', ⟨c, hrest, rfl⟩, hafter, rfl⟩
      exact ⟨c + c', ih.mpr ⟨s₁, c, c', hrest, hafter, rfl⟩, Nat.add_assoc 1 c c'⟩
  | loop body rest _ ih =>
    intro s s' count
    rw [append, runs_loop]
    constructor
    · rintro ⟨n, s₁, c, _, hloop, hrun, rfl⟩
      obtain ⟨s₂, c₁, c', hrest, hafter, rfl⟩ := ih.mp hrun
      exact ⟨s₂, 1 + n + c + c₁, c', ⟨n, s₁, c, c₁, hloop, hrest, rfl⟩, hafter,
        (Nat.add_assoc _ c₁ c').symm⟩
    · rintro ⟨s₂, _, c', ⟨n, s₁, c, c₁, hloop, hrest, rfl⟩, hafter, rfl⟩
      exact ⟨n, s₁, c, c₁ + c', hloop, ih.mpr ⟨s₂, c₁, c', hrest, hafter, rfl⟩,
        Nat.add_assoc _ c₁ c'⟩

/-! ### Runs side by side -/

/-- **A relation between stores that operations respect is respected by runs**: related stores must
agree on when a loop is over, and then a block that runs from one of them runs from the other, and
spends as much. -/
theorem Runs.simulate {R : Store → Store → Prop}
    (hcell : ∀ {s t}, R s t → (s.cell = 0 ↔ t.cell = 0))
    (hperform : ∀ {s t}, R s t → ∀ op, R (s.perform op) (t.perform op)) {block : Block} :
    ∀ {s t s' : Store} {count : Nat}, R s t → block.Runs s s' count →
      ∃ t', R s' t' ∧ block.Runs t t' count := by
  induction block with
  | done =>
    rintro s t _ _ hrelated ⟨rfl, rfl⟩
    exact ⟨t, hrelated, rfl, rfl⟩
  | act op rest ih =>
    rintro s t s' _ hrelated ⟨c, hrest, rfl⟩
    obtain ⟨t', hrelated', hrest'⟩ := ih (hperform hrelated op) hrest
    exact ⟨t', hrelated', c, hrest', rfl⟩
  | loop body rest ihbody ihrest =>
    rintro s t s' _ hrelated ⟨n, s₁, c, c', hloop, hrest, rfl⟩
    -- iteration by iteration: the body is simulated, and the loops end together
    have hiterate : ∃ t₁, R s₁ t₁ ∧ Iterates body.Runs n t t₁ c := by
      clear hrest
      induction hloop generalizing t with
      | stop hzero => exact ⟨t, hrelated, .stop ((hcell hrelated).mp hzero)⟩
      | again hne hbody _ ih =>
        obtain ⟨t₁, hrelated₁, hbody'⟩ := ihbody hrelated hbody
        obtain ⟨t₂, hrelated₂, hagain'⟩ := ih hrelated₁
        exact ⟨t₂, hrelated₂, .again (fun hzero => hne ((hcell hrelated).mpr hzero)) hbody' hagain'⟩
    obtain ⟨t₁, hrelated₁, hloop'⟩ := hiterate
    obtain ⟨t', hrelated', hrest'⟩ := ihrest hrelated₁ hrest
    exact ⟨t', hrelated', n, t₁, c, c', hloop', hrest', rfl⟩

/-- What operations keep of a store, runs keep. -/
theorem Runs.invariant {P : Store → Prop} (hperform : ∀ {s}, P s → ∀ op, P (s.perform op))
    {block : Block} {s s' : Store} {count : Nat} (hs : P s) (h : block.Runs s s' count) : P s' := by
  have hcell : ∀ {s t : Store}, P s ∧ s = t → (s.cell = 0 ↔ t.cell = 0) := by
    rintro s t ⟨-, rfl⟩
    rfl
  have hstep : ∀ {s t : Store}, P s ∧ s = t → ∀ op, P (s.perform op) ∧ s.perform op = t.perform op := by
    rintro s t ⟨hP, rfl⟩ op
    exact ⟨hperform hP op, rfl⟩
  obtain ⟨_, hR, -⟩ := Runs.simulate (R := fun s t => P s ∧ s = t) hcell hstep ⟨hs, rfl⟩ h
  exact hR.1

/-- **A change of the store that operations do not notice is not noticed by runs**: from the changed
store a block runs to where it runs from the store itself, changed in the same way. -/
theorem runs_image_iff {P : Store → Prop} {f : Store → Store}
    (hcell : ∀ {s}, P s → ((f s).cell = 0 ↔ s.cell = 0))
    (hperform : ∀ {s}, P s → ∀ op, P (s.perform op) ∧ (f s).perform op = f (s.perform op))
    {block : Block} {s t : Store} {count : Nat} (hs : P s) :
    block.Runs (f s) t count ↔ ∃ s', t = f s' ∧ block.Runs s s' count := by
  constructor
  · intro h
    obtain ⟨s', ⟨-, ht⟩, hrun⟩ := Runs.simulate (R := fun t s => P s ∧ t = f s) (t := s)
      (by rintro _ s ⟨hP, rfl⟩; exact hcell hP)
      (by rintro _ s ⟨hP, rfl⟩ op; exact hperform hP op) ⟨hs, rfl⟩ h
    exact ⟨s', ht, hrun⟩
  · rintro ⟨s', rfl, h⟩
    obtain ⟨_, ⟨-, rfl⟩, hrun⟩ := Runs.simulate (R := fun s t => P s ∧ t = f s) (t := f s)
      (by rintro s _ ⟨hP, rfl⟩; exact (hcell hP).symm)
      (by rintro s _ ⟨hP, rfl⟩ op; exact hperform hP op) ⟨hs, rfl⟩ h
    exact hrun

end Block

end TapeMachine
