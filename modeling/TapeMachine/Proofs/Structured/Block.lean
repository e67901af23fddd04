import TapeMachine.Proofs.Bracket.Check

/-!
# Programs as trees of loops

The machine sees a stream of characters and jumps in it.  The language that it runs has no jumps: its
programs are sequences of operations and of loops around such sequences.  This module reads the tree
off the instructions of a program.  The instructions are read from the back, because then a loop is
complete at the moment in which its opening bracket is met.

## Main definitions

* `Operation` — an instruction that does not jump.
* `Block` — a sequence of operations and loops.
* `Block.symbols` — the instructions of a block.
* `Block.ofSymbols?` — the block of a list of instructions.

## Main results

* `Block.ofSymbols?_eq_some_iff` — reading is the inverse of writing down.
* `Bracket.Balanced.exists_block` — what stands in a balanced stream is a block.
* `Block.SpeltBy.balanced` — a block is written with balanced brackets, whatever comments stand in it.
-/

namespace TapeMachine

/-- An instruction that does not jump. -/
inductive Operation
  /-- `+` -/
  | increment
  /-- `-` -/
  | decrement
  /-- `>` -/
  | right
  /-- `<` -/
  | left
  /-- `,` -/
  | input
  /-- `.` -/
  | output
  deriving DecidableEq, Repr

/-- The instruction of an operation. -/
def Operation.symbol : Operation → Symbol
  | increment => .increment
  | decrement => .decrement
  | right => .right
  | left => .left
  | input => .input
  | output => .output

/-- A sequence of operations and loops. -/
inductive Block
  /-- The end of the sequence. -/
  | done
  /-- An operation, and what follows it. -/
  | act (op : Operation) (rest : Block)
  /-- A loop around a body, and what follows it. -/
  | loop (body rest : Block)
  deriving DecidableEq, Repr

namespace Block

/-- The instructions of a block. -/
def symbols : Block → List Symbol
  | done => []
  | act op rest => op.symbol :: rest.symbols
  | loop body rest => .opening :: (body.symbols ++ .closing :: rest.symbols)

/-- Reads one more instruction, which stands in front of everything read so far: of a block, and of
the blocks behind the loops that it is the body of, innermost first. -/
def extend (block : Block) (outer : List Block) : Symbol → Option (Block × List Block)
  | .increment => some (.act .increment block, outer)
  | .decrement => some (.act .decrement block, outer)
  | .right => some (.act .right block, outer)
  | .left => some (.act .left block, outer)
  | .input => some (.act .input block, outer)
  | .output => some (.act .output block, outer)
  | .closing => some (.done, block :: outer)
  | .opening =>
    match outer with
    | [] => none
    | rest :: outer => some (.loop block rest, outer)

/-- Reads instructions from the back. -/
def ofSymbolsBack? : List Symbol → Option (Block × List Block)
  | [] => some (.done, [])
  | symbol :: w =>
    match ofSymbolsBack? w with
    | none => none
    | some (block, outer) => block.extend outer symbol

/-- The block of a list of instructions; `none` if a bracket has no partner. -/
def ofSymbols? (w : List Symbol) : Option Block :=
  match ofSymbolsBack? w with
  | some (block, []) => some block
  | _ => none

/-! ### Reading and writing down -/

@[simp] theorem extend_operation (block : Block) (outer : List Block) (op : Operation) :
    block.extend outer op.symbol = some (.act op block, outer) := by
  cases op <;> rfl

/-- The instructions of a block and of the blocks behind the loops around it. -/
def symbolsWithin (block : Block) (outer : List Block) : List Symbol :=
  block.symbols ++ outer.flatMap fun rest => .closing :: rest.symbols

theorem symbolsWithin_of_extend {block block' : Block} {outer outer' : List Block} {symbol : Symbol}
    (h : block.extend outer symbol = some (block', outer')) :
    block'.symbolsWithin outer' = symbol :: block.symbolsWithin outer := by
  cases symbol with
  | opening =>
    cases outer with
    | nil => cases h
    | cons rest outer =>
      cases h
      simp [symbolsWithin, symbols]
  | _ => cases h; rfl

theorem symbolsWithin_of_ofSymbolsBack? {w : List Symbol} : ∀ {block : Block} {outer : List Block},
    ofSymbolsBack? w = some (block, outer) → block.symbolsWithin outer = w := by
  induction w with
  | nil =>
    intro block outer h
    cases h
    rfl
  | cons symbol w ih =>
    intro block outer h
    rw [ofSymbolsBack?] at h
    cases hw : ofSymbolsBack? w with
    | none => rw [hw] at h; cases h
    | some read =>
      obtain ⟨block₁, outer₁⟩ := read
      rw [hw] at h
      rw [symbolsWithin_of_extend h, ih hw]

/-- In front of the end of a block, the instructions of any block are read as that block. -/
theorem ofSymbolsBack?_symbols_append (block : Block) : ∀ {w : List Symbol} {outer : List Block},
    ofSymbolsBack? w = some (.done, outer) →
      ofSymbolsBack? (block.symbols ++ w) = some (block, outer) := by
  induction block with
  | done =>
    intro w outer h
    exact h
  | act op rest ih =>
    intro w outer h
    rw [symbols, List.cons_append, ofSymbolsBack?, ih h]
    exact extend_operation rest outer op
  | loop body rest ihbody ihrest =>
    intro w outer h
    -- the closing bracket puts what stands behind the loop aside, and the opening one takes it up
    have hclosing : ofSymbolsBack? (.closing :: (rest.symbols ++ w)) = some (.done, rest :: outer) := by
      rw [ofSymbolsBack?, ihrest h]
      rfl
    rw [symbols, List.cons_append, List.append_assoc, List.cons_append, ofSymbolsBack?,
      ihbody hclosing]
    rfl

/-- **Reading a block is the inverse of writing it down**, so instructions make up one block at most. -/
theorem ofSymbols?_eq_some_iff {w : List Symbol} {block : Block} :
    ofSymbols? w = some block ↔ block.symbols = w := by
  constructor
  · intro h
    rw [ofSymbols?] at h
    split at h
    · next hback =>
      cases h
      simpa [symbolsWithin] using symbolsWithin_of_ofSymbolsBack? hback
    · cases h
  · rintro rfl
    have hback := ofSymbolsBack?_symbols_append block (w := []) rfl
    rw [List.append_nil] at hback
    rw [ofSymbols?, hback]

/-! ### Blocks in a stream of characters -/

/-- A stream of characters spells a block: its instructions are those of the block, and whatever else
stands in it is a comment. -/
def SpeltBy (block : Block) (flat : List Char) : Prop :=
  flat.filterMap Symbol.ofChar? = block.symbols

theorem exists_of_speltBy_act {op : Operation} {rest : Block} {flat : List Char}
    (h : (act op rest).SpeltBy flat) :
    ∃ comments flat', flat = comments ++ op.symbol.toChar :: flat' ∧
      (∀ c ∈ comments, Symbol.ofChar? c = none) ∧ rest.SpeltBy flat' := by
  obtain ⟨comments, c, flat', rfl, hcomments, hc, hrest⟩ := List.filterMap_eq_cons_iff.mp h
  obtain rfl := Symbol.ofChar?_eq_some_iff.mp hc
  exact ⟨comments, flat', rfl, hcomments, hrest⟩

/-- The comments in front of the closing bracket of a loop stand in its body. -/
theorem exists_of_speltBy_loop {body rest : Block} {flat : List Char}
    (h : (loop body rest).SpeltBy flat) :
    ∃ comments inner behind, flat = comments ++ '[' :: (inner ++ ']' :: behind) ∧
      (∀ c ∈ comments, Symbol.ofChar? c = none) ∧ body.SpeltBy inner ∧ rest.SpeltBy behind := by
  obtain ⟨comments, c, flat', rfl, hcomments, hc, hloop⟩ := List.filterMap_eq_cons_iff.mp h
  obtain rfl := Symbol.ofChar?_eq_some_iff.mp hc
  obtain ⟨inner, flat'', rfl, hbody, hclose⟩ := List.filterMap_eq_append_iff.mp hloop
  obtain ⟨comments', c', behind, rfl, hcomments', hc', hrest⟩ := List.filterMap_eq_cons_iff.mp hclose
  obtain rfl := Symbol.ofChar?_eq_some_iff.mp hc'
  refine ⟨comments, inner ++ comments', behind, ?_, hcomments, ?_, hrest⟩
  · rw [List.append_assoc]
    rfl
  · rw [SpeltBy, List.filterMap_append, hbody, List.filterMap_eq_nil_iff.mpr hcomments',
      List.append_nil]

end Block

namespace Bracket

/-- A character that is no bracket is a comment or an operation. -/
theorem ofChar?_of_ne_bracket {c : Char} (hopening : c ≠ '[') (hclosing : c ≠ ']') :
    Symbol.ofChar? c = none ∨ ∃ op : Operation, Symbol.ofChar? c = some op.symbol := by
  cases h : Symbol.ofChar? c with
  | none => exact .inl rfl
  | some symbol =>
    refine .inr ?_
    cases symbol with
    | increment => exact ⟨.increment, rfl⟩
    | decrement => exact ⟨.decrement, rfl⟩
    | right => exact ⟨.right, rfl⟩
    | left => exact ⟨.left, rfl⟩
    | input => exact ⟨.input, rfl⟩
    | output => exact ⟨.output, rfl⟩
    | opening => exact absurd (Symbol.ofChar?_eq_some_iff.mp h) hopening
    | closing => exact absurd (Symbol.ofChar?_eq_some_iff.mp h) hclosing

theorem ne_bracket_of_ofChar?_eq_none {c : Char} (h : Symbol.ofChar? c = none) :
    c ≠ '[' ∧ c ≠ ']' := by
  constructor <;> rintro rfl <;> cases h

theorem ne_bracket_of_operation (op : Operation) : op.symbol.toChar ≠ '[' ∧ op.symbol.toChar ≠ ']' := by
  cases op <;> decide

/-- **What stands in a balanced stream is a block.** -/
theorem Balanced.exists_block {flat : List Char} (h : Balanced flat) :
    ∃ block : Block, block.SpeltBy flat := by
  induction h with
  | nil => exact ⟨.done, rfl⟩
  | comment hopening hclosing _ ih =>
    obtain ⟨rest, hrest⟩ := ih
    rw [Block.SpeltBy] at hrest
    rcases ofChar?_of_ne_bracket hopening hclosing with hc | ⟨op, hc⟩
    · exact ⟨rest, by rw [Block.SpeltBy, List.filterMap_cons_none hc, hrest]⟩
    · exact ⟨.act op rest, by rw [Block.SpeltBy, List.filterMap_cons_some hc, hrest]; rfl⟩
  | pair _ _ ihinner ihflat =>
    obtain ⟨body, hbody⟩ := ihinner
    obtain ⟨rest, hrest⟩ := ihflat
    rw [Block.SpeltBy] at hbody hrest
    have hopening : Symbol.ofChar? '[' = some .opening := rfl
    have hclosing : Symbol.ofChar? ']' = some .closing := rfl
    refine ⟨.loop body rest, ?_⟩
    rw [Block.SpeltBy, List.filterMap_cons_some hopening, List.filterMap_append, hbody,
      List.filterMap_cons_some hclosing, hrest]
    rfl

theorem balanced_of_comments {flat : List Char} (h : ∀ c ∈ flat, Symbol.ofChar? c = none) :
    Balanced flat := by
  induction flat with
  | nil => exact .nil
  | cons c flat ih =>
    obtain ⟨hopening, hclosing⟩ := ne_bracket_of_ofChar?_eq_none (h c List.mem_cons_self)
    exact .comment hopening hclosing (ih fun c' hc' => h c' (List.mem_cons_of_mem c hc'))

end Bracket

open TapeMachine.Bracket in
/-- **A block is written with balanced brackets**, whatever comments stand in it. -/
theorem Block.SpeltBy.balanced {block : Block} : ∀ {flat : List Char}, block.SpeltBy flat →
    Balanced flat := by
  induction block with
  | done =>
    intro flat h
    exact balanced_of_comments (List.filterMap_eq_nil_iff.mp h)
  | act op rest ih =>
    intro flat h
    obtain ⟨comments, flat', rfl, hcomments, hrest⟩ := exists_of_speltBy_act h
    obtain ⟨hopening, hclosing⟩ := ne_bracket_of_operation op
    exact (balanced_of_comments hcomments).append (.comment hopening hclosing (ih hrest))
  | loop body rest ihbody ihrest =>
    intro flat h
    obtain ⟨comments, inner, behind, rfl, hcomments, hbody, hrest⟩ := exists_of_speltBy_loop h
    exact (balanced_of_comments hcomments).append (.pair (ihbody hbody) (ihrest hrest))

/-- An accepted program spells a block. -/
theorem Source.exists_block {source : Source} (h : source.syntaxError? = none) :
    ∃ block : Block, block.SpeltBy source.chars :=
  (syntaxError?_eq_none_iff.mp h).exists_block

end TapeMachine
