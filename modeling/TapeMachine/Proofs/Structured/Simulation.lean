import TapeMachine.Proofs.Machine.Rejection
import TapeMachine.Proofs.Structured.Runs

/-!
# The machine runs the structured language

The machine walks over positions and jumps; a block has neither.  Both are tied by where a block is
written in the code: from its first position to the position behind it the machine does what the block
does, and counts what it spends.

One direction follows a run of the block.  Both brackets of a loop do the same thing, which makes one
induction over the iterations enough: on a zero the machine goes behind the loop, and else to the start
of the body.  The other direction follows the machine, which comes nearer to its end with every
iteration; there the first direction tells where it stands behind the body.

## Main definitions

* `Store.load` — the machine that works on a store.
* `Code.Passes` — nothing but comments stands between two positions.
* `Code.Spells` — a block is written between two positions.

## Main results

* `Code.Linked.reaches_of_runs` — where the block runs, the machine runs.
* `Code.Linked.exists_runs_of_terminates` — where the machine comes to an end, the block runs.
* `Block.SpeltBy.yields_iff` — a program has the results of its block.
* `Source.exists_block_yields_iff` — an accepted program runs as a structured program.
-/

namespace TapeMachine

open TapeMachine.Bracket

/-- The machine that works on a store, at a position and after a number of instructions. -/
def Store.load (s : Store) (position executed : Nat) : Machine :=
  ⟨s.tape, position, s.unread, s.consumed, s.output.toArray, executed⟩

namespace Store

variable (s : Store) (position executed : Nat)

@[simp] theorem position_load : (s.load position executed).position = position := rfl

@[simp] theorem read_load : (s.load position executed).tape.read = s.cell := rfl

/-- The machine does to its store what the operation does. -/
theorem moveOn_act_load (op : Operation) :
    ((s.load position executed).act op.symbol).moveOn position =
      (s.perform op).load (position + 1) (executed + 1) := by
  cases op with
  | input =>
    rw [Operation.symbol, Machine.act, Machine.readInput, perform]
    cases hdecode : s.tape.width.decode? s.unread with
    | none => simp [load, hdecode, Machine.moveOn]
    | some decoded => simp [load, hdecode, Machine.moveOn]
  | output =>
    simp [Operation.symbol, Machine.act, Machine.writeOutput, Machine.written, perform, load,
      Machine.moveOn, cell]
  | _ => rfl

end Store

theorem Operation.jumps_symbol (op : Operation) (cell : Nat) : op.symbol.jumps cell = false := by
  cases op <;> rfl

namespace Code

variable {code : Code} {i j k l : Nat}

/-! ### Blocks in the code -/

/-- The machine comes from `i` to `k` over nothing but comments. -/
def Passes (code : Code) (i k : Nat) : Prop :=
  ∀ (s : Store) (n : Nat), code.Reaches (s.load i n) (s.load k n)

/-- The characters from `i` on and in front of `j` spell the block. -/
def Spells (code : Code) (block : Block) (i j : Nat) : Prop :=
  ∃ before flat after, code.chars.toList = before ++ (flat ++ after) ∧ block.SpeltBy flat ∧
    i = before.length ∧ j = before.length + flat.length

theorem passes_of_comments {after comments : List Char} : ∀ {before : List Char},
    code.chars.toList = before ++ (comments ++ after) →
      (∀ c ∈ comments, Symbol.ofChar? c = none) →
        code.Passes before.length (before.length + comments.length) := by
  induction comments with
  | nil =>
    intro before _ _ s n
    exact .refl
  | cons c comments ih =>
    intro before hcode hcomments s n
    have hchar : code.chars[before.length]? = some c := by
      rw [← Array.getElem?_toList, hcode, List.getElem?_append_right (Nat.le_refl _), Nat.sub_self]
      rfl
    have hnext : code.Next (s.load before.length n) (s.load (before.length + 1) n) :=
      .inl (step_of_comment hchar (hcomments c List.mem_cons_self))
    have hpass := @ih (before ++ [c]) (by rw [hcode, List.append_assoc]; rfl)
      fun c' hc' => hcomments c' (List.mem_cons_of_mem c hc')
    rw [List.length_append, List.length_singleton] at hpass
    rw [List.length_cons, Nat.add_comm comments.length, ← Nat.add_assoc]
    exact .head hnext (hpass s n)

theorem Spells.done (h : code.Spells .done i j) : code.Passes i j := by
  obtain ⟨before, flat, after, hcode, hflat, rfl, rfl⟩ := h
  exact passes_of_comments hcode (List.filterMap_eq_nil_iff.mp hflat)

theorem Spells.act {op : Operation} {rest : Block} (h : code.Spells (.act op rest) i j) :
    ∃ k, code.Passes i k ∧ code.chars[k]? = some op.symbol.toChar ∧ code.Spells rest (k + 1) j := by
  obtain ⟨before, flat, after, hcode, hflat, rfl, rfl⟩ := h
  obtain ⟨comments, flat', rfl, hcomments, hrest⟩ := Block.exists_of_speltBy_act hflat
  rw [List.append_assoc] at hcode
  have hpass := passes_of_comments hcode hcomments
  have hchar : code.chars[before.length + comments.length]? = some op.symbol.toChar := by
    rw [← Array.getElem?_toList, hcode]
    simp
  have hbehind : code.chars.toList =
      (before ++ (comments ++ [op.symbol.toChar])) ++ (flat' ++ after) := by
    rw [hcode]
    simp
  refine ⟨_, hpass, hchar, _, _, _, hbehind, hrest, ?_, ?_⟩
  · simp [Nat.add_assoc]
  · simp
    omega

theorem Spells.loop {body rest : Block} (h : code.Spells (.loop body rest) i j) :
    ∃ k l, code.Passes i k ∧ Matched code.chars.toList k l ∧ code.Spells body (k + 1) l ∧
      code.Spells rest (l + 1) j := by
  obtain ⟨before, flat, after, hcode, hflat, rfl, rfl⟩ := h
  obtain ⟨comments, inner, behind, rfl, hcomments, hbody, hrest⟩ := Block.exists_of_speltBy_loop hflat
  rw [List.append_assoc] at hcode
  have hpass := passes_of_comments hcode hcomments
  -- the code, cut at the two brackets, in front of the body, and behind the loop
  have hbrackets : code.chars.toList =
      (before ++ comments) ++ '[' :: (inner ++ ']' :: (behind ++ after)) := by
    rw [hcode]
    simp
  have hinner : code.chars.toList =
      (before ++ (comments ++ ['['])) ++ (inner ++ ']' :: (behind ++ after)) := by
    rw [hcode]
    simp
  have hbehind : code.chars.toList =
      (before ++ (comments ++ '[' :: (inner ++ [']']))) ++ (behind ++ after) := by
    rw [hcode]
    simp
  refine ⟨_, before.length + comments.length + 1 + inner.length, hpass, ?_, ?_, ?_⟩
  · exact ⟨_, _, _, hbrackets, hbody.balanced, by simp, by simp⟩
  · exact ⟨_, _, _, hinner, hbody, by simp [Nat.add_assoc], by simp; omega⟩
  · exact ⟨_, _, _, hbehind, hrest, by simp; omega, by simp; omega⟩

/-! ### One instruction -/

theorem next_operation {op : Operation} (hchar : code.chars[k]? = some op.symbol.toChar) (s : Store)
    (n : Nat) : code.Next (s.load k n) ((s.perform op).load (k + 1) (n + 1)) := by
  have hsymbol := Symbol.ofChar?_toChar op.symbol
  have hjumps := op.jumps_symbol (s.load k n).tape.read
  rw [← s.moveOn_act_load k n op]
  exact .inr ⟨_, (step_of_symbol hchar hsymbol).trans (execute_of_not_jumps hjumps)⟩

/-- **Both brackets of a loop do the same thing**: on a zero the machine goes behind the loop, and else
to the start of the body. -/
theorem Linked.next_bracket (hlinked : code.Linked) (hmatched : Matched code.chars.toList k l)
    {p : Nat} (hp : p = k ∨ p = l) (s : Store) (n : Nat) :
    code.Next (s.load p n) (s.load (if s.cell = 0 then l + 1 else k + 1) (n + 1)) := by
  obtain ⟨hforward, hbackward⟩ := hlinked.partners hmatched
  have hopening := hmatched.getElem?_opening
  have hclosing := hmatched.getElem?_closing
  rw [Array.getElem?_toList] at hopening hclosing
  have hopens : Symbol.ofChar? '[' = some .opening := rfl
  have hcloses : Symbol.ofChar? ']' = some .closing := rfl
  refine .inr ?_
  rcases hp with rfl | rfl
  · rw [step_of_symbol hopening hopens]
    by_cases hcell : s.cell = 0
    · rw [if_pos hcell]
      exact ⟨_, execute_of_jumps (by simp [Symbol.jumps, hcell]) hforward⟩
    · rw [if_neg hcell]
      exact ⟨_, execute_of_not_jumps (by simp [Symbol.jumps, hcell])⟩
  · rw [step_of_symbol hclosing hcloses]
    by_cases hcell : s.cell = 0
    · rw [if_pos hcell]
      exact ⟨_, execute_of_not_jumps (by simp [Symbol.jumps, hcell])⟩
    · rw [if_neg hcell]
      exact ⟨_, execute_of_jumps (by simp [Symbol.jumps, hcell]) hbackward⟩

/-! ### Where the block runs, the machine runs -/

theorem Linked.reaches_of_iterates (hlinked : code.Linked) (hmatched : Matched code.chars.toList k l)
    {run : Store → Store → Nat → Prop}
    (hbody : ∀ {s s' c}, run s s' c → ∀ n, code.Reaches (s.load (k + 1) n) (s'.load l (n + c)))
    {m c : Nat} {s s' : Store} (h : Iterates run m s s' c) : ∀ {p : Nat}, p = k ∨ p = l → ∀ n,
      code.Reaches (s.load p n) (s'.load (l + 1) (n + (1 + m + c))) := by
  -- the first iteration starts at the opening bracket, and every other one at the closing bracket
  induction h with
  | @stop s hcell =>
    intro p hp n
    have hnext := hlinked.next_bracket hmatched hp s n
    rw [if_pos hcell] at hnext
    exact .single hnext
  | @again m c c' s s₁ s₂ hcell hrun _ ih =>
    intro p hp n
    have hnext := hlinked.next_bracket hmatched hp s n
    rw [if_neg hcell] at hnext
    have hagain := ih (.inr rfl) (n + 1 + c)
    have hcount : n + 1 + c + (1 + m + c') = n + (1 + (m + 1) + (c + c')) := by omega
    rw [hcount] at hagain
    exact .head hnext ((hbody hrun (n + 1)).trans hagain)

/-- **Where the block runs, the machine runs**, and it counts what the block spends. -/
theorem Linked.reaches_of_runs (hlinked : code.Linked) {block : Block} : ∀ {i j count : Nat}
    {s s' : Store}, code.Spells block i j → block.Runs s s' count → ∀ n,
      code.Reaches (s.load i n) (s'.load j (n + count)) := by
  induction block with
  | done =>
    rintro i j _ s _ hspells ⟨rfl, rfl⟩ n
    exact hspells.done _ n
  | act op rest ih =>
    rintro i j _ s s' hspells ⟨c, hrest, rfl⟩ n
    obtain ⟨k, hpass, hchar, hspells'⟩ := hspells.act
    have hreach := ih hspells' hrest (n + 1)
    rw [Nat.add_assoc] at hreach
    exact (hpass s n).trans (.head (next_operation hchar s n) hreach)
  | loop body rest ihbody ihrest =>
    rintro i j _ s s' hspells ⟨m, s₁, c, c', hloop, hrest, rfl⟩ n
    obtain ⟨k, l, hpass, hmatched, hspells₁, hspells₂⟩ := hspells.loop
    have hiterate := hlinked.reaches_of_iterates hmatched (fun hrun n => ihbody hspells₁ hrun n)
      hloop (.inl rfl) n
    rw [← Nat.add_assoc n]
    exact (hpass s n).trans (hiterate.trans (ihrest hspells₂ hrest _))

/-! ### Where the machine comes to an end, the block runs -/

theorem Linked.exists_iterates_of_terminates (hlinked : code.Linked)
    (hmatched : Matched code.chars.toList k l) {run : Store → Store → Nat → Prop}
    (hreach : ∀ {s s' c}, run s s' c → ∀ n, code.Reaches (s.load (k + 1) n) (s'.load l (n + c)))
    (hbody : ∀ {s n}, code.Terminates (s.load (k + 1) n) → ∃ s' c, run s s' c) {p n : Nat} {s : Store}
    (hp : p = k ∨ p = l) (h : code.Terminates (s.load p n)) : ∃ m s' c, Iterates run m s s' c := by
  generalize hmachine : s.load p n = machine at h
  induction h generalizing s p n with
  | intro machine hacc ih =>
    subst hmachine
    by_cases hcell : s.cell = 0
    · exact ⟨0, s, 0, .stop hcell⟩
    · have hnext := hlinked.next_bracket hmatched hp s n
      rw [if_neg hcell] at hnext
      obtain ⟨s₁, c, hrun⟩ := hbody (hacc _ (.single hnext))
      -- behind its body the machine stands at the closing bracket, nearer to its end
      have hbehind := Relation.TransGen.head' hnext (hreach hrun (n + 1))
      obtain ⟨m, s', c', hagain⟩ := ih _ hbehind (.inr rfl) rfl
      exact ⟨m + 1, s', c + c', .again hcell hrun hagain⟩

/-- **Where the machine comes to an end, the block runs.** -/
theorem Linked.exists_runs_of_terminates (hlinked : code.Linked) {block : Block} : ∀ {i j n : Nat}
    {s : Store}, code.Spells block i j → code.Terminates (s.load i n) →
      ∃ s' count, block.Runs s s' count := by
  induction block with
  | done =>
    intro i j n s _ _
    exact ⟨s, 0, rfl, rfl⟩
  | act op rest ih =>
    intro i j n s hspells h
    obtain ⟨k, hpass, hchar, hspells'⟩ := hspells.act
    have hrest := (h.of_reaches (hpass s n)).of_reaches (.single (next_operation hchar s n))
    obtain ⟨s', c, hrun⟩ := ih hspells' hrest
    exact ⟨s', 1 + c, c, hrun, rfl⟩
  | loop body rest ihbody ihrest =>
    intro i j n s hspells h
    obtain ⟨k, l, hpass, hmatched, hspells₁, hspells₂⟩ := hspells.loop
    have hreach : ∀ {s s' c}, body.Runs s s' c → ∀ n,
        code.Reaches (s.load (k + 1) n) (s'.load l (n + c)) :=
      fun hrun n => hlinked.reaches_of_runs hspells₁ hrun n
    have hloop := h.of_reaches (hpass s n)
    obtain ⟨m, s₁, c, hiterate⟩ := hlinked.exists_iterates_of_terminates hmatched hreach
      (fun hbody => ihbody hspells₁ hbody) (.inl rfl) hloop
    have hrest := hloop.of_reaches (hlinked.reaches_of_iterates hmatched hreach hiterate (.inl rfl) n)
    obtain ⟨s', c', hrun⟩ := ihrest hspells₂ hrest
    exact ⟨s', 1 + m + c + c', m, s₁, c, c', hiterate, hrun, rfl⟩

end Code

/-! ### Whole programs -/

/-- **A program has the results of its block.** -/
theorem Block.SpeltBy.yields_iff {block : Block} {source : Source} (h : block.SpeltBy source.chars)
    {tape : Tape} {input : List UInt8} {result : Execution} :
    source.Yields tape input result ↔ ∃ store count, block.Runs (.start tape input) store count ∧
      result = ⟨store.output, store.tape, count, store.consumed⟩ := by
  obtain ⟨code, hcode, hchars, hlinked⟩ :=
    Source.exists_compile_eq_ok (Source.syntaxError?_eq_none_iff.mpr h.balanced)
  have hspells : code.Spells block 0 source.chars.length :=
    ⟨[], source.chars, [], by rw [hchars, List.append_nil]; rfl, h, rfl, (Nat.zero_add _).symm⟩
  -- a run of the block is a run of the machine that has halted behind the last character
  have hfinishes : ∀ {store count}, block.Runs (.start tape input) store count →
      code.Finishes (.start tape input) (store.load source.chars.length count) := by
    intro store count hrun
    have hreach := hlinked.reaches_of_runs hspells hrun 0
    rw [Nat.zero_add] at hreach
    refine ⟨hreach, Code.step_of_end ?_⟩
    rw [Store.position_load, ← Array.getElem?_toList, hchars, List.getElem?_eq_none (Nat.le_refl _)]
  rw [Source.yields_iff hcode]
  constructor
  · rintro ⟨m, hm, rfl⟩
    obtain ⟨store, count, hrun⟩ :=
      hlinked.exists_runs_of_terminates hspells (n := 0) (s := .start tape input) hm.terminates
    obtain rfl := hm.unique (hfinishes hrun)
    exact ⟨store, count, hrun, rfl⟩
  · rintro ⟨store, count, hrun, rfl⟩
    exact ⟨_, hfinishes hrun, rfl⟩

/-- **An accepted program runs as a structured program.**  Its instructions make up a block, and from
every tape and on every input the program has exactly the results of the block: the same output, the
same tape, the same number of input bytes read, and as many instructions as the block spends. -/
theorem Source.exists_block_yields_iff {source : Source} (h : source.syntaxError? = none) :
    ∃ block, Block.ofSymbols? source.symbols = some block ∧
      ∀ tape input result, source.Yields tape input result ↔
        ∃ store count, block.Runs (.start tape input) store count ∧
          result = ⟨store.output, store.tape, count, store.consumed⟩ := by
  obtain ⟨block, hblock⟩ := exists_block h
  exact ⟨block, Block.ofSymbols?_eq_some_iff.mpr hblock.symm, fun _ _ _ => hblock.yields_iff⟩

/-- A loop with a comment and a line end in its body, and two operations behind it. -/
theorem Source.yields_iff_of_commented_loop :
    (ofLines ["+[ body: -", "].,"]).syntaxError? = none ∧
      ∀ tape input result, (ofLines ["+[ body: -", "].,"]).Yields tape input result ↔
        ∃ store count,
          (Block.act .increment (.loop (.act .decrement .done) (.act .output (.act .input .done)))).Runs
            (.start tape input) store count ∧
          result = ⟨store.output, store.tape, count, store.consumed⟩ := by
  have haccepted : (ofLines ["+[ body: -", "].,"]).syntaxError? = none := by decide
  obtain ⟨block, hblock, hyields⟩ := exists_block_yields_iff haccepted
  cases hblock
  exact ⟨haccepted, hyields⟩

end TapeMachine
