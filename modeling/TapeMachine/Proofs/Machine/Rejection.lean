import TapeMachine.Proofs.Bracket.Check
import TapeMachine.Proofs.Bracket.Pairing
import TapeMachine.Proofs.Machine.Steps

/-!
# What is accepted does not fail

The check of a program keeps a depth over its lines; the table is built with a stack over the stream
of its characters, and the machine asks the table for a partner in the middle of a run.  All three
meet in the grammar of balanced streams, so what the check accepts has a table, the table has every
partner, and a run cannot fail.  What the check refuses is not run at all.

## Main definitions

* `Code.Linked` — the brackets of the code are balanced and the table knows their partners.

## Main results

* `Source.exists_compile_eq_ok` — an accepted program is made ready, and its code is linked.
* `Code.Linked.exists_partner` — linked code has the partner of every bracket.
* `Source.observe_eq_error_iff` — a run fails only by the refusal of the check, unseen.
-/

namespace TapeMachine

open TapeMachine.Bracket

/-- The brackets of the code are balanced, and the table knows both partners of every pair. -/
structure Code.Linked (code : Code) : Prop where
  /-- The brackets are balanced. -/
  balanced : Balanced code.chars.toList
  /-- Each of two partners leads to the other. -/
  partners : ∀ {i j : Nat}, Matched code.chars.toList i j →
    code.table.partner? i = some j ∧ code.table.partner? j = some i

namespace Source

variable {source : Source} {code : Code}

/-- **An accepted program is made ready, and its code is linked.** -/
theorem exists_compile_eq_ok (h : source.syntaxError? = none) :
    ∃ code, source.compile = .ok code ∧ code.chars.toList = source.chars ∧ code.Linked := by
  have hbalanced := syntaxError?_eq_none_iff.mp h
  obtain ⟨table, htable⟩ := JumpTable.exists_ofChars_eq_ok hbalanced
  refine ⟨⟨source.chars.toArray, table⟩, by simp [compile, h, htable], rfl, hbalanced, ?_⟩
  intro i j hmatched
  exact JumpTable.partner?_of_matched htable hmatched

/-- A refused program is not made ready. -/
theorem compile_of_syntaxError {error : SyntaxError} (h : source.syntaxError? = some error) :
    source.compile = .error (.rejected error) := by
  rw [compile, h]

theorem linked_of_compile (hcode : source.compile = .ok code) :
    code.chars.toList = source.chars ∧ code.Linked := by
  cases h : source.syntaxError? with
  | none =>
    obtain ⟨code', hcode', hchars, hlinked⟩ := exists_compile_eq_ok h
    rw [hcode] at hcode'
    cases hcode'
    exact ⟨hchars, hlinked⟩
  | some error => rw [compile_of_syntaxError h] at hcode; cases hcode

end Source

/-- Only brackets jump. -/
theorem Symbol.eq_bracket_of_jumps {symbol : Symbol} {cell : Nat} (h : symbol.jumps cell = true) :
    symbol = .opening ∨ symbol = .closing := by
  cases symbol <;> simp [jumps] at h ⊢

namespace Code

variable {code : Code} {m m' : Machine}

/-- **Linked code has the partner of every bracket.** -/
theorem Linked.exists_partner (h : code.Linked) {k : Nat} {c : Char} {symbol : Symbol} {cell : Nat}
    (hchar : code.chars[k]? = some c) (hsymbol : Symbol.ofChar? c = some symbol)
    (hjumps : symbol.jumps cell = true) : ∃ partner, code.table.partner? k = some partner := by
  obtain ⟨hopening, hclosing⟩ := h.balanced.exists_matched k
  rw [Array.getElem?_toList, hchar] at hopening hclosing
  obtain rfl := Symbol.ofChar?_eq_some_iff.mp hsymbol
  rcases Symbol.eq_bracket_of_jumps hjumps with rfl | rfl
  · obtain ⟨j, hj⟩ := hopening rfl
    exact ⟨j, (h.partners hj).1⟩
  · obtain ⟨i, hi⟩ := hclosing rfl
    exact ⟨i, (h.partners hi).2⟩

theorem Linked.step_ne_failed (h : code.Linked) (error : PartnerError) :
    code.step m ≠ .failed m' error := by
  intro hfailed
  have hcase := code.stepCase m
  rw [hfailed] at hcase
  cases hcase with
  | failed hchar hc hjumps hpartner =>
    obtain ⟨partner, hsome⟩ := h.exists_partner hchar hc hjumps
    rw [hpartner] at hsome
    cases hsome

/-- A run of linked code does not fail, from whatever machine it starts. -/
theorem Linked.run_ne_failed {σ : Type} {watch : σ → Event → σ} (h : code.Linked) {fuel : Nat}
    {error : PartnerError} {seen seen' : σ} : code.run watch fuel m seen ≠ .failed m' error seen' := by
  induction fuel generalizing m seen with
  | zero => intro hrun; cases hrun
  | succ fuel ih =>
    intro hrun
    unfold run at hrun
    cases hstep : code.step m with
    | halted m₁ => rw [hstep] at hrun; cases hrun
    | skipped m₁ => rw [hstep] at hrun; exact ih hrun
    | executed m₁ event => rw [hstep] at hrun; exact ih hrun
    | failed m₁ error₁ => exact h.step_ne_failed error₁ hstep

end Code

namespace Source

/-- **A run fails only by the refusal of the check, and unseen.**  Whoever watches, a run answers an
error exactly when the check refuses the program: the error is the one of the check, and the watcher
has seen nothing.  In whatever state the machine comes to a bracket that jumps, the table has its
partner. -/
theorem observe_eq_error_iff (source : Source) {σ : Type} (watch : σ → Event → σ) (seen : σ)
    (tape : Tape) (input : List UInt8) :
    (∀ fuel error seen', source.observe watch seen fuel tape input = some (.error error, seen') ↔
      ∃ refusal, source.syntaxError? = some refusal ∧ error = .rejected refusal ∧ seen' = seen) ∧
    ∀ code (m : Machine) symbol, source.compile = .ok code →
      source.symbolAt? m.position = some symbol → symbol.jumps m.tape.read = true →
      ∃ partner, code.table.partner? m.position = some partner := by
  refine ⟨fun fuel error seen' => ?_, fun code m symbol hcode hsymbol hjumps => ?_⟩
  · cases h : source.syntaxError? with
    | some refusal =>
      -- nothing is run, so neither the bound nor the tape nor the watcher matters
      rw [observe, compile_of_syntaxError h]
      constructor
      · intro herror
        cases herror
        exact ⟨refusal, rfl, rfl, rfl⟩
      · rintro ⟨_, hrefusal, rfl, rfl⟩
        cases hrefusal
        rfl
    | none =>
      obtain ⟨code, hcode, -, hlinked⟩ := exists_compile_eq_ok h
      rw [observe, hcode]
      constructor
      · intro herror
        cases hrun : code.run watch fuel (.start tape input) seen with
        | running m seen₁ => simp [hrun] at herror
        | finished m seen₁ => simp [hrun] at herror
        | failed m error₁ seen₁ => exact absurd hrun hlinked.run_ne_failed
      · rintro ⟨_, hrefusal, -, -⟩
        cases hrefusal
  · obtain ⟨hchars, hlinked⟩ := linked_of_compile hcode
    rw [symbolAt?, ← hchars, Array.getElem?_toList] at hsymbol
    obtain ⟨c, hchar, hc⟩ := Option.bind_eq_some_iff.mp hsymbol
    exact hlinked.exists_partner hchar hc hjumps

end Source

end TapeMachine
