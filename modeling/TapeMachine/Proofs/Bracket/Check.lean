import TapeMachine.Bracket.Balance
import TapeMachine.Proofs.Bracket.Balanced

/-!
# The check finds the shape of a program

The check of a program keeps a depth and the place of one bracket, and no stack.  It passes over a
balanced part of the program as if that part were not there, so what it answers is decided by where
the program goes wrong, if it does: each of the three shapes of a stream has its answer.

## Main definitions

* `Bracket.Answer` — what the check is meant to answer.

## Main results

* `Bracket.scan_append_of_balanced` — the check passes over a balanced part.
* `Bracket.scan_eq_iff` — the check answers what the shape asks for.
* `Source.syntaxError?_eq_none_iff` — a program is accepted exactly when its brackets are balanced.
-/

namespace TapeMachine

namespace Bracket

/-! ### One character -/

section

variable (depth : Nat) (outermost here : Location) (rest : List (Location × Char))

@[simp] theorem scan_opening : scan depth outermost ((here, '[') :: rest) =
    scan (depth + 1) (if depth = 0 then here else outermost) rest := by
  cases depth <;> simp [scan]

@[simp] theorem scan_closing_zero :
    scan 0 outermost ((here, ']') :: rest) = some (.unexpectedClosing here) := by
  simp [scan]

@[simp] theorem scan_closing_succ :
    scan (depth + 1) outermost ((here, ']') :: rest) = scan depth outermost rest := by
  simp [scan]

theorem scan_comment {c : Char} (hopening : c ≠ '[') (hclosing : c ≠ ']') :
    scan depth outermost ((here, c) :: rest) = scan depth outermost rest := by
  cases depth <;> simp [scan, hopening, hclosing]

end

/-- With no bracket open it does not matter where the outermost one stood last. -/
theorem scan_zero_outermost (outermost outermost' : Location) (l : List (Location × Char)) :
    scan 0 outermost l = scan 0 outermost' l := by
  induction l with
  | nil => rfl
  | cons p l ih =>
    obtain ⟨here, c⟩ := p
    cases c using char_cases with
    | opening => rw [scan_opening, scan_opening, if_pos rfl, if_pos rfl]
    | closing => rw [scan_closing_zero, scan_closing_zero]
    | comment c hopening hclosing =>
      rw [scan_comment _ _ _ _ hopening hclosing, scan_comment _ _ _ _ hopening hclosing, ih]

/-- **The check passes over a balanced stream.** -/
theorem scan_append_of_balanced {flat : List Char} (h : Balanced flat) :
    ∀ (l : List (Location × Char)), l.map Prod.snd = flat →
      ∀ (depth : Nat) (outermost : Location) (rest : List (Location × Char)),
        scan depth outermost (l ++ rest) = scan depth outermost rest := by
  induction h with
  | nil =>
    intro l hl depth outermost rest
    rw [List.map_eq_nil_iff.mp hl, List.nil_append]
  | comment hopening hclosing _ ih =>
    intro l hl depth outermost rest
    obtain ⟨⟨here, c⟩, l, rfl, rfl, rfl⟩ := List.map_eq_cons_iff.mp hl
    rw [List.cons_append, scan_comment _ _ _ _ hopening hclosing]
    exact ih l rfl depth outermost rest
  | pair _ _ ihinner ihflat =>
    intro l hl depth outermost rest
    obtain ⟨⟨here, c⟩, l', rfl, rfl, hl'⟩ := List.map_eq_cons_iff.mp hl
    obtain ⟨l₁, l₂, rfl, rfl, hl₂⟩ := List.map_eq_append_iff.mp hl'
    obtain ⟨⟨there, c'⟩, l₃, rfl, rfl, rfl⟩ := List.map_eq_cons_iff.mp hl₂
    rw [List.cons_append, List.append_assoc, List.cons_append, scan_opening,
      ihinner l₁ rfl, scan_closing_succ, ihflat l₃ rfl]
    -- at depth zero the pair has moved the place of the outermost bracket
    cases depth with
    | zero => exact scan_zero_outermost _ _ rest
    | succ depth => rw [if_neg (Nat.succ_ne_zero depth)]

/-- Nothing behind an open bracket is reported in its place, unless it is closed. -/
theorem scan_of_opens {flat : List Char} (h : Opens flat) :
    ∀ (l : List (Location × Char)), l.map Prod.snd = flat → ∀ (depth : Nat) (outermost : Location),
      scan (depth + 1) outermost l = some (.unclosedOpening outermost) := by
  induction h with
  | inside hflat =>
    intro l hl depth outermost
    have hscan := scan_append_of_balanced hflat l hl (depth + 1) outermost []
    rwa [List.append_nil] at hscan
  | opening hinner _ ih =>
    intro l hl depth outermost
    obtain ⟨l₁, l₂, rfl, hl₁, hl₂⟩ := List.map_eq_append_iff.mp hl
    obtain ⟨⟨here, c⟩, l₃, rfl, rfl, hl₃⟩ := List.map_eq_cons_iff.mp hl₂
    rw [scan_append_of_balanced hinner l₁ hl₁, scan_opening, if_neg (Nat.succ_ne_zero depth)]
    exact ih l₃ hl₃ (depth + 1) outermost

/-! ### The answers -/

/-- What the check of a program is meant to answer, by the shape of the program. -/
inductive Answer : List (Location × Char) → Option SyntaxError → Prop
  /-- A balanced program is accepted. -/
  | accepted {l : List (Location × Char)} (h : Balanced (l.map Prod.snd)) : Answer l none
  /-- A bracket that closes nothing behind a balanced part is reported. -/
  | stray {before : List (Location × Char)} (h : Balanced (before.map Prod.snd)) (here : Location)
      (after : List (Location × Char)) :
      Answer (before ++ (here, ']') :: after) (some (.unexpectedClosing here))
  /-- A bracket that is never closed behind a balanced part is reported. -/
  | unclosed {before after : List (Location × Char)} (h : Balanced (before.map Prod.snd))
      (here : Location) (hafter : Opens (after.map Prod.snd)) :
      Answer (before ++ (here, '[') :: after) (some (.unclosedOpening here))

theorem answer_none_iff {l : List (Location × Char)} :
    Answer l none ↔ Balanced (l.map Prod.snd) := by
  constructor
  · intro h
    cases h with
    | accepted h => exact h
  · exact .accepted

theorem exists_answer (l : List (Location × Char)) : ∃ answer, Answer l answer := by
  generalize hflat : l.map Prod.snd = flat
  cases shape flat with
  | balanced h =>
    subst hflat
    exact ⟨none, .accepted h⟩
  | stray hbefore after =>
    obtain ⟨before, l₁, rfl, rfl, hl₁⟩ := List.map_eq_append_iff.mp hflat
    obtain ⟨⟨here, c⟩, after, rfl, rfl, rfl⟩ := List.map_eq_cons_iff.mp hl₁
    exact ⟨_, .stray hbefore here after⟩
  | unclosed hbefore hafter =>
    obtain ⟨before, l₁, rfl, rfl, hl₁⟩ := List.map_eq_append_iff.mp hflat
    obtain ⟨⟨here, c⟩, after, rfl, rfl, rfl⟩ := List.map_eq_cons_iff.mp hl₁
    exact ⟨_, .unclosed hbefore here hafter⟩

theorem scan_of_answer {l : List (Location × Char)} {answer : Option SyntaxError}
    (h : Answer l answer) (outermost : Location) : scan 0 outermost l = answer := by
  cases h with
  | accepted h =>
    have hscan := scan_append_of_balanced h l rfl 0 outermost []
    rw [List.append_nil] at hscan
    rw [hscan, scan]
  | stray h here after => rw [scan_append_of_balanced h _ rfl, scan_closing_zero]
  | unclosed h here hafter =>
    rw [scan_append_of_balanced h _ rfl, scan_opening, if_pos rfl, scan_of_opens hafter _ rfl]

/-- **The check answers what it is meant to answer**: there is an answer for every shape, and no
program has two. -/
theorem scan_eq_iff {l : List (Location × Char)} {answer : Option SyntaxError}
    {outermost : Location} : scan 0 outermost l = answer ↔ Answer l answer := by
  constructor
  · intro h
    obtain ⟨answer', hanswer⟩ := exists_answer l
    obtain rfl := (scan_of_answer hanswer outermost).symm.trans h
    exact hanswer
  · intro h
    exact scan_of_answer h outermost

end Bracket

namespace Source

theorem syntaxError?_eq_iff {source : Source} {answer : Option SyntaxError} :
    source.syntaxError? = answer ↔ Bracket.Answer source.located answer :=
  Bracket.scan_eq_iff

/-- **A program is accepted exactly when its brackets are balanced.** -/
theorem syntaxError?_eq_none_iff {source : Source} :
    source.syntaxError? = none ↔ Bracket.Balanced source.chars := by
  rw [syntaxError?_eq_iff, Bracket.answer_none_iff, map_snd_located]

end Source

end TapeMachine
