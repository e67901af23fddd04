import TapeMachine.Bracket.JumpTable
import TapeMachine.Proofs.Bracket.Balanced

/-!
# The jump table pairs partners

The one pass that builds the table keeps the opening brackets that still wait.  A balanced stream
leaves the waiting brackets as they were, and an entry is final once its bracket neither waits nor
lies ahead; so the entries of two partners are written together and never again.

## Main results

* `JumpTable.pairFrom_append_of_balanced` — a balanced stream leaves the waiting brackets alone.
* `JumpTable.partner?_eq_of_pairFrom` — what is no bracket, and what is behind and does not wait, keeps
  its entry.
* `JumpTable.exists_ofChars_eq_ok` — a balanced stream has a table.
* `JumpTable.partner?_of_matched` — the table of a stream knows both partners of every pair.
-/

namespace TapeMachine

namespace JumpTable

open TapeMachine.Bracket

/-- The number of indices that a table covers. -/
def size (table : JumpTable) : Nat :=
  table.partners.size

/-! ### One entry -/

@[simp] theorem size_pair (table : JumpTable) (i j : Nat) : (table.pair i j).size = table.size := by
  simp [pair, size]

theorem partner?_pair_of_ne (table : JumpTable) {i j k : Nat} (hi : k ≠ i) (hj : k ≠ j) :
    (table.pair i j).partner? k = table.partner? k := by
  simp [pair, partner?, Array.getElem?_setIfInBounds_ne, hi.symm, hj.symm]

theorem partner?_pair_left (table : JumpTable) {i j : Nat} (hij : i ≠ j) (hi : i < table.size) :
    (table.pair i j).partner? i = some j := by
  rw [size] at hi
  simp [pair, partner?, hij.symm, hi]

theorem partner?_pair_right (table : JumpTable) {i j : Nat} (hj : j < table.size) :
    (table.pair i j).partner? j = some i := by
  rw [size] at hj
  simp [pair, partner?, hj]

/-! ### One character -/

section

variable (index innermost : Nat) (waiting : List Nat) (table : JumpTable) (flat : List Char)

@[simp] theorem pairFrom_nil_nil : pairFrom index [] table [] = .ok table := rfl

@[simp] theorem pairFrom_opening : pairFrom index waiting table ('[' :: flat) =
    pairFrom (index + 1) (index :: waiting) table flat := by
  cases waiting <;> simp [pairFrom]

@[simp] theorem pairFrom_closing_nil :
    pairFrom index [] table (']' :: flat) = .error (.unmatched index) := by
  simp [pairFrom]

@[simp] theorem pairFrom_closing_cons : pairFrom index (innermost :: waiting) table (']' :: flat) =
    pairFrom (index + 1) waiting (table.pair innermost index) flat := by
  simp [pairFrom]

theorem pairFrom_comment {c : Char} (hopening : c ≠ '[') (hclosing : c ≠ ']') :
    pairFrom index waiting table (c :: flat) = pairFrom (index + 1) waiting table flat := by
  cases waiting <;> simp [pairFrom, hopening, hclosing]

end

/-! ### Balanced streams -/

/-- **A balanced stream leaves the waiting brackets alone.** -/
theorem pairFrom_append_of_balanced {flat : List Char} (h : Balanced flat) :
    ∀ (index : Nat) (waiting : List Nat) (table : JumpTable) (rest : List Char),
      ∃ table', table'.size = table.size ∧ pairFrom index waiting table (flat ++ rest) =
        pairFrom (index + flat.length) waiting table' rest := by
  induction h with
  | nil =>
    intro index waiting table rest
    exact ⟨table, rfl, rfl⟩
  | @comment c flat hopening hclosing _ ih =>
    intro index waiting table rest
    obtain ⟨table', hsize, hpass⟩ := ih (index + 1) waiting table rest
    refine ⟨table', hsize, ?_⟩
    rw [List.cons_append, pairFrom_comment _ _ _ _ hopening hclosing, hpass, List.length_cons,
      Nat.add_right_comm, Nat.add_assoc]
  | @pair inner flat _ _ ihinner ihflat =>
    intro index waiting table rest
    -- the opening bracket waits over the inner stream and is taken off by its partner
    obtain ⟨table₁, hsize₁, hpass₁⟩ :=
      ihinner (index + 1) (index :: waiting) table (']' :: (flat ++ rest))
    obtain ⟨table₂, hsize₂, hpass₂⟩ :=
      ihflat (index + 1 + inner.length + 1) waiting (table₁.pair index (index + 1 + inner.length)) rest
    refine ⟨table₂, by rw [hsize₂, size_pair, hsize₁], ?_⟩
    have hlen : index + ('[' :: (inner ++ ']' :: flat)).length =
        index + 1 + inner.length + 1 + flat.length := by
      rw [List.length_cons, List.length_append, List.length_cons]
      omega
    rw [List.cons_append, List.append_assoc, List.cons_append, pairFrom_opening, hpass₁,
      pairFrom_closing_cons, hpass₂, hlen]

/-- A balanced stream has a table. -/
theorem exists_ofChars_eq_ok {flat : List Char} (h : Balanced flat) :
    ∃ table, ofChars flat = .ok table := by
  obtain ⟨table, -, hpass⟩ :=
    pairFrom_append_of_balanced h 0 [] ⟨Array.replicate flat.length none⟩ []
  rw [List.append_nil] at hpass
  exact ⟨table, by rw [ofChars, hpass, pairFrom_nil_nil]⟩

/-! ### Final entries -/

/-- **An entry is written for a bracket that waits or lies ahead, and for nothing else**; so what is
behind and does not wait is final. -/
theorem partner?_eq_of_pairFrom {k : Nat} : ∀ {flat : List Char} {index : Nat} {waiting : List Nat}
    {table table' : JumpTable}, pairFrom index waiting table flat = .ok table' →
      (∀ n, index + n = k → flat[n]? ≠ some '[' ∧ flat[n]? ≠ some ']') → k ∉ waiting →
        table'.partner? k = table.partner? k := by
  intro flat
  induction flat with
  | nil =>
    intro index waiting table table' h hahead hwaiting
    cases waiting with
    | nil => cases h; rfl
    | cons innermost outer => cases h
  | cons c flat ih =>
    intro index waiting table table' h hahead hwaiting
    have hahead' : ∀ n, index + 1 + n = k → flat[n]? ≠ some '[' ∧ flat[n]? ≠ some ']' := by
      intro n hn
      have hnext := hahead (n + 1) (by omega)
      rwa [List.getElem?_cons_succ] at hnext
    cases c using char_cases with
    | opening =>
      have hne : k ≠ index := fun hk => (hahead 0 hk.symm).1 rfl
      rw [pairFrom_opening] at h
      refine ih h hahead' ?_
      rw [List.mem_cons, not_or]
      exact ⟨hne, hwaiting⟩
    | closing =>
      have hne : k ≠ index := fun hk => (hahead 0 hk.symm).2 rfl
      cases waiting with
      | nil => rw [pairFrom_closing_nil] at h; cases h
      | cons innermost outer =>
        rw [pairFrom_closing_cons] at h
        rw [List.mem_cons, not_or] at hwaiting
        rw [ih h hahead' hwaiting.2, partner?_pair_of_ne _ hwaiting.1 hne]
    | comment c hopening hclosing =>
      rw [pairFrom_comment _ _ _ _ hopening hclosing] at h
      exact ih h hahead' hwaiting

/-- A pass that succeeds stands, behind any part of the stream, with some brackets waiting that are
all behind it. -/
theorem exists_pairFrom_of_append {rest : List Char} {table' : JumpTable} : ∀ {flat : List Char}
    {index : Nat} {waiting : List Nat} {table : JumpTable},
      pairFrom index waiting table (flat ++ rest) = .ok table' → (∀ k ∈ waiting, k < index) →
        ∃ waiting' table₁, pairFrom (index + flat.length) waiting' table₁ rest = .ok table' ∧
          table₁.size = table.size ∧ ∀ k ∈ waiting', k < index + flat.length := by
  intro flat
  induction flat with
  | nil =>
    intro index waiting table h hwaiting
    exact ⟨waiting, table, h, rfl, hwaiting⟩
  | cons c flat ih =>
    intro index waiting table h hwaiting
    have hlen : index + (c :: flat).length = index + 1 + flat.length := by
      rw [List.length_cons]
      omega
    rw [hlen]
    rw [List.cons_append] at h
    cases c using char_cases with
    | opening =>
      rw [pairFrom_opening] at h
      refine ih h fun k hk => ?_
      rcases List.mem_cons.mp hk with rfl | hk
      · exact Nat.lt_succ_self k
      · exact Nat.lt_succ_of_lt (hwaiting k hk)
    | closing =>
      cases waiting with
      | nil => rw [pairFrom_closing_nil] at h; cases h
      | cons innermost outer =>
        rw [pairFrom_closing_cons] at h
        obtain ⟨waiting', table₁, hrest, hsize, hlt⟩ := ih h fun k hk =>
          Nat.lt_succ_of_lt (hwaiting k (List.mem_cons_of_mem innermost hk))
        exact ⟨waiting', table₁, hrest, by rw [hsize, size_pair], hlt⟩
    | comment c hopening hclosing =>
      rw [pairFrom_comment _ _ _ _ hopening hclosing] at h
      exact ih h fun k hk => Nat.lt_succ_of_lt (hwaiting k hk)

/-- **The table of a stream knows both partners of every pair.** -/
theorem partner?_of_matched {flat : List Char} {table : JumpTable} {i j : Nat}
    (htable : ofChars flat = .ok table) (h : Matched flat i j) :
    table.partner? i = some j ∧ table.partner? j = some i := by
  obtain ⟨before, inner, after, rfl, hinner, rfl, rfl⟩ := h
  obtain ⟨waiting, table₁, hpass₁, hsize₁, hwaiting⟩ :=
    exists_pairFrom_of_append htable fun k hk => absurd hk List.not_mem_nil
  rw [Nat.zero_add, pairFrom_opening] at hpass₁
  obtain ⟨table₂, hsize₂, hpass₂⟩ := pairFrom_append_of_balanced hinner (before.length + 1)
    (before.length :: waiting) table₁ (']' :: after)
  rw [hpass₂, pairFrom_closing_cons] at hpass₁
  have hsize : before.length + 1 + inner.length < table₂.size := by
    rw [hsize₂, hsize₁, size, Array.size_replicate, List.length_append, List.length_cons,
      List.length_append, List.length_cons]
    omega
  -- behind the closing bracket both entries are final: neither index waits any more
  have hfinal : ∀ k, before.length ≤ k → k ≤ before.length + 1 + inner.length →
      table.partner? k =
        (table₂.pair before.length (before.length + 1 + inner.length)).partner? k := by
    intro k hge hle
    refine partner?_eq_of_pairFrom hpass₁ (fun n hn => absurd hn (by omega)) fun hk => ?_
    have hlt := hwaiting k hk
    omega
  rw [hfinal before.length (Nat.le_refl _) (by omega), hfinal _ (by omega) (Nat.le_refl _)]
  exact ⟨partner?_pair_left _ (by omega) (by omega), partner?_pair_right _ hsize⟩

end JumpTable

end TapeMachine
