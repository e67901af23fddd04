import TapeMachine.Text.Blank

/-!
# Texts with blanks around them

Taking the blanks off both ends of a text leaves the part that stands between them.  That part is found
again from the text alone: it is the one with blanks around it and none at its own ends.

## Main definitions

* `Text.Blanks` — a text of blanks.
* `Text.Padded` — a text with blanks around a part of it.
* `Text.Trimmed` — a text with no blank at either end.

## Main results

* `Text.trim_eq_iff` — what is left is the part with blanks around it and none at its ends.
* `Text.Padded.trim_eq` — blanks around a text do not matter.
-/

namespace TapeMachine.Text

/-- A text that holds nothing but blanks. -/
def Blanks (text : List Char) : Prop :=
  ∀ c ∈ text, isBlank c

/-- A text that is a part of it with any blanks around. -/
def Padded (part text : List Char) : Prop :=
  ∃ before after, Blanks before ∧ Blanks after ∧ text = before ++ part ++ after

/-- A text with no blank at either end. -/
def Trimmed (text : List Char) : Prop :=
  (∀ c, text.head? = some c → isBlank c = false) ∧ ∀ c, text.getLast? = some c → isBlank c = false

variable {text part before after : List Char}

instance : Decidable (Blanks text) :=
  decidable_of_iff (text.all isBlank = true) List.all_eq_true

@[simp] theorem blanks_nil : Blanks [] := by
  simp [Blanks]

theorem Blanks.append (hbefore : Blanks before) (hafter : Blanks after) : Blanks (before ++ after) :=
  List.forall_mem_append.mpr ⟨hbefore, hafter⟩

theorem Blanks.reverse (h : Blanks text) : Blanks text.reverse :=
  fun c hc => h c (List.mem_reverse.mp hc)

theorem padded_append_left (h : Blanks before) (part : List Char) : Padded part (before ++ part) :=
  ⟨before, [], h, blanks_nil, by simp⟩

theorem padded_append_right (h : Blanks after) (part : List Char) : Padded part (part ++ after) :=
  ⟨[], after, blanks_nil, h, by simp⟩

/-! ### Blanks at the start -/

theorem trimStart_append (h : Blanks before) (text : List Char) :
    trimStart (before ++ text) = trimStart text :=
  List.dropWhile_append_of_pos h

theorem trimStart_eq_self (h : ∀ c, text.head? = some c → isBlank c = false) :
    trimStart text = text := by
  cases text with
  | nil => rfl
  | cons c text => rw [trimStart, List.dropWhile_cons_of_neg (by simp [h c rfl])]

/-- What is taken off the start is blank, and what is left does not start with a blank. -/
theorem exists_trimStart (text : List Char) : ∃ before, Blanks before ∧
    text = before ++ trimStart text ∧
    ∀ c, (trimStart text).head? = some c → isBlank c = false := by
  refine ⟨text.takeWhile isBlank, fun c hc => ?_, List.takeWhile_append_dropWhile.symm, ?_⟩
  · exact List.all_eq_true.mp List.all_takeWhile c hc
  · intro c hc
    have hstop := List.head?_dropWhile_not isBlank text
    rw [trimStart] at hc
    rwa [hc] at hstop

/-! ### Blanks at both ends -/

/-- Blanks around a text that has none at its ends are taken off. -/
theorem trim_append_append (hbefore : Blanks before) (hafter : Blanks after) (h : Trimmed part) :
    trim (before ++ part ++ after) = part := by
  obtain ⟨hhead, hlast⟩ := h
  have hback : trimStart (after.reverse ++ part.reverse) = part.reverse := by
    rw [trimStart_append hafter.reverse, trimStart_eq_self]
    intro c hc
    exact hlast c (by rwa [List.head?_reverse] at hc)
  rw [trim, List.append_assoc, trimStart_append hbefore]
  cases part with
  | nil =>
    have hnothing : trimStart (after ++ []) = [] := trimStart_append hafter []
    rw [List.append_nil] at hnothing
    rw [List.nil_append, hnothing]
    rfl
  | cons c part =>
    have hfront : trimStart (c :: part ++ after) = c :: part ++ after :=
      trimStart_eq_self fun c' hc' => hhead c' (by simpa using hc')
    rw [hfront, List.reverse_append, hback, List.reverse_reverse]

/-- What is taken off the end is blank, and what is left does not end with a blank. -/
theorem exists_trim (text : List Char) : ∃ after, Blanks after ∧
    trimStart text = trim text ++ after ∧
    ∀ c, (trim text).getLast? = some c → isBlank c = false := by
  obtain ⟨after, hafter, hmiddle, hlast⟩ := exists_trimStart (trimStart text).reverse
  refine ⟨after.reverse, hafter.reverse, ?_, fun c hc => hlast c ?_⟩
  · have hreverse := congrArg List.reverse hmiddle
    rwa [List.reverse_reverse, List.reverse_append] at hreverse
  · rwa [trim, List.getLast?_reverse] at hc

theorem head?_trim (text : List Char) : (trim text).head? = (trimStart text).head? := by
  obtain ⟨-, -, -, hhead⟩ := exists_trimStart text
  obtain ⟨after, hafter, hstart, -⟩ := exists_trim text
  cases htrim : trim text with
  | cons c rest => rw [hstart, htrim, List.cons_append, List.head?_cons, List.head?_cons]
  | nil =>
    -- what is left before the end is trimmed does not start with a blank, so it is nothing either
    rw [htrim, List.nil_append] at hstart
    cases after with
    | nil => rw [hstart]
    | cons c rest =>
      have hblank := hafter c List.mem_cons_self
      rw [hhead c (by rw [hstart, List.head?_cons])] at hblank
      cases hblank

/-- Every text is what is left of it with blanks around. -/
theorem padded_trim (text : List Char) : Trimmed (trim text) ∧ Padded (trim text) text := by
  obtain ⟨before, hbefore, htext, hhead⟩ := exists_trimStart text
  obtain ⟨after, hafter, hstart, hlast⟩ := exists_trim text
  refine ⟨⟨fun c hc => hhead c (by rwa [← head?_trim]), hlast⟩, before, after, hbefore, hafter, ?_⟩
  rw [List.append_assoc, ← hstart]
  exact htext

/-- **What is left is the part with blanks around it and none at its own ends.** -/
theorem trim_eq_iff : trim text = part ↔ Trimmed part ∧ Padded part text := by
  constructor
  · rintro rfl
    exact padded_trim text
  · rintro ⟨htrimmed, before, after, hbefore, hafter, rfl⟩
    exact trim_append_append hbefore hafter htrimmed

/-- **Blanks around a text do not matter.** -/
theorem Padded.trim_eq (h : Padded part text) : trim text = trim part := by
  obtain ⟨before, after, hbefore, hafter, rfl⟩ := h
  obtain ⟨htrimmed, before', after', hbefore', hafter', hpart⟩ := padded_trim part
  refine trim_eq_iff.mpr ⟨htrimmed, before ++ before', after' ++ after, hbefore.append hbefore',
    hafter'.append hafter, ?_⟩
  calc before ++ part ++ after
      = before ++ (before' ++ trim part ++ after') ++ after := by rw [← hpart]
    _ = before ++ before' ++ trim part ++ (after' ++ after) := by simp only [List.append_assoc]

theorem Trimmed.trim_eq (h : Trimmed text) : trim text = text :=
  trim_eq_iff.mpr ⟨h, [], [], blanks_nil, blanks_nil, by simp⟩

/-- Blanks around a text add no other characters. -/
theorem Padded.mem_iff {c : Char} (h : Padded part text) (hc : isBlank c = false) :
    c ∈ text ↔ c ∈ part := by
  obtain ⟨before, after, hbefore, hafter, rfl⟩ := h
  have hblank : ∀ {blanks : List Char}, Blanks blanks → c ∉ blanks := fun hblanks hmem => by
    rw [hblanks c hmem] at hc
    cases hc
  simp [hblank hbefore, hblank hafter]

theorem mem_trim_iff {c : Char} (hc : isBlank c = false) : c ∈ trim text ↔ c ∈ text :=
  ((padded_trim text).2.mem_iff hc).symm

theorem trimmed_of_forall (h : ∀ c ∈ text, isBlank c = false) : Trimmed text :=
  ⟨fun c hc => h c (List.mem_of_head? hc), fun c hc => h c (List.mem_of_getLast? hc)⟩

theorem trimmed_between {first last : Char} (hfirst : isBlank first = false)
    (hlast : isBlank last = false) (inner : List Char) : Trimmed (first :: (inner ++ [last])) := by
  refine ⟨fun c hc => ?_, fun c hc => ?_⟩
  · obtain rfl : first = c := by simpa using hc
    exact hfirst
  · rw [← List.cons_append, List.getLast?_concat] at hc
    obtain rfl : last = c := by simpa using hc
    exact hlast

theorem trimmed_of_trim_eq (h : trim text = text) : Trimmed text :=
  (trim_eq_iff.mp h).1

theorem trim_eq_nil_iff : trim text = [] ↔ Blanks text := by
  constructor
  · intro h
    obtain ⟨-, before, after, hbefore, hafter, htext⟩ := trim_eq_iff.mp h
    rw [htext, List.append_nil]
    exact hbefore.append hafter
  · intro h
    exact trim_eq_iff.mpr ⟨by simp [Trimmed], text, [], h, blanks_nil, by simp⟩

theorem head?_trim_cons {c : Char} (hc : isBlank c = false) (text : List Char) :
    (trim (c :: text)).head? = some c := by
  rw [head?_trim, trimStart_eq_self, List.head?_cons]
  intro c' hc'
  obtain rfl : c = c' := by simpa using hc'
  exact hc

/-- What a text starts with, blanks apart, does not depend on what stands behind it. -/
theorem head?_trim_append (h : ¬ Blanks text) (after : List Char) :
    (trim (text ++ after)).head? = (trim text).head? := by
  obtain ⟨before, hbefore, htext, hhead⟩ := exists_trimStart text
  have hne : trimStart text ≠ [] := by
    intro hnil
    rw [hnil, List.append_nil] at htext
    exact h (htext ▸ hbefore)
  obtain ⟨c, rest, hrest⟩ := List.exists_cons_of_ne_nil hne
  have hstart : trimStart (text ++ after) = trimStart text ++ after := by
    calc trimStart (text ++ after)
        = trimStart (before ++ (trimStart text ++ after)) := by rw [← List.append_assoc, ← htext]
      _ = trimStart text ++ after := by
        rw [trimStart_append hbefore, trimStart_eq_self]
        intro c' hc'
        exact hhead c' (by rwa [hrest] at hc' ⊢)
  rw [head?_trim, head?_trim, hstart, hrest]
  rfl

theorem trim_reverse (text : List Char) : trim text.reverse = (trim text).reverse := by
  obtain ⟨⟨hhead, hlast⟩, before, after, hbefore, hafter, htext⟩ := padded_trim text
  refine trim_eq_iff.mpr ⟨⟨fun c hc => hlast c ?_, fun c hc => hhead c ?_⟩,
    after.reverse, before.reverse, hafter.reverse, hbefore.reverse, ?_⟩
  · rwa [List.head?_reverse] at hc
  · rwa [List.getLast?_reverse] at hc
  · have hreverse := congrArg List.reverse htext
    simpa [List.append_assoc] using hreverse

/-- What a text ends with, blanks apart, does not depend on what stands in front of it. -/
theorem getLast?_trim_append (before : List Char) (h : ¬ Blanks text) :
    (trim (before ++ text)).getLast? = (trim text).getLast? := by
  have hreverse : ¬ Blanks text.reverse := fun hblanks => h (by simpa using hblanks.reverse)
  have hhead := head?_trim_append hreverse before.reverse
  rwa [← List.reverse_append, trim_reverse, trim_reverse, List.head?_reverse,
    List.head?_reverse] at hhead

end TapeMachine.Text
