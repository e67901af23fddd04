import TapeMachine.Settings

/-!
# Numbers in settings

A number is written in decimal: at least one digit, with a plus sign in front or without, and zeros in
front do not matter.  Each setting has a range, and the blanks around its number do not count.

## Main definitions

* `Decimal.Spells` — a text is a decimal number.
* `Setting.Reads` — a text gives a setting a number of its range.

## Main results

* `Decimal.read?_eq_some_iff` — what is read is what is spelt, within the bound.
* `Setting.parse_eq_ok_iff`, `Setting.parse_eq_error_iff` — what a setting is given, and when it is
  given nothing.
-/

namespace TapeMachine

namespace Decimal

/-- A text spells a number: decimal digits, at least one, behind a plus sign or not. -/
def Spells (text : List Char) (number : Nat) : Prop :=
  ∃ digits : List Char, (text = digits ∨ text = '+' :: digits) ∧ digits ≠ [] ∧
    (∀ c ∈ digits, c.isDigit) ∧ Nat.ofDigitChars 10 digits 0 = number

theorem readDigits_eq_some_iff {text : List Char} : ∀ {value number : Nat},
    readDigits value text = some number ↔
      (∀ c ∈ text, c.isDigit) ∧ Nat.ofDigitChars 10 text value = number := by
  induction text with
  | nil => simp [readDigits]
  | cons c text ih =>
    intro value number
    rw [readDigits, Nat.ofDigitChars_cons]
    split
    · next hdigit => rw [ih, List.forall_mem_cons, and_iff_right hdigit]
    · next hdigit => simp [hdigit]

theorem dropPlus_of_digits {digits : List Char} (h : ∀ c ∈ digits, c.isDigit) :
    dropPlus digits = digits := by
  cases digits with
  | nil => rfl
  | cons c digits =>
    have hplus : c ≠ '+' := by
      rintro rfl
      exact absurd (h '+' List.mem_cons_self) (by decide)
    simp [dropPlus, hplus]

theorem eq_or_eq_of_dropPlus (text : List Char) :
    text = dropPlus text ∨ text = '+' :: dropPlus text := by
  unfold dropPlus
  split
  · exact .inr rfl
  · exact .inl rfl

/-- **What is read is what is spelt**, within the bound. -/
theorem read?_eq_some_iff {bound number : Nat} {text : List Char} :
    read? bound text = some number ↔ Spells text number ∧ number ≤ bound := by
  have hread : ∀ digits : List Char, dropPlus text = digits → digits ≠ [] →
      (read? bound text = some number ↔
        (∀ c ∈ digits, c.isDigit) ∧ Nat.ofDigitChars 10 digits 0 = number ∧ number ≤ bound) := by
    rintro digits hdrop hne
    obtain ⟨c, cs, rfl⟩ := List.exists_cons_of_ne_nil hne
    rw [read?, hdrop]
    simp only [Option.filter_eq_some_iff, readDigits_eq_some_iff, decide_eq_true_eq, and_assoc]
  constructor
  · intro h
    have hne : dropPlus text ≠ [] := by
      intro hnil
      rw [read?, hnil] at h
      cases h
    obtain ⟨hdigits, hvalue, hbound⟩ := (hread _ rfl hne).mp h
    exact ⟨⟨_, eq_or_eq_of_dropPlus text, hne, hdigits, hvalue⟩, hbound⟩
  · rintro ⟨⟨digits, htext, hne, hdigits, hvalue⟩, hbound⟩
    have hdrop : dropPlus text = digits := by
      rcases htext with rfl | rfl
      · exact dropPlus_of_digits hdigits
      · rfl
    exact (hread digits hdrop hne).mpr ⟨hdigits, hvalue, hbound⟩

end Decimal

namespace Setting

/-- A text gives a setting a number: it spells one of the range, blanks at its ends apart. -/
def Reads (setting : Setting) (value : String) (number : Nat) : Prop :=
  Decimal.Spells (Text.trim value.toList) number ∧ number ≤ setting.bound

variable {setting : Setting} {name value : String}

theorem parse_eq_ok_iff {number : Nat} :
    setting.parse name value = .ok number ↔ setting.Reads value number := by
  rw [Reads, ← Decimal.read?_eq_some_iff, parse]
  cases Decimal.read? setting.bound (Text.trim value.toList) <;> simp

/-- A text gives a setting one number at most. -/
theorem Reads.unique {number number' : Nat} (h : setting.Reads value number)
    (h' : setting.Reads value number') : number = number' := by
  have hparse : setting.parse value value = .ok number := parse_eq_ok_iff.mpr h
  rw [parse_eq_ok_iff.mpr h'] at hparse
  exact (Except.ok.inj hparse).symm

/-- A text that gives no number is shown as it is, under the name that it was given. -/
theorem parse_eq_error_iff {error : SettingsError} :
    setting.parse name value = .error error ↔
      (∀ number, ¬ setting.Reads value number) ∧ error = .invalidNumber name value := by
  have hreads : ∀ number, setting.Reads value number ↔ setting.parse name value = .ok number :=
    fun _ => parse_eq_ok_iff.symm
  simp only [hreads, parse]
  cases Decimal.read? setting.bound (Text.trim value.toList) <;> simp [eq_comm]

end Setting

end TapeMachine
