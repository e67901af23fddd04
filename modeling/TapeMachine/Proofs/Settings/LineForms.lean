import Mathlib.Data.List.TakeWhile
import TapeMachine.Proofs.Blanks
import TapeMachine.Proofs.Settings.Assignments

/-!
# The forms of a line of a settings file

A line of a settings file is taken apart by the few characters that mean something in it.  Here the
forms of a line are said in terms of the text alone, by what stands between those characters: a header
stands in square brackets, a remark is blank or starts with a number sign, and any other line with an
equals sign is an assignment.

## Main definitions

* `Settings.IsHeader`, `Settings.IsRemark`, `Settings.Assigns` — the forms of a line.
* `Settings.Unquoted`, `Settings.BeforeSign` — the value of an assignment.

## Main results

* `Settings.FileLine.ofLine_eq_header_iff`, `Settings.FileLine.ofLine_eq_assignment_iff` — a line is read
  by its form.
-/

namespace TapeMachine.Settings

/-- A line in square brackets, blanks at its ends apart; the name is what stands between them. -/
def IsHeader (line : Line) (name : List Char) : Prop :=
  ∃ inner, Text.trim line = '[' :: (inner ++ [']']) ∧ Text.trim inner = name

/-- A line that is blank or starts with a number sign. -/
def IsRemark (line : Line) : Prop :=
  Text.trim line = [] ∨ ∃ comment, Text.trim line = '#' :: comment

/-- A text without the one pair of double quotes that it may stand in. -/
inductive Unquoted : List Char → List Char → Prop
  /-- The text stands in quotes. -/
  | quoted (value : List Char) : Unquoted ('\"' :: (value ++ ['\"'])) value
  /-- The text does not stand in quotes. -/
  | plain {text : List Char} (h : ∀ value, text ≠ '\"' :: (value ++ ['\"'])) : Unquoted text text

/-- What stands in front of the first number sign of a text, or the whole text if it has none. -/
def BeforeSign (part text : List Char) : Prop :=
  '#' ∉ part ∧ (text = part ∨ ∃ comment, text = part ++ '#' :: comment)

/-- A line with an equals sign: the key is what stands before the first one, and the value what stands
between it and the next number sign. -/
def Equates (line : Line) (key value : List Char) : Prop :=
  ∃ left right part, Text.trim line = left ++ '=' :: right ∧ '=' ∉ left ∧ Text.trim left = key ∧
    BeforeSign part right ∧ Unquoted (Text.trim part) value

/-- A line that is neither a remark nor a header assigns the value to the key. -/
def Assigns (line : Line) (key value : List Char) : Prop :=
  ¬ IsRemark line ∧ (∀ name, ¬ IsHeader line name) ∧ Equates line key value

variable {text part name key value : List Char} {line : Line} {setting : Setting}

/-! ### Brackets, quotes and signs -/

theorem bracketed?_eq_some_iff : bracketed? text = some name ↔ text = '[' :: (name ++ [']']) := by
  constructor
  · intro h
    unfold bracketed? at h
    split at h
    · split at h
      · next hlast =>
        obtain ⟨inner, rfl⟩ := List.getLast?_eq_some_iff.mp hlast
        rw [List.dropLast_concat] at h
        rw [Option.some.inj h]
      · cases h
    · cases h
  · rintro rfl
    exact bracketed?_between name

theorem unquote_eq_iff : unquote text = value ↔ Unquoted text value := by
  by_cases hquoted : ∃ value, text = '\"' :: (value ++ ['\"'])
  · obtain ⟨inner, rfl⟩ := hquoted
    rw [unquote_between]
    constructor
    · rintro rfl
      exact .quoted inner
    · intro h
      generalize htext : '\"' :: (inner ++ ['\"']) = text at h
      cases h with
      | quoted value => simpa using htext
      | plain hplain => exact absurd htext.symm (hplain inner)
  · have hplain : ∀ value, text ≠ '\"' :: (value ++ ['\"']) := not_exists.mp hquoted
    have hself : unquote text = text := by
      unfold unquote
      split
      · split
        · next hlast =>
          obtain ⟨inner, rfl⟩ := List.getLast?_eq_some_iff.mp hlast
          exact absurd rfl (hplain inner)
        · rfl
      · rfl
    rw [hself]
    constructor
    · rintro rfl
      exact .plain hplain
    · intro h
      cases h with
      | quoted => exact absurd rfl (hplain value)
      | plain => rfl

theorem key_ne_nil (setting : Setting) : setting.key.toList ≠ [] := by
  cases setting <;> decide

theorem trim_key (setting : Setting) : Text.trim setting.key.toList = setting.key.toList := by
  cases setting <;> decide

/-- The key of a setting has none of the characters that mean something in a line. -/
theorem isAlpha_of_mem_key {c : Char} (h : c ∈ setting.key.toList) : c.isAlpha ∨ c = '_' := by
  have hkey : setting.key.toList.all (fun c => c.isAlpha || c == '_') = true := by
    cases setting <;> decide
  simpa using List.all_eq_true.mp hkey c h

theorem takeWhile_eq_iff_beforeSign :
    text.takeWhile (· != '#') = part ↔ BeforeSign part text := by
  have hwhole : '#' ∉ text → text.takeWhile (· != '#') = text := fun h =>
    List.takeWhile_eq_self_iff.mpr (Text.bne_of_notMem h)
  constructor
  · rintro rfl
    by_cases hsign : '#' ∈ text
    · obtain ⟨before, after, rfl, htake, -⟩ := Text.exists_split_at hsign
      rw [htake]
      refine ⟨fun hmem => ?_, .inr ⟨after, rfl⟩⟩
      rw [← htake] at hmem
      have hother := List.mem_takeWhile_imp hmem
      cases hother
    · rw [hwhole hsign]
      exact ⟨hsign, .inl rfl⟩
  · rintro ⟨hsign, rfl | ⟨comment, rfl⟩⟩
    · exact hwhole hsign
    · rw [List.takeWhile_append_of_pos (Text.bne_of_notMem hsign)]
      simp

/-! ### What a line is -/

/-- The sides of the first equals sign are the parts that are cut out. -/
theorem assignment?_append {left : List Char} (h : '=' ∉ left) (right : List Char) :
    assignment? (left ++ '=' :: right) =
      some (Text.trim left, unquote (Text.trim (right.takeWhile (· != '#')))) := by
  have hother := Text.bne_of_notMem h
  rw [assignment?, List.dropWhile_append_of_pos hother, List.takeWhile_append_of_pos hother]
  simp

theorem assignment?_eq_none (h : '=' ∉ text) : assignment? text = none := by
  have hnothing : text.dropWhile (· != '=') = [] :=
    List.dropWhile_eq_nil_iff.mpr (Text.bne_of_notMem h)
  rw [assignment?, hnothing]

theorem assignment?_eq_some_iff : assignment? text = some (key, value) ↔
    ∃ left right part, text = left ++ '=' :: right ∧ '=' ∉ left ∧ Text.trim left = key ∧
      BeforeSign part right ∧ Unquoted (Text.trim part) value := by
  constructor
  · intro h
    by_cases hsign : '=' ∈ text
    · obtain ⟨left, right, rfl, hleft⟩ := List.eq_append_cons_of_mem hsign
      rw [assignment?_append hleft] at h
      cases h
      exact ⟨left, right, _, rfl, hleft, rfl, takeWhile_eq_iff_beforeSign.mp rfl,
        unquote_eq_iff.mp rfl⟩
    · rw [assignment?_eq_none hsign] at h
      cases h
  · rintro ⟨left, right, part, rfl, hleft, rfl, hpart, hvalue⟩
    rw [assignment?_append hleft, takeWhile_eq_iff_beforeSign.mpr hpart, unquote_eq_iff.mpr hvalue]

namespace FileLine

/-- **A line is a header** if it stands in square brackets. -/
theorem ofLine_eq_header_iff : ofLine line = .header name ↔ IsHeader line name := by
  rw [ofLine, ofTrimmed, IsHeader]
  constructor
  · intro h
    split at h
    · cases h
    · split at h
      · next inner hbracketed =>
        cases h
        exact ⟨inner, bracketed?_eq_some_iff.mp hbracketed, rfl⟩
      · split at h <;> cases h
  · rintro ⟨inner, hline, rfl⟩
    rw [hline, if_neg (by simp), bracketed?_between]

/-- **A line assigns** if it is neither a remark nor a header and has an equals sign. -/
theorem ofLine_eq_assignment_iff :
    ofLine line = .assignment key value ↔ Assigns line key value := by
  rw [Assigns, Equates, ← assignment?_eq_some_iff]
  simp only [← ofLine_eq_header_iff]
  rw [ofLine, ofTrimmed]
  by_cases hsign : (Text.trim line).head? = some '#'
  · rw [if_pos hsign]
    refine iff_of_false ?_ fun h => h.1 (.inr (List.head?_eq_some_iff.mp hsign))
    intro h
    cases h
  · rw [if_neg hsign]
    cases hbracketed : bracketed? (Text.trim line) with
    | some inner =>
      refine iff_of_false ?_ fun h => h.2.1 _ rfl
      intro h
      cases h
    | none =>
      have hremark : ∀ pair, assignment? (Text.trim line) = some pair → ¬ IsRemark line := by
        rintro pair hpair (hblank | ⟨comment, hcomment⟩)
        · rw [hblank] at hpair
          cases hpair
        · exact hsign (by rw [hcomment, List.head?_cons])
      cases hassignment : assignment? (Text.trim line) with
      | none => simp
      | some pair => simp [hremark pair hassignment, Prod.ext_iff]

/-- The blanks at the ends of a line do not matter. -/
theorem ofLine_congr {line' : Line} (h : Text.trim line = Text.trim line') :
    ofLine line = ofLine line' := by
  rw [ofLine, ofLine, h]

end FileLine

instance : Decidable (IsHeader line name) :=
  decidable_of_iff (FileLine.ofLine line = .header name) FileLine.ofLine_eq_header_iff

/-! ### Lines with blanks in them -/

section Blanks

variable {left right after : List Char}

/-- The blanks behind a value, in front of a comment or not, do not matter. -/
theorem trim_takeWhile_append (h : Text.Blanks after) (right : List Char) :
    Text.trim ((right ++ after).takeWhile (· != '#')) = Text.trim (right.takeWhile (· != '#')) := by
  obtain ⟨hsign, hright | ⟨comment, hright⟩⟩ := takeWhile_eq_iff_beforeSign.mp (Eq.refl
    (right.takeWhile (· != '#')))
  · have hafter : '#' ∉ after := fun hmem => absurd (h '#' hmem) (by decide)
    have hwhole : BeforeSign (right ++ after) (right ++ after) := by
      rw [← hright] at hsign
      exact ⟨by simp [hsign, hafter], .inl rfl⟩
    rw [takeWhile_eq_iff_beforeSign.mpr hwhole, (Text.padded_append_right h right).trim_eq, ← hright]
  · have hpart : BeforeSign (right.takeWhile (· != '#')) (right ++ after) := by
      refine ⟨hsign, .inr ⟨comment ++ after, ?_⟩⟩
      rw [← List.cons_append, ← List.append_assoc, ← hright]
    rw [takeWhile_eq_iff_beforeSign.mpr hpart]

/-- **The sides of an assignment** can be read off the line as it stands. -/
theorem assignment?_trim_append (h : '=' ∉ left) (right : List Char) :
    assignment? (Text.trim (left ++ '=' :: right)) =
      some (Text.trim left, unquote (Text.trim (right.takeWhile (· != '#')))) := by
  obtain ⟨-, before, after, hbefore, hafter, hline⟩ := Text.padded_trim (left ++ '=' :: right)
  have hsign : '=' ∈ Text.trim (left ++ '=' :: right) := (Text.mem_trim_iff (by decide)).mpr (by simp)
  obtain ⟨left', right', htrim, hleft'⟩ := List.eq_append_cons_of_mem hsign
  have hsides : left ++ '=' :: right = (before ++ left') ++ '=' :: (right' ++ after) := by
    rw [hline, htrim]
    simp
  have hfront : '=' ∉ before ++ left' := by
    have hblank : '=' ∉ before := fun hmem => absurd (hbefore '=' hmem) (by decide)
    simp [hblank, hleft']
  -- the first equals sign of the line is that of the trimmed line
  have hleft : left = before ++ left' := by
    have htake := congrArg (List.takeWhile (· != '=')) hsides
    rw [List.takeWhile_append_of_pos (Text.bne_of_notMem h),
      List.takeWhile_append_of_pos (Text.bne_of_notMem hfront)] at htake
    simpa using htake
  subst hleft
  have hright : right = right' ++ after := by simpa using hsides
  rw [htrim, assignment?_append hleft', hright, trim_takeWhile_append hafter,
    (Text.padded_append_left hbefore left').trim_eq]

/-- A line that assigns to a setting starts with a letter. -/
theorem isAlpha_of_assignment? {c : Char}
    (h : assignment? (Text.trim line) = some (setting.key.toList, value))
    (hc : (Text.trim line).head? = some c) : c.isAlpha ∨ c = '_' := by
  obtain ⟨left, right, part, hline, -, hkey, -, -⟩ := assignment?_eq_some_iff.mp h
  have hblank : ¬ Text.Blanks left := by
    rw [← Text.trim_eq_nil_iff, hkey]
    exact key_ne_nil setting
  have hhead := Text.head?_trim_append hblank ('=' :: right)
  rw [← hline, (Text.padded_trim line).1.trim_eq, hc, hkey] at hhead
  exact isAlpha_of_mem_key (List.mem_of_head? hhead.symm)

namespace FileLine

theorem ofLine_of_blanks (h : Text.Blanks line) : ofLine line = .other := by
  rw [ofLine, Text.trim_eq_nil_iff.mpr h]
  rfl

theorem ofLine_of_sign (h : (Text.trim line).head? = some '#') : ofLine line = .other := by
  rw [ofLine, ofTrimmed, if_pos h]

/-- A line is idle that is no header and assigns to no setting. -/
theorem idle_ofLine (hheader : ∀ name, ¬ IsHeader line name)
    (hkey : ∀ (setting : Setting) value,
      assignment? (Text.trim line) ≠ some (setting.key.toList, value)) : (ofLine line).Idle := by
  refine ⟨fun name h => hheader name (ofLine_eq_header_iff.mp h), fun setting value h => ?_⟩
  exact hkey setting value (assignment?_eq_some_iff.mpr (ofLine_eq_assignment_iff.mp h).2.2)

/-- A line that starts neither as a remark nor as a header does is an assignment or nothing. -/
theorem ofLine_of_head (hsign : (Text.trim line).head? ≠ some '#')
    (hbracket : (Text.trim line).head? ≠ some '[') : ofLine line =
      match assignment? (Text.trim line) with
      | some (key, value) => .assignment key value
      | none => .other := by
  rewrite [ofLine, ofTrimmed, if_neg hsign, bracketed?_eq_none fun h => hbracket h.1]
  rfl

/-- A line that opens a bracket and does not close it at its end is idle. -/
theorem idle_of_bracket (h : (Text.trim line).head? = some '[')
    (hheader : ∀ name, ¬ IsHeader line name) : (ofLine line).Idle := by
  refine idle_ofLine hheader fun setting value hvalue => ?_
  exact absurd (isAlpha_of_assignment? hvalue h) (by decide)

/-- A line is an assignment to a setting if the key of the setting stands on the left. -/
theorem ofLine_of_key (h : '=' ∉ left) (hkey : Text.trim left = setting.key.toList)
    (right : List Char) : ofLine (left ++ '=' :: right) =
      .assignment setting.key.toList (unquote (Text.trim (right.takeWhile (· != '#')))) := by
  have hassignment := assignment?_trim_append h right
  rw [hkey] at hassignment
  -- a key starts with a letter, so the line is neither a remark nor a header
  have hletter : ∀ {c}, (Text.trim (left ++ '=' :: right)).head? = some c → c.isAlpha ∨ c = '_' :=
    isAlpha_of_assignment? hassignment
  rw [ofLine_of_head (fun hsign => absurd (hletter hsign) (by decide))
    (fun hbracket => absurd (hletter hbracket) (by decide)), hassignment]

end FileLine

end Blanks

end TapeMachine.Settings
