import Mathlib.Data.List.Forall2
import Mathlib.Data.List.ReduceOption
import TapeMachine.Proofs.Lines
import TapeMachine.Proofs.Settings.Harmless
import TapeMachine.Proofs.Settings.LineForms

/-!
# The spellings of a settings file

Settings can be written to a file in many ways.  The sections and the assignments may come in any order;
blanks, blank lines, comments and other keys may stand between them; a number may have a plus sign,
zeros in front and quotes around it.  However they are written, the same settings are read back, and
nothing is refused.

## Main definitions

* `Settings.Numeral`, `Settings.ValueSpelling` — a number as it may be written.
* `Settings.SectionLine` — a line of the section that counts.
* `Settings.Spelling` — a whole file.

## Main results

* `Settings.ValueSpelling.spells` — a value is read as the number that was written.
* `Settings.lastValue?_of_section` — what the section that counts holds of a setting.
* `Settings.FileReading.ofText_of_spelling` — every spelling is read back.
-/

namespace TapeMachine.Settings

/-- A number in decimal, with a plus sign or not, and with any number of zeros in front. -/
def Numeral (number : Nat) (text : List Char) : Prop :=
  ∃ sign zeros, sign ∈ [[], ['+']] ∧ text = sign ++ (List.replicate zeros '0' ++ Decimal.digits number)

/-- A number as it may stand in a file: as it is, or in double quotes with blanks around it. -/
inductive ValueSpelling (number : Nat) : List Char → Prop
  /-- The number as it is. -/
  | plain {text : List Char} (h : Numeral number text) : ValueSpelling number text
  /-- The number in quotes. -/
  | quoted {text inner : List Char} (h : Numeral number text) (hinner : Text.Padded text inner) :
      ValueSpelling number ('\"' :: (inner ++ ['\"']))

/-- A line of the section that counts, and what it assigns to which setting, if it does. -/
inductive SectionLine : Line → Option (Setting × Nat) → Prop
  /-- A blank line. -/
  | blank {line : Line} (h : Text.Blanks line) : SectionLine line none
  /-- A number sign and anything behind it. -/
  | remark {blanks : List Char} (h : Text.Blanks blanks) (comment : List Char) :
      SectionLine (blanks ++ '#' :: comment) none
  /-- An assignment to another key. -/
  | other {left right : List Char} (hleft : '=' ∉ left)
      (hkey : ∀ setting : Setting, ¬ Text.Padded setting.key.toList left)
      (hheader : ∀ name, ¬ IsHeader (left ++ '=' :: right) name) :
      SectionLine (left ++ '=' :: right) none
  /-- An assignment to a setting, with a comment behind it or not. -/
  | setting {setting : Setting} {number : Nat} {left value text comment : List Char}
      (hleft : Text.Padded setting.key.toList left) (hvalue : ValueSpelling number value)
      (htext : Text.Padded value text) (hcomment : comment = [] ∨ comment.head? = some '#') :
      SectionLine (left ++ '=' :: (text ++ comment)) (some (setting, number))

/-- What there is to write of the settings. -/
def assigned (settings : Settings) : List (Setting × Nat) :=
  settings.cellBits.toList.map (Prod.mk .cellBits) ++
    settings.memorySize.toList.map (Prod.mk .memorySize)

/-- A text that spells the settings.  The section that counts has each setting once, in any order, and
other lines that do no harm.  Before and after it there may be other sections with anything in them,
as long as no header names the section that counts; and a header starts what comes after it. -/
inductive Spelling (settings : Settings) : List Char → Prop
  /-- What comes before the section, its header, its lines, and what comes after them. -/
  | intro {before body after : List Line} {header : Line} {inner : List Char}
      {writes : List (Option (Setting × Nat))} {text : List Char}
      (hbefore : ∀ line ∈ before, ¬ IsHeader line tapeSection)
      (hheader : Text.Padded ('[' :: (inner ++ [']'])) header)
      (hname : Text.Padded tapeSection inner)
      (hbody : List.Forall₂ SectionLine body writes)
      (hwrites : writes.reduceOption.Perm settings.assigned)
      (hafter : ∀ line ∈ after, ¬ IsHeader line tapeSection)
      (hfirst : ∀ line, after.head? = some line → ∃ name, IsHeader line name)
      (htext : Text.Joined (before ++ header :: (body ++ after)) text) : Spelling settings text

variable {settings : Settings} {setting : Setting} {number : Nat} {line : Line}
  {lines body after : List Line} {text value key : List Char} {inside : Bool}

/-! ### Numbers and values -/

theorem isBlank_of_isDigit {c : Char} (h : c.isDigit) : Text.isBlank c = false := by
  have hrange : 48 ≤ c.toNat ∧ c.toNat ≤ 57 := by
    simpa [Char.isDigit, UInt32.le_iff_toNat_le] using h
  simp [Text.isBlank]
  omega

/-- A numeral holds digits and at most a plus sign. -/
theorem Numeral.forall_mem (h : Numeral number text) : ∀ c ∈ text, c.isDigit ∨ c = '+' := by
  obtain ⟨sign, zeros, hsign, rfl⟩ := h
  intro c hc
  rw [List.mem_append, List.mem_append] at hc
  rcases hc with hc | hc | hc
  · refine .inr ?_
    simp only [List.mem_cons, List.not_mem_nil, or_false] at hsign
    rcases hsign with rfl | rfl
    · cases hc
    · exact List.mem_singleton.mp hc
  · rw [List.eq_of_mem_replicate hc]
    exact .inl (by decide)
  · exact .inl (Nat.isDigit_of_mem_toDigits (by decide) (by decide) hc)

theorem Numeral.trimmed (h : Numeral number text) : Text.Trimmed text := by
  refine Text.trimmed_of_forall fun c hc => ?_
  rcases h.forall_mem c hc with hdigit | rfl
  · exact isBlank_of_isDigit hdigit
  · decide

/-- A numeral spells its number. -/
theorem Numeral.spells (h : Numeral number text) : Decimal.Spells text number := by
  obtain ⟨sign, zeros, hsign, rfl⟩ := h
  refine ⟨List.replicate zeros '0' ++ Decimal.digits number, ?_, ?_, ?_, ?_⟩
  · simp only [List.mem_cons, List.not_mem_nil, or_false] at hsign
    rcases hsign with rfl | rfl
    · exact .inl rfl
    · exact .inr rfl
  · exact List.append_ne_nil_of_right_ne_nil _ Nat.toDigits_ne_nil
  · intro c hc
    rcases List.mem_append.mp hc with hc | hc
    · rw [List.eq_of_mem_replicate hc]
      decide
    · exact Nat.isDigit_of_mem_toDigits (by decide) (by decide) hc
  · rw [Nat.ofDigitChars_append, Nat.ofDigitChars_replicate_zero, Nat.mul_zero, Decimal.digits,
      Nat.ofDigitChars_toDigits (by decide) (by decide)]

theorem Numeral.head_ne_quote (h : Numeral number text) (inner : List Char) :
    text ≠ '\"' :: (inner ++ ['\"']) := by
  rintro rfl
  rcases h.forall_mem '\"' List.mem_cons_self with hdigit | hplus
  · cases hdigit
  · cases hplus

namespace ValueSpelling

theorem trimmed (h : ValueSpelling number value) : Text.Trimmed value := by
  cases h with
  | plain h => exact h.trimmed
  | quoted h hinner => exact Text.trimmed_between (by decide) (by decide) _

theorem sign_notMem (h : ValueSpelling number value) : '#' ∉ value := by
  have hnumeral : ∀ {text}, Numeral number text → '#' ∉ text := fun hnumber hmem => by
    rcases hnumber.forall_mem '#' hmem with hdigit | hplus
    · cases hdigit
    · cases hplus
  cases h with
  | plain h => exact hnumeral h
  | quoted h hinner =>
    have hsign : '#' ∉ _ := mt (hinner.mem_iff (by decide)).mp (hnumeral h)
    simp [hsign]

/-- **A value is read as the number that was written.** -/
theorem spells (h : ValueSpelling number value) :
    Decimal.Spells (Text.trim (unquote value)) number := by
  cases h with
  | plain h =>
    rw [unquote_eq_iff.mpr (.plain h.head_ne_quote), h.trimmed.trim_eq]
    exact h.spells
  | quoted h hinner =>
    rw [unquote_between, hinner.trim_eq, h.trimmed.trim_eq]
    exact h.spells

end ValueSpelling

/-! ### The lines of the section -/

theorem key_injective {setting setting' : Setting} (h : setting.key.toList = setting'.key.toList) :
    setting = setting' := by
  revert h
  cases setting <;> cases setting' <;> decide

theorem equals_notMem_of_padded_key {left : List Char} (h : Text.Padded setting.key.toList left) :
    '=' ∉ left := by
  intro hmem
  exact absurd (isAlpha_of_mem_key ((h.mem_iff (by decide)).mp hmem)) (by decide)

/-- A line without an assignment to a setting is idle. -/
theorem SectionLine.idle (h : SectionLine line none) : (FileLine.ofLine line).Idle := by
  cases h with
  | blank h =>
    rw [FileLine.ofLine_of_blanks h]
    exact FileLine.idle_other
  | @remark blanks h comment =>
    have hhead : (Text.trim (blanks ++ '#' :: comment)).head? = some '#' := by
      rw [(Text.padded_append_left h _).trim_eq, Text.head?_trim_cons (by decide)]
    rw [FileLine.ofLine_of_sign hhead]
    exact FileLine.idle_other
  | other hleft hkey hheader =>
    refine FileLine.idle_ofLine hheader fun setting value h => hkey setting ?_
    rw [assignment?_trim_append hleft] at h
    exact (Text.trim_eq_iff.mp (congrArg Prod.fst (Option.some.inj h))).2

/-- An assignment to a setting is read as the number that was written. -/
theorem SectionLine.exists_value (h : SectionLine line (some (setting, number))) :
    ∃ value, FileLine.ofLine line = .assignment setting.key.toList value ∧
      Decimal.Spells (Text.trim value) number := by
  cases h with
  | @setting _ _ left value text comment hleft hvalue htext hcomment =>
    have hbefore : BeforeSign text (text ++ comment) := by
      refine ⟨mt (htext.mem_iff (by decide)).mp hvalue.sign_notMem, ?_⟩
      rcases hcomment with rfl | hcomment
      · exact .inl (List.append_nil text)
      · obtain ⟨comment, rfl⟩ := List.head?_eq_some_iff.mp hcomment
        exact .inr ⟨comment, rfl⟩
    refine ⟨unquote value, ?_, hvalue.spells⟩
    rw [FileLine.ofLine_of_key (equals_notMem_of_padded_key hleft) (hleft.trim_eq.trans (trim_key _)),
      takeWhile_eq_iff_beforeSign.mpr hbefore, htext.trim_eq, hvalue.trimmed.trim_eq]

theorem SectionLine.goesOn {write : Option (Setting × Nat)} (h : SectionLine line write) :
    (FileLine.ofLine line).goesOn true = true := by
  cases write with
  | none => exact h.idle.goesOn true
  | some write =>
    obtain ⟨value, hvalue, -⟩ := h.exists_value
    rw [hvalue, FileLine.goesOn]

theorem goesOn_of_section {writes : List (Option (Setting × Nat))}
    (h : List.Forall₂ SectionLine body writes) : goesOn true (body.map FileLine.ofLine) = true := by
  induction h with
  | nil => rfl
  | cons hline _ ih => rw [List.map_cons, goesOn_cons, hline.goesOn, ih]

/-- What a line of the section gives a setting is what it was written to assign to it. -/
theorem SectionLine.lastValue?_pairs {write : Option (Setting × Nat)} (h : SectionLine line write)
    (setting : Setting) :
    (∀ value, lastValue? setting.key.toList ((FileLine.ofLine line).pairs true) = some value →
      ∃ number, write = some (setting, number) ∧ Decimal.Spells (Text.trim value) number) ∧
    ∀ number, write = some (setting, number) →
      lastValue? setting.key.toList ((FileLine.ofLine line).pairs true) ≠ none := by
  cases write with
  | none => simp [h.idle.lastValue?_pairs true setting]
  | some write =>
    obtain ⟨setting', number'⟩ := write
    obtain ⟨value', hline, hspells⟩ := h.exists_value
    refine ⟨fun value hvalue => ?_, fun number hwrite => ?_⟩
    · rw [lastValue?_pairs_eq_some_iff, hline] at hvalue
      injection hvalue.2 with hkey hvalue
      rw [key_injective hkey, ← hvalue]
      exact ⟨number', rfl, hspells⟩
    · cases hwrite
      rw [lastValue?_pairs_eq_some_iff.mpr ⟨rfl, hline⟩]
      exact Option.some_ne_none _

/-- **What the section that counts holds of a setting** is what is written there. -/
theorem lastValue?_of_section {writes : List (Option (Setting × Nat))}
    (h : List.Forall₂ SectionLine body writes) (setting : Setting) :
    (∀ value, lastValue? setting.key.toList (assignments true (body.map FileLine.ofLine)) =
      some value → ∃ number, some (setting, number) ∈ writes ∧
        Decimal.Spells (Text.trim value) number) ∧
    ∀ number, some (setting, number) ∈ writes →
      lastValue? setting.key.toList (assignments true (body.map FileLine.ofLine)) ≠ none := by
  induction h with
  | nil => simp
  | @cons line write body writes hline hbody ih =>
    obtain ⟨hread, hwritten⟩ := hline.lastValue?_pairs setting
    have hsplit : assignments true ((line :: body).map FileLine.ofLine) =
        (FileLine.ofLine line).pairs true ++ assignments true (body.map FileLine.ofLine) := by
      rw [List.map_cons, assignments_cons, hline.goesOn]
    rw [hsplit, lastValue?_append]
    refine ⟨fun value hvalue => ?_, fun number hmem hnone => ?_⟩
    · rcases Option.or_eq_some_iff.mp hvalue with hlater | ⟨-, hhere⟩
      · obtain ⟨number, hmem, hspells⟩ := ih.1 value hlater
        exact ⟨number, List.mem_cons_of_mem _ hmem, hspells⟩
      · obtain ⟨number, rfl, hspells⟩ := hread value hhere
        exact ⟨number, List.mem_cons_self, hspells⟩
    · obtain ⟨hlater, hhere⟩ := Option.or_eq_none_iff.mp hnone
      rcases List.mem_cons.mp hmem with hwrite | hmem
      · exact hwritten number hwrite.symm hhere
      · exact ih.2 number hmem hlater

/-! ### The whole file -/

theorem mem_assigned_iff : (setting, number) ∈ settings.assigned ↔
    settings.get setting = some number := by
  cases setting <;> simp [assigned, get, eq_comm]

theorem forall_ofLine_ne_of_forall (h : ∀ line ∈ lines, ¬ IsHeader line tapeSection) :
    ∀ line ∈ lines.map FileLine.ofLine, line ≠ .header tapeSection := by
  rw [List.forall_mem_map]
  exact fun line hline => mt FileLine.ofLine_eq_header_iff.mp (h line hline)

/-- The lines of other sections do not assign anything. -/
theorem assignments_of_after (hafter : ∀ line ∈ after, ¬ IsHeader line tapeSection)
    (hfirst : ∀ line, after.head? = some line → ∃ name, IsHeader line name) :
    assignments true (after.map FileLine.ofLine) = [] := by
  cases after with
  | nil => rfl
  | cons first after =>
    obtain ⟨name, hname⟩ := hfirst first rfl
    obtain ⟨hother, hafter⟩ := List.forall_mem_cons.mp hafter
    have hends : (name == tapeSection) = false := by
      refine beq_eq_false_iff_ne.mpr ?_
      rintro rfl
      exact hother hname
    rw [List.map_cons, assignments_cons, FileLine.ofLine_eq_header_iff.mpr hname, FileLine.pairs,
      FileLine.goesOn, hends, List.nil_append]
    exact (assignments_of_outside (forall_ofLine_ne_of_forall hafter)).1

/-- A file has the assignments of the section that counts and no others. -/
theorem assignments_of_sections {before : List Line} {header : Line}
    {writes : List (Option (Setting × Nat))}
    (hbefore : ∀ line ∈ before, ¬ IsHeader line tapeSection) (hheader : IsHeader header tapeSection)
    (hbody : List.Forall₂ SectionLine body writes)
    (hafter : ∀ line ∈ after, ¬ IsHeader line tapeSection)
    (hfirst : ∀ line, after.head? = some line → ∃ name, IsHeader line name) :
    assignments false ((before ++ header :: (body ++ after)).map FileLine.ofLine) =
      assignments true (body.map FileLine.ofLine) := by
  obtain ⟨hnothing, houtside⟩ := assignments_of_outside (forall_ofLine_ne_of_forall hbefore)
  rw [List.map_append, List.map_cons, List.map_append, assignments_append, hnothing, houtside,
    assignments_cons, FileLine.ofLine_eq_header_iff.mpr hheader, FileLine.pairs, FileLine.goesOn,
    beq_self_eq_true, assignments_append, goesOn_of_section hbody,
    assignments_of_after hafter hfirst, List.nil_append, List.nil_append, List.append_nil]

/-- The line ends do not matter. -/
theorem assignments_of_joined (h : Text.Joined lines text) : ∀ inside,
    assignments inside ((Text.splitLines text).map FileLine.ofLine) =
      assignments inside (lines.map FileLine.ofLine) := by
  induction h with
  | nil => simp
  | @last line h =>
    intro inside
    rw [Text.splitLines_of_notMem h]
    split
    · next hnil =>
      have hblank : FileLine.ofLine line = .other := FileLine.ofLine_of_blanks (by simp [hnil])
      rw [List.map_singleton, hblank, assignments_cons]
      rfl
    · rfl
  | @cons line lineEnd text lines h hend _ ih =>
    intro inside
    obtain ⟨line', htrim, hsplit⟩ := Text.exists_splitLines_append h hend text
    rw [hsplit, List.map_cons, List.map_cons, FileLine.ofLine_congr htrim, assignments_cons,
      assignments_cons, ih]

theorem isHeader_of_padded {header name inner : List Char}
    (hheader : Text.Padded ('[' :: (inner ++ [']'])) header) (hname : Text.Padded name inner)
    (htrimmed : Text.Trimmed name) : IsHeader header name := by
  refine ⟨inner, ?_, Text.trim_eq_iff.mpr ⟨htrimmed, hname⟩⟩
  exact Text.trim_eq_iff.mpr ⟨Text.trimmed_between (by decide) (by decide) inner, hheader⟩

/-- A setting is read as it was written, if it was. -/
theorem readSetting_of_section {writes : List (Option (Setting × Nat))}
    (hbody : List.Forall₂ SectionLine body writes)
    (hwrites : writes.reduceOption.Perm settings.assigned)
    (hget : ∀ number, settings.get setting = some number →
      setting.Usable number ∧ number ≤ setting.bound) :
    readSetting (assignments true (body.map FileLine.ofLine)) setting =
      .ok (settings.get setting) := by
  have hwritten : ∀ number, some (setting, number) ∈ writes ↔ settings.get setting = some number := by
    intro number
    rw [← List.reduceOption_mem_iff, hwrites.mem_iff, mem_assigned_iff]
  obtain ⟨hread, hmissing⟩ := lastValue?_of_section hbody setting
  rw [readSetting]
  cases hvalue : lastValue? setting.key.toList (assignments true (body.map FileLine.ofLine)) with
  | none =>
    have hunset : settings.get setting = none :=
      Option.eq_none_iff_forall_ne_some.mpr fun number hnumber =>
        hmissing number ((hwritten number).mpr hnumber) hvalue
    rw [hunset]
  | some value =>
    obtain ⟨number, hmem, hspells⟩ := hread value hvalue
    have hnumber := (hwritten number).mp hmem
    obtain ⟨husable, hbound⟩ := hget number hnumber
    have hreads : setting.Reads (String.ofList value) number :=
      ⟨by rwa [String.toList_ofList], hbound⟩
    simp only [Setting.parse_eq_ok_iff.mpr hreads, check_eq_ok_iff.mpr husable, hnumber]

/-- **Every spelling of settings is read back**, and nothing is refused.  The settings are any that a tape
can have. -/
theorem FileReading.ofText_of_spelling (settings : Settings)
    (hbits : ∀ bits, settings.cellBits = some bits → bits ∈ [8, 16, 32])
    (hsize : ∀ size, settings.memorySize = some size → 1 ≤ size ∧ size < 2 ^ 64)
    {text : List Char} (h : Spelling settings text) :
    FileReading.ofText (String.ofList text) = ⟨settings, []⟩ := by
  have hget : ∀ setting number, settings.get setting = some number →
      setting.Usable number ∧ number ≤ setting.bound := by
    intro setting number hnumber
    cases setting with
    | cellBits =>
      have hmem := hbits number hnumber
      refine ⟨hmem, ?_⟩
      simp only [List.mem_cons, List.not_mem_nil, or_false] at hmem
      rw [Setting.bound]
      omega
    | memorySize =>
      obtain ⟨hpos, hlt⟩ := hsize number hnumber
      exact ⟨hpos, Nat.le_of_lt_succ hlt⟩
  cases h with
  | intro hbefore hheader hname hbody hwrites hafter hfirst htext =>
    have htape : Text.Trimmed tapeSection := Text.trimmed_of_trim_eq (by decide)
    have hread : ∀ setting, readSetting (assignments false
        ((Text.splitLines text).map FileLine.ofLine)) setting = .ok (settings.get setting) := by
      intro setting
      rw [assignments_of_joined htext, assignments_of_sections hbefore
        (isHeader_of_padded hheader hname htape) hbody hafter hfirst]
      exact readSetting_of_section hbody hwrites (hget setting)
    simp only [FileReading.ofText, String.toList_ofList, hread]
    rfl

/-- A number in quotes with a plus sign, a zero and a comment, between other sections and both line ends. -/
theorem FileReading.ofText_of_spelling_of_quoted_bits :
    Spelling ⟨some 16, none⟩ (["cell_bits = 8\n", " [\ttape ]\r\n", "cell_bits =\" +016\"#w\n", "\n",
        "[x]\r\n", "cell_bits = 8"].flatMap String.toList) ∧
    FileReading.ofText (String.ofList (["cell_bits = 8\n", " [\ttape ]\r\n",
        "cell_bits =\" +016\"#w\n", "\n", "[x]\r\n", "cell_bits = 8"].flatMap String.toList)) =
      ⟨⟨some 16, none⟩, []⟩ := by
  have hbits : SectionLine "cell_bits =\" +016\"#w".toList (some (.cellBits, 16)) :=
    @SectionLine.setting .cellBits 16 "cell_bits ".toList "\" +016\"".toList "\" +016\"".toList
      "#w".toList ⟨[], [' '], by decide, by decide, rfl⟩
      (@ValueSpelling.quoted _ "+016".toList " +016".toList
        ⟨['+'], 1, by decide, by decide⟩ ⟨[' '], [], by decide, by decide, rfl⟩)
      ⟨[], [], by decide, by decide, rfl⟩ (.inr rfl)
  have hspelling : Spelling ⟨some 16, none⟩ (["cell_bits = 8\n", " [\ttape ]\r\n",
      "cell_bits =\" +016\"#w\n", "\n", "[x]\r\n", "cell_bits = 8"].flatMap String.toList) := by
    refine @Spelling.intro _ ["cell_bits = 8".toList] ["cell_bits =\" +016\"#w".toList, []]
      ["[x]".toList, "cell_bits = 8".toList] " [\ttape ]".toList "\ttape ".toList
      [some (.cellBits, 16), none] _ (by decide)
      ⟨[' '], [], by decide, by decide, rfl⟩ ⟨['\t'], [' '], by decide, by decide, rfl⟩
      (.cons hbits (.cons (.blank (by decide)) .nil)) (List.Perm.refl _) (by decide) ?_ ?_
    · intro line hline
      cases hline
      exact ⟨['x'], by decide⟩
    · exact @Text.Joined.cons _ ['\n'] _ _ (by decide) (by decide) <|
        @Text.Joined.cons _ ['\r', '\n'] _ _ (by decide) (by decide) <|
        @Text.Joined.cons _ ['\n'] _ _ (by decide) (by decide) <|
        @Text.Joined.cons _ ['\n'] _ _ (by decide) (by decide) <|
        @Text.Joined.cons _ ['\r', '\n'] _ _ (by decide) (by decide) (.last (by decide))
  exact ⟨hspelling, FileReading.ofText_of_spelling _ (fun _ h => by cases h; decide)
    (fun _ h => by cases h) hspelling⟩

end TapeMachine.Settings
