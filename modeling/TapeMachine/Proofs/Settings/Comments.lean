import TapeMachine.Proofs.Lines
import TapeMachine.Proofs.Settings.LineForms

/-!
# Comments behind the lines of a settings file

A number sign starts a comment at the start of a line and behind an equals sign.  Behind a line that is
no header, such a comment does not matter, unless the line opens a bracket that the comment closes.  It
does matter behind a header: the brackets are looked for at the ends of the line, so a header with a
comment is none.  It starts no section, and what stands below it counts for the section above.  If the
comment happens to end with a bracket itself, the line is a header of another name.

## Main definitions

* `Settings.commented` — a line with a comment behind it.

## Main results

* `Settings.FileReading.exists_ofText_eq` — one line of a text, with any other in its place.
* `Settings.FileReading.ofText_commented` — what a comment behind a line does.
* `Settings.FileReading.ofText_commented_header` — a comment behind a header mixes two sections up.
-/

namespace TapeMachine.Settings

/-- A line with a comment behind it. -/
def commented (line comment : List Char) : Line :=
  line ++ ' ' :: '#' :: comment

variable {front back line comment : List Char}

/-! ### One line of a text -/

/-- **Any line in the place of another** leaves the lines before and after it as they are. -/
theorem FileReading.exists_ofText_eq (hfront : front = [] ∨ front.getLast? = some '\n')
    (hback : back = [] ∨ ∃ lineEnd ∈ Text.lineEnds, ∃ rest, back = lineEnd ++ rest) :
    ∃ before after, ∀ line, '\n' ∉ line →
      FileReading.ofText (String.ofList (front ++ line ++ back)) =
        FileReading.ofLines (before ++ FileLine.ofLine line :: after) := by
  rcases hback with rfl | ⟨lineEnd, hend, rest, rfl⟩
  · refine ⟨(Text.splitLines front).map FileLine.ofLine, [], fun line hline => ?_⟩
    rw [ofText_eq_ofLines, String.toList_ofList, List.append_nil,
      Text.splitLines_append_of_endsLine hfront, Text.splitLines_of_notMem hline, List.map_append]
    split
    · next hnil =>
      -- an empty last line is no line, and it would be idle
      have hother : FileLine.ofLine line = .other := FileLine.ofLine_of_blanks (by simp [hnil])
      refine ofLines_congr fun setting => ?_
      rw [hother, assignments_append, assignments_append]
      rfl
    · rfl
  · refine ⟨(Text.splitLines front).map FileLine.ofLine,
      (Text.splitLines rest).map FileLine.ofLine, fun line hline => ?_⟩
    obtain ⟨line', htrim, hsplit⟩ := Text.exists_splitLines_append hline hend rest
    rw [ofText_eq_ofLines, String.toList_ofList, List.append_assoc,
      Text.splitLines_append_of_endsLine hfront, ← List.append_assoc, hsplit, List.map_append,
      List.map_cons, FileLine.ofLine_congr htrim]

/-! ### One line -/

theorem lineFeed_notMem_commented (hline : '\n' ∉ line) (hcomment : '\n' ∉ comment) :
    '\n' ∉ commented line comment := by
  simp [commented, hline, hcomment]

theorem getLast?_trim_commented (line comment : List Char) :
    (Text.trim (commented line comment)).getLast? = some ']' ↔
    (Text.trim comment).getLast? = some ']' := by
  have hsplit : commented line comment = (line ++ [' '] ++ ['#']) ++ comment := by simp [commented]
  rw [hsplit]
  by_cases hblank : Text.Blanks comment
  · -- the comment is blank, so the line ends with its number sign
    have hsign : ¬ Text.Blanks ['#'] := by decide
    rw [(Text.padded_append_right hblank _).trim_eq, Text.getLast?_trim_append _ hsign,
      Text.trim_eq_nil_iff.mpr hblank]
    decide
  · rw [Text.getLast?_trim_append _ hblank]

/-- A comment is no part of a value. -/
theorem trim_takeWhile_commented (right comment : List Char) :
    Text.trim ((commented right comment).takeWhile (· != '#')) =
      Text.trim (right.takeWhile (· != '#')) := by
  have hblank : Text.Blanks [' '] := by decide
  rw [← trim_takeWhile_append hblank right]
  congr 1
  obtain ⟨hsign, hpart⟩ := takeWhile_eq_iff_beforeSign.mp
    (Eq.refl ((right ++ [' ']).takeWhile (· != '#')))
  refine takeWhile_eq_iff_beforeSign.mpr ⟨hsign, .inr ?_⟩
  have hsplit : commented right comment = (right ++ [' ']) ++ '#' :: comment := by simp [commented]
  rcases hpart with hwhole | ⟨earlier, hearlier⟩
  · exact ⟨comment, by rw [hsplit, ← hwhole]⟩
  · refine ⟨earlier ++ '#' :: comment, ?_⟩
    rw [hsplit, ← List.cons_append, ← List.append_assoc, ← hearlier]

/-- Behind an assignment, a comment does not matter. -/
theorem assignment?_trim_commented (h : '=' ∈ line) (comment : List Char) :
    assignment? (Text.trim (commented line comment)) = assignment? (Text.trim line) := by
  obtain ⟨left, right, rfl, hleft⟩ := List.eq_append_cons_of_mem h
  have hsplit : commented (left ++ '=' :: right) comment = left ++ '=' :: commented right comment := by
    simp [commented]
  rw [hsplit, assignment?_trim_append hleft, assignment?_trim_append hleft, trim_takeWhile_commented]

/-- Behind blanks, a comment is a remark. -/
theorem ofLine_commented_of_blanks (h : Text.Blanks line) (comment : List Char) :
    FileLine.ofLine (commented line comment) = .other := by
  have hblanks : Text.Blanks (line ++ [' ']) := h.append (by decide)
  have hsplit : commented line comment = (line ++ [' ']) ++ '#' :: comment := by simp [commented]
  refine FileLine.ofLine_of_sign ?_
  rw [hsplit, (Text.padded_append_left hblanks _).trim_eq, Text.head?_trim_cons (by decide)]

/-- Behind a line without an equals sign, a comment makes no assignment to a setting. -/
theorem idle_commented (hsign : '=' ∉ line) (hheader : ∀ name, ¬ IsHeader (commented line comment) name) :
    (FileLine.ofLine (commented line comment)).Idle := by
  refine FileLine.idle_ofLine hheader fun setting value hvalue => ?_
  by_cases hmem : '=' ∈ comment
  · obtain ⟨left, right, rfl, hleft⟩ := List.eq_append_cons_of_mem hmem
    have hsplit : commented line (left ++ '=' :: right) =
        (line ++ ' ' :: '#' :: left) ++ '=' :: right := by simp [commented]
    rw [hsplit, assignment?_trim_append (by simp [hsign, hleft])] at hvalue
    have hkey : Text.trim (line ++ ' ' :: '#' :: left) = setting.key.toList :=
      congrArg Prod.fst (Option.some.inj hvalue)
    have hnumber : '#' ∈ setting.key.toList := by
      rw [← hkey, Text.mem_trim_iff (by decide)]
      simp
    exact absurd (isAlpha_of_mem_key hnumber) (by decide)
  · have hnone : '=' ∉ Text.trim (commented line comment) := by
      rw [Text.mem_trim_iff (by decide)]
      simp [commented, hsign, hmem]
    rw [assignment?_eq_none hnone] at hvalue
    cases hvalue

/-- A line with a comment that does not close a bracket is no header. -/
theorem not_isHeader_commented (h : (Text.trim comment).getLast? ≠ some ']') (line name : List Char) :
    ¬ IsHeader (commented line comment) name := by
  rintro ⟨inner, htrim, -⟩
  refine h ((getLast?_trim_commented line comment).mp ?_)
  rw [htrim, ← List.cons_append, List.getLast?_concat]

/-- **Behind a line that is no header, a comment does not matter**, unless the line opens a bracket and
the comment closes one. -/
theorem FileReading.ofLines_commented (hheader : ∀ name, ¬ IsHeader line name)
    (hclose : (Text.trim line).head? = some '[' → (Text.trim comment).getLast? ≠ some ']')
    (before after : List FileLine) :
    FileReading.ofLines (before ++ FileLine.ofLine (commented line comment) :: after) =
      FileReading.ofLines (before ++ FileLine.ofLine line :: after) := by
  by_cases hblank : Text.Blanks line
  · rw [ofLine_commented_of_blanks hblank, FileLine.ofLine_of_blanks hblank]
  have hhead : (Text.trim (commented line comment)).head? = (Text.trim line).head? :=
    Text.head?_trim_append hblank _
  by_cases hsign : (Text.trim line).head? = some '#'
  · rw [FileLine.ofLine_of_sign hsign, FileLine.ofLine_of_sign (hhead.trans hsign)]
  by_cases hbracket : (Text.trim line).head? = some '['
  · have hcommented := not_isHeader_commented (hclose hbracket) line
    exact ofLines_replace_of_idle (FileLine.idle_of_bracket (hhead.trans hbracket) hcommented)
      (FileLine.idle_of_bracket hbracket hheader) before after
  have hcommented : ∀ name, ¬ IsHeader (commented line comment) name := by
    rintro name ⟨inner, htrim, -⟩
    rw [htrim, List.head?_cons] at hhead
    exact hbracket hhead.symm
  by_cases hequals : '=' ∈ line
  · rw [FileLine.ofLine_of_head (by rwa [hhead]) (by rwa [hhead]),
      FileLine.ofLine_of_head hsign hbracket, assignment?_trim_commented hequals]
  · have hnone : '=' ∉ Text.trim line := mt (Text.mem_trim_iff (by decide)).mp hequals
    have hidle : (FileLine.ofLine line).Idle := FileLine.idle_ofLine hheader fun setting value h => by
      rw [assignment?_eq_none hnone] at h
      cases h
    exact ofLines_replace_of_idle (idle_commented hequals hcommented) hidle before after

/-- Where a line opens a bracket and a comment behind it closes one, both are a header, and what it names
is no section that counts. -/
theorem exists_header_commented (hopen : (Text.trim line).head? = some '[')
    (hclose : (Text.trim comment).getLast? = some ']') :
    ∃ name, FileLine.ofLine (commented line comment) = .header name ∧ name ≠ tapeSection := by
  have hblank : ¬ Text.Blanks line := by
    rw [← Text.trim_eq_nil_iff]
    intro hnil
    rw [hnil] at hopen
    cases hopen
  have hhead : (Text.trim (commented line comment)).head? = some '[' :=
    (Text.head?_trim_append hblank _).trans hopen
  have hmem : '#' ∈ Text.trim (commented line comment) := by
    rw [Text.mem_trim_iff (by decide)]
    simp [commented]
  obtain ⟨inner, htrim⟩ := exists_between hhead ((getLast?_trim_commented line comment).mpr hclose) (by
    intro hsingle
    rw [hsingle] at hmem
    exact absurd hmem (by decide))
  refine ⟨Text.trim inner, FileLine.ofLine_eq_header_iff.mpr ⟨inner, htrim, rfl⟩, fun hname => ?_⟩
  have hinner : '#' ∈ Text.trim inner := by
    rw [htrim] at hmem
    rw [Text.mem_trim_iff (by decide)]
    simpa using hmem
  rw [hname] at hinner
  exact absurd hinner (by decide)

/-- **What a comment behind a line does.**  Behind a line that is no header it does nothing, unless the
line opens a bracket and the comment closes one.  A header with a comment is read like a blank line, if the
comment does not close a bracket; and if it does, the line is read like the header of some section that
does not count. -/
theorem FileReading.ofText_commented (hfront : front = [] ∨ front.getLast? = some '\n')
    (hback : back = [] ∨ ∃ lineEnd ∈ Text.lineEnds, ∃ rest, back = lineEnd ++ rest)
    (hline : '\n' ∉ line) (hcomment : '\n' ∉ comment) :
    ((∀ name, ¬ IsHeader line name) →
      ((Text.trim line).head? = some '[' → (Text.trim comment).getLast? ≠ some ']') →
      FileReading.ofText (String.ofList (front ++ commented line comment ++ back)) =
        FileReading.ofText (String.ofList (front ++ line ++ back))) ∧
    ((∃ name, IsHeader line name) → (Text.trim comment).getLast? ≠ some ']' →
      FileReading.ofText (String.ofList (front ++ commented line comment ++ back)) =
        FileReading.ofText (String.ofList (front ++ [] ++ back))) ∧
    ((Text.trim line).head? = some '[' → (Text.trim comment).getLast? = some ']' →
      FileReading.ofText (String.ofList (front ++ commented line comment ++ back)) =
        FileReading.ofText (String.ofList (front ++ ['[', '#', ']'] ++ back))) := by
  obtain ⟨before, after, hread⟩ := exists_ofText_eq hfront hback
  have hfeed := lineFeed_notMem_commented hline hcomment
  refine ⟨fun hheader hclose => ?_, fun ⟨name, inner, htrim, _⟩ hclose => ?_, fun hopen hclose => ?_⟩
  · rw [hread _ hfeed, hread _ hline]
    exact ofLines_commented hheader hclose before after
  · rw [hread _ hfeed, hread _ List.not_mem_nil]
    have hblank : ¬ Text.Blanks line := by
      rw [← Text.trim_eq_nil_iff, htrim]
      exact List.cons_ne_nil _ _
    have hhead : (Text.trim (commented line comment)).head? = some '[' := by
      rw [commented, Text.head?_trim_append hblank, htrim, List.head?_cons]
    exact ofLines_replace_of_idle (FileLine.idle_of_bracket hhead (not_isHeader_commented hclose line))
      FileLine.idle_other before after
  · obtain ⟨name, hname, hother⟩ := exists_header_commented hopen hclose
    have hends : (name == tapeSection) = false := beq_eq_false_iff_ne.mpr hother
    have hplain : FileLine.ofLine ['[', '#', ']'] = .header ['#'] := by decide
    rw [hread _ hfeed, hread _ (by decide), hname, hplain]
    apply ofLines_replace
    · intro inside
      rw [FileLine.goesOn, hends]
      rfl
    · intro inside setting
      rfl

/-- A comment with brackets, an equals sign and another number sign in it, behind an assignment. -/
theorem FileReading.ofText_commented_of_assignment :
    (∀ name, ¬ IsHeader "cell_bits=\"8\"".toList name) ∧
    FileReading.ofText (String.ofList ("[tape]\n".toList ++
      commented "cell_bits=\"8\"".toList "=#[x]".toList ++ "\n[y]".toList)) =
      FileReading.ofText (String.ofList ("[tape]\n".toList ++ "cell_bits=\"8\"".toList ++
        "\n[y]".toList)) := by
  have hheader : ∀ name, ¬ IsHeader "cell_bits=\"8\"".toList name := by
    rintro name ⟨inner, htrim, -⟩
    cases htrim
  refine ⟨hheader, (ofText_commented (.inr rfl) (.inr ⟨['\n'], by decide, "[y]".toList, rfl⟩)
    (by decide) (by decide)).1 hheader fun hopen => ?_⟩
  cases hopen

/-- **A comment behind a header mixes two sections up.**  The header with the comment is none: an assignment
below it counts for the section above, or for none. -/
theorem FileReading.ofText_commented_header :
    FileReading.ofText "[tape]\n[x]\ncell_bits=8" = ⟨⟨none, none⟩, []⟩ ∧
    FileReading.ofText "[tape]\n[x] #\ncell_bits=8" = ⟨⟨some 8, none⟩, []⟩ ∧
    FileReading.ofText "[tape]\ncell_bits=8" = ⟨⟨some 8, none⟩, []⟩ ∧
    FileReading.ofText "[tape] #\ncell_bits=8" = ⟨⟨none, none⟩, []⟩ :=
  ⟨rfl, rfl, rfl, rfl⟩

end TapeMachine.Settings
