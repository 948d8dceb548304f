/-
# Cutting texts

Texts are cut into lines at line feeds, and into words at blanks. Both ways of cutting
turn a text that is put together from two, with a separator in between, into the pieces of
the first and then those of the second. All that is said here about lines and words
follows from that.

There is another way to cut lines, which takes the end of a line away with it, be it a line
feed alone or behind a carriage return. Both ways find the same lines up to their ends.
-/

import Mathlib.Data.List.DropRight
import Handheld.Text.Blank

namespace Handheld.Text

/-- Cutting a text from its end is the library's way of splitting a list. -/
theorem splitAtEach_eq_splitOnP (separates : Char → Bool) (text : List Char) :
    splitAtEach separates text = text.splitOnP separates := by
  induction text with
  | nil => simp [splitAtEach, List.splitOnP_nil]
  | cons c text ih =>
      obtain ⟨piece, pieces, split⟩ :=
        List.exists_cons_of_ne_nil (List.splitOnP_ne_nil separates text)
      have unfolded : splitAtEach separates (c :: text) =
          consPiece separates c (splitAtEach separates text) := rfl
      rw [unfolded, ih, List.splitOnP_cons_eq_if_modifyHead, split]
      rfl

/-- The lines of two texts with a line feed in between. -/
theorem lines_append (first second : List Char) :
    lines (first ++ '\n' :: second) = lines first ++ lines second := by
  simp only [lines, splitAtEach_eq_splitOnP]
  exact List.splitOnP_append_cons first second rfl

/-- A text without line feeds is one line. -/
theorem lines_eq_singleton {line : List Char} (unbroken : '\n' ∉ line) : lines line = [line] := by
  rw [lines, splitAtEach_eq_splitOnP]
  apply List.splitOnP_eq_singleton
  intro c inside
  exact beq_false_of_ne (ne_of_mem_of_not_mem inside unbroken)

theorem lines_cons {c : Char} (joins : c ≠ '\n') (text : List Char) :
    lines (c :: text) = (lines text).modifyHead (c :: ·) := by
  simp [lines, splitAtEach_eq_splitOnP, List.splitOnP_cons_eq_if_modifyHead, joins]

/-- There is one line more than there are line feeds. -/
theorem length_lines (text : List Char) : (lines text).length = text.count '\n' + 1 := by
  induction text with
  | nil => rfl
  | cons c text ih =>
      by_cases feed : c = '\n'
      · subst feed
        have cut : lines ('\n' :: text) = lines [] ++ lines text := lines_append [] text
        rw [cut, List.length_append, ih, List.count_cons_self]
        exact Nat.add_comm 1 _
      · rw [lines_cons feed, List.length_modifyHead, ih, List.count_cons_of_ne feed]

/-- Put a character in front of lines, to the first of them if there is one. -/
def joinFirst (c : Char) : List (List Char) → List (List Char)
  | [] => [[c]]
  | line :: lines => (c :: line) :: lines

/-- The lines of a text, each with the line feed that ends it. Behind the last line feed
there is a line only if something stands there. -/
def linesWithEnds : List Char → List (List Char)
  | [] => []
  | c :: text => if c = '\n' then [c] :: linesWithEnds text else joinFirst c (linesWithEnds text)

/-- A line without its end, which is a line feed, or a carriage return and a line feed. -/
def withoutEnd (line : List Char) : List Char :=
  if line.getLast? = some '\n' then
    if line.dropLast.getLast? = some '\r' then line.dropLast.dropLast else line.dropLast
  else line

/-- The lines of a text as they end. An end is no part of its line, and an end with nothing
behind it begins no other line. -/
def endedLines (text : List Char) : List (List Char) :=
  (linesWithEnds text).map withoutEnd

/-- The pieces between line feeds, and the lines with their ends. -/
inductive Ended : List (List Char) → List (List Char) → Prop
  | nothing : Ended [[]] []
  | last {line : List Char} (unbroken : '\n' ∉ line) : Ended [line] [line]
  | line {pieces lines : List (List Char)} (line : List Char) :
      Ended pieces lines → Ended (line :: pieces) ((line ++ ['\n']) :: lines)

theorem Ended.join {pieces lines : List (List Char)} (ended : Ended pieces lines) {c : Char}
    (joins : c ≠ '\n') : Ended (pieces.modifyHead (c :: ·)) (joinFirst c lines) := by
  cases ended with
  | nothing => exact .last (by simpa using joins.symm)
  | last unbroken => exact .last (by simpa [joins.symm] using unbroken)
  | line line rest => exact .line (c :: line) rest

/-- The two ways of cutting differ in the ends of lines, and behind the last one. -/
theorem ended_lines (text : List Char) : Ended (lines text) (linesWithEnds text) := by
  induction text with
  | nil => exact .nothing
  | cons c text ih =>
      by_cases feed : c = '\n'
      · have cut : lines ('\n' :: text) = [] :: lines text := lines_append [] text
        rw [linesWithEnds, if_pos feed, feed, cut]
        exact .line [] ih
      · rw [linesWithEnds, if_neg feed, lines_cons feed]
        exact ih.join feed

/-- What is left of a line without its end is the line, or the line without a carriage
return. -/
theorem withoutEnd_append (line : List Char) :
    withoutEnd (line ++ ['\n']) = line ∨ line = withoutEnd (line ++ ['\n']) ++ ['\r'] := by
  have unfolded : withoutEnd (line ++ ['\n']) =
      if line.getLast? = some '\r' then line.dropLast else line := by
    simp [withoutEnd]
  rw [unfolded]
  split
  · rename_i returned
    right
    obtain ⟨front, rfl⟩ := List.getLast?_eq_some_iff.mp returned
    rw [List.dropLast_concat]
  · exact .inl rfl

theorem withoutEnd_eq_self {line : List Char} (unbroken : '\n' ∉ line) : withoutEnd line = line :=
  if_neg fun fed => unbroken (List.mem_of_getLast? fed)

/-- The text is made of blanks. -/
def AllBlank (text : List Char) : Prop :=
  ∀ c ∈ text, isBlank c = true

/-- The words of two texts with a blank in between. -/
theorem words_append_cons {c : Char} (blank : isBlank c = true) (first second : List Char) :
    words (first ++ c :: second) = words first ++ words second := by
  simp only [words, splitAtEach_eq_splitOnP]
  rw [List.splitOnP_append_cons first second blank, List.filter_append]

theorem words_nil : words [] = [] := by
  simp [words, splitAtEach]

theorem words_blank_append {blanks : List Char} (blank : AllBlank blanks) (text : List Char) :
    words (blanks ++ text) = words text := by
  induction blanks with
  | nil => rfl
  | cons c blanks ih =>
      have first := words_append_cons (blank c List.mem_cons_self) [] (blanks ++ text)
      rw [words_nil, List.nil_append, List.nil_append] at first
      rw [List.cons_append, first]
      exact ih fun c inside => blank c (List.mem_cons_of_mem _ inside)

theorem words_append_blank {blanks : List Char} (blank : AllBlank blanks) (text : List Char) :
    words (text ++ blanks) = words text := by
  cases blanks with
  | nil => rw [List.append_nil]
  | cons c blanks =>
      have rest : AllBlank blanks := fun c inside => blank c (List.mem_cons_of_mem _ inside)
      have none := words_blank_append rest []
      rw [List.append_nil, words_nil] at none
      rw [words_append_cons (blank c List.mem_cons_self), none, List.append_nil]

/-- The words of two texts with a gap of blanks in between. -/
theorem words_append_gap {gap : List Char} (blank : AllBlank gap) (wide : gap ≠ [])
    (first second : List Char) : words (first ++ gap ++ second) = words first ++ words second := by
  obtain ⟨c, blanks, rfl⟩ := List.exists_cons_of_ne_nil wide
  have rest : AllBlank blanks := fun c inside => blank c (List.mem_cons_of_mem _ inside)
  rw [List.append_assoc, List.cons_append, words_append_cons (blank c List.mem_cons_self),
    words_blank_append rest]

/-- A text that has characters, and no blanks among them, is one word. -/
theorem words_eq_singleton {word : List Char} (nonempty : word ≠ [])
    (solid : ∀ c ∈ word, isBlank c = false) : words word = [word] := by
  rw [words, splitAtEach_eq_splitOnP, List.splitOnP_eq_singleton solid]
  simp [nonempty]

theorem trim_eq_nil {text : List Char} (blank : AllBlank text) : trim text = [] := by
  have dropped : text.dropWhile isBlank = [] := List.dropWhile_eq_nil_iff.mpr blank
  rw [trim, dropped]
  rfl

/-- A blank at the end makes no difference to what is left. -/
theorem trim_append_singleton {c : Char} (blank : isBlank c = true) (text : List Char) :
    trim (text ++ [c]) = trim text := by
  rw [trim, List.dropWhile_append]
  split
  · rename_i nothing
    have dropped : text.dropWhile isBlank = [] := List.isEmpty_iff.mp nothing
    rw [trim, dropped, List.dropWhile_cons_of_pos blank]
    rfl
  · rw [trim, List.reverse_append, List.reverse_singleton, List.singleton_append,
      List.dropWhile_cons_of_pos blank]

/-- Trimming takes blanks away at both ends. -/
theorem exists_blanks_trim (text : List Char) :
    ∃ before after, AllBlank before ∧ AllBlank after ∧ text = before ++ trim text ++ after := by
  let middle := text.dropWhile isBlank
  refine ⟨text.takeWhile isBlank, middle.rtakeWhile isBlank, ?_, ?_, ?_⟩
  · intro c inside
    exact List.mem_takeWhile_imp inside
  · intro c inside
    exact List.mem_rtakeWhile_imp inside
  · have whole : middle.rdropWhile isBlank ++ middle.rtakeWhile isBlank = middle :=
      List.rdropWhile_append_rtakeWhile
    rw [List.append_assoc]
    show text = text.takeWhile isBlank ++ (middle.rdropWhile isBlank ++ middle.rtakeWhile isBlank)
    rw [whole, List.takeWhile_append_dropWhile]

/-- The outer blanks of a text are no part of its words. -/
theorem words_trim (text : List Char) : words (trim text) = words text := by
  obtain ⟨before, after, blank, blankAfter, whole⟩ := exists_blanks_trim text
  calc
    words (trim text) = words (before ++ trim text) := (words_blank_append blank _).symm
    _ = words (before ++ trim text ++ after) := (words_append_blank blankAfter _).symm
    _ = words text := by rw [← whole]

end Handheld.Text
