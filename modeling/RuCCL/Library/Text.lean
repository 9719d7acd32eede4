import Mathlib.Algebra.Group.Nat.Defs
import Mathlib.Data.List.Basic

/-!
# Text

Texts are lists of characters.  A text goes over a wire as its UTF-8 bytes, and a
text of several lines is cut at its line feeds.
-/

namespace RuCCL.Library

/-- The UTF-8 bytes of a text. -/
def textBytes (text : List Char) : List UInt8 := text.flatMap String.utf8EncodeChar

/-- The text behind some bytes, when they are valid UTF-8. -/
def textOfBytes (bytes : List UInt8) : Option (List Char) :=
  bytes.toByteArray.utf8Decode?.map Array.toList

theorem textOfBytes_textBytes (text : List Char) : textOfBytes (textBytes text) = some text := by
  have decoded := List.utf8Decode?_utf8Encode (l := text)
  rw [List.utf8Encode] at decoded
  rw [textOfBytes, textBytes, decoded, Option.map_some]

theorem textBytes_ne_nil {text : List Char} (present : text ≠ []) : textBytes text ≠ [] := by
  cases text with
  | nil => exact absurd rfl present
  | cons char rest =>
      rw [textBytes, List.flatMap_cons]
      intro empty
      exact String.utf8EncodeChar_ne_nil (List.append_eq_nil_iff.mp empty).1

/-- Cut a text behind each line feed. -/
def splitInclusive : List Char → List (List Char)
  | [] => []
  | char :: rest =>
      if char = '\n' then [char] :: splitInclusive rest
      else
        match splitInclusive rest with
        | [] => [[char]]
        | piece :: others => (char :: piece) :: others

/-- A piece without the line feed, or the carriage return and line feed, at its
end. -/
def stripLineEnd (piece : List Char) : List Char :=
  if piece.getLast? = some '\n' then
    if piece.dropLast.getLast? = some '\r' then piece.dropLast.dropLast
    else piece.dropLast
  else piece

def lines (text : List Char) : List (List Char) := (splitInclusive text).map stripLineEnd

/-- Texts with a line feed between each two. -/
def joinLines (entries : List (List Char)) : List Char := ['\n'].intercalate entries

/-- A text that is one line: neither empty nor with a line break. -/
structure OneLine (text : List Char) : Prop where
  present : text ≠ []
  noFeed : '\n' ∉ text
  noReturn : '\r' ∉ text

theorem splitInclusive_feed {entry : List Char} (noFeed : '\n' ∉ entry) (rest : List Char) :
    splitInclusive (entry ++ '\n' :: rest) = (entry ++ ['\n']) :: splitInclusive rest := by
  induction entry with
  | nil =>
      rw [List.nil_append, splitInclusive, if_pos rfl]
      rfl
  | cons char entry ih =>
      have other : char ≠ '\n' := fun same =>
        noFeed (same ▸ List.mem_cons_self)
      have later := ih fun inside =>
        noFeed (List.mem_cons_of_mem _ inside)
      rw [List.cons_append, splitInclusive, if_neg other, later]
      rfl

theorem splitInclusive_last {entry : List Char} (present : entry ≠ [])
    (noFeed : '\n' ∉ entry) : splitInclusive entry = [entry] := by
  induction entry with
  | nil => exact absurd rfl present
  | cons char entry ih =>
      have other : char ≠ '\n' := fun same =>
        noFeed (same ▸ List.mem_cons_self)
      rw [splitInclusive, if_neg other]
      cases entry with
      | nil => rfl
      | cons second entry =>
          have later := ih (List.cons_ne_nil _ _)
            fun inside => noFeed (List.mem_cons_of_mem _ inside)
          rw [later]

theorem OneLine.stripLineEnd {entry : List Char} (line : OneLine entry) :
    stripLineEnd entry = entry := by
  have other : entry.getLast? ≠ some '\n' := fun last =>
    line.noFeed (List.mem_of_getLast? last)
  rw [Library.stripLineEnd, if_neg other]

theorem OneLine.stripLineEnd_feed {entry : List Char} (line : OneLine entry) :
    Library.stripLineEnd (entry ++ ['\n']) = entry := by
  have other : entry.getLast? ≠ some '\r' := fun last =>
    line.noReturn (List.mem_of_getLast? last)
  rw [Library.stripLineEnd, List.getLast?_concat, if_pos rfl, List.dropLast_concat, if_neg other]

/-- Joined lines are found again. -/
theorem lines_joinLines {entries : List (List Char)} (each : ∀ entry ∈ entries, OneLine entry) :
    lines (joinLines entries) = entries := by
  induction entries with
  | nil => rfl
  | cons entry rest ih =>
      have line := each entry List.mem_cons_self
      have later := ih fun other among =>
        each other (List.mem_cons_of_mem _ among)
      cases rest with
      | nil =>
          have alone : joinLines [entry] = entry := by simp [joinLines]
          rw [lines, alone, splitInclusive_last line.present line.noFeed,
            List.map_singleton, line.stripLineEnd]
      | cons second rest =>
          have split : joinLines (entry :: second :: rest) =
              entry ++ '\n' :: joinLines (second :: rest) := by
            simp [joinLines, List.intercalate]
          rw [lines, split, splitInclusive_feed line.noFeed, List.map_cons,
            line.stripLineEnd_feed]
          exact congrArg _ later

theorem joinLines_ne_nil {entries : List (List Char)}
    (some : entries ≠ []) (each : ∀ entry ∈ entries, OneLine entry) :
    joinLines entries ≠ [] := by
  intro empty
  have found := lines_joinLines each
  rw [empty] at found
  exact some found.symm

/-- The white space of Unicode. -/
def isWhiteSpace (char : Char) : Bool :=
  let code := char.toNat
  (0x09 ≤ code ∧ code ≤ 0x0d) ∨ code = 0x20 ∨ code = 0x85 ∨ code = 0xa0 ∨
    code = 0x1680 ∨ (0x2000 ≤ code ∧ code ≤ 0x200a) ∨ code = 0x2028 ∨
    code = 0x2029 ∨ code = 0x202f ∨ code = 0x205f ∨ code = 0x3000

/-- A text without the white space at its ends. -/
def trim (text : List Char) : List Char :=
  ((text.dropWhile isWhiteSpace).reverse.dropWhile isWhiteSpace).reverse

/-- What is before and behind the first separator. -/
def splitOnce (separator : Char) (text : List Char) : Option (List Char × List Char) :=
  if separator ∈ text then
    some (text.take (text.idxOf separator), text.drop (text.idxOf separator + 1))
  else none

def asciiLowercase (text : List Char) : List Char := text.map fun char =>
    if 'A' ≤ char ∧ char ≤ 'Z' then Char.ofNat (char.toNat + 32) else char

/-- A text without `start` at its front, if it has it there. -/
def withoutStart (start text : List Char) : List Char :=
  if start.isPrefixOf text then text.drop start.length else text

/-- The number that decimal digits stand for, at most `limit`; a plus sign may stand
before them. -/
def parseUnsigned (limit : Nat) (text : List Char) : Option Nat :=
  let digits := withoutStart ['+'] text
  if digits ≠ [] ∧ digits.all Char.isDigit then
    let value := digits.foldl (fun value digit => value * 10 + (digit.toNat - '0'.toNat)) 0
    if value ≤ limit then some value else none
  else none

/-- Sixteen hexadecimal digits. -/
def hexText (value : Nat) : List Char := (List.range 16).map fun place =>
    Nat.digitChar (value / 16 ^ (15 - place) % 16)

end RuCCL.Library
