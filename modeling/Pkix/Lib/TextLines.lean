import Mathlib.Algebra.Order.Ring.Nat
import Pkix.Lib.StdText

/-! Octets read as text, and text read line by line. -/

namespace Pkix.TextLines

open StdText

abbrev Text := List Char

section Utf8

/-- The ranges of the octets that may follow a first one, where one may start a character. -/
def followRanges (first : UInt8) : Option (List (UInt8 × UInt8)) :=
  if first < 0x80 then some []
  else if first < 0xC2 then none
  else if first < 0xE0 then some [(0x80, 0xBF)]
  else if first = 0xE0 then some [(0xA0, 0xBF), (0x80, 0xBF)]
  else if first = 0xED then some [(0x80, 0x9F), (0x80, 0xBF)]
  else if first < 0xF0 then some [(0x80, 0xBF), (0x80, 0xBF)]
  else if first = 0xF0 then some [(0x90, 0xBF), (0x80, 0xBF), (0x80, 0xBF)]
  else if first < 0xF4 then some [(0x80, 0xBF), (0x80, 0xBF), (0x80, 0xBF)]
  else if first = 0xF4 then some [(0x80, 0x8F), (0x80, 0xBF), (0x80, 0xBF)]
  else none

/-- How many octets in a row keep to their ranges. -/
def countFollowing : List (UInt8 × UInt8) → List UInt8 → Nat
  | (low, high) :: ranges, octet :: rest =>
      if low ≤ octet ∧ octet ≤ high then countFollowing ranges rest + 1 else 0
  | _, _ => 0

inductive Sequence
  | character (length : Nat)
  | invalid (length : Nat)
  /-- The octets end within a character. -/
  | incomplete (length : Nat)

def nextSequence (first : UInt8) (rest : List UInt8) : Sequence :=
  match followRanges first with
  | none => .invalid 1
  | some ranges =>
      let count := countFollowing ranges rest
      if count = ranges.length then .character (count + 1)
      else if count = rest.length then .incomplete (count + 1)
      else .invalid (count + 1)

def characterOf (first : UInt8) (following : List UInt8) : Char :=
  let high := if following.isEmpty then first.toNat else first.toNat % 2 ^ (6 - following.length)
  Char.ofNat (following.foldl (fun value octet => value * 64 + octet.toNat % 64) high)

/-- The first octets are passed over, as they belong to a sequence already read. -/
def lossyFrom : (skipped : Nat) → List UInt8 → Text
  | _, [] => []
  | skipped + 1, _ :: rest => lossyFrom skipped rest
  | 0, first :: rest =>
      match nextSequence first rest with
      | .character length => characterOf first (rest.take (length - 1)) :: lossyFrom (length - 1) rest
      | .invalid length | .incomplete length => '\uFFFD' :: lossyFrom (length - 1) rest

/-- Text with a replacement character for each sequence of octets that stands for none. -/
def fromUtf8Lossy (octets : List UInt8) : Text := lossyFrom 0 octets

/-- Where the first sequence lies that stands for no character. -/
def utf8ErrorFrom (index : Nat) : (skipped : Nat) → List UInt8 → String
  | _, [] => ""
  | skipped + 1, _ :: rest => utf8ErrorFrom (index + 1) skipped rest
  | 0, first :: rest =>
      match nextSequence first rest with
      | .character length => utf8ErrorFrom (index + 1) (length - 1) rest
      | .invalid length =>
          "invalid utf-8 sequence of " ++ length.repr ++ " bytes from index " ++ index.repr
      | .incomplete _ => "incomplete utf-8 byte sequence from index " ++ index.repr

def fromUtf8 (octets : List UInt8) : Except String Text :=
  match octets.toByteArray.utf8Decode? with
  | some text => .ok text.toList
  | none => .error (utf8ErrorFrom 0 0 octets)

theorem fromUtf8_utf8 (text : Text) : fromUtf8 (utf8 text) = .ok text := by
  have decoded := @List.utf8Decode?_utf8Encode text
  unfold fromUtf8
  change (match text.utf8Encode.utf8Decode? with
    | some text => Except.ok text.toList
    | none => _) = _
  rw [decoded]

end Utf8

section Whitespace

def isWhitespace (char : Char) : Bool :=
  let code := char.toNat
  (9 ≤ code && code ≤ 13) || code == 0x20 || code == 0x85 || code == 0xA0 || code == 0x1680 ||
    (0x2000 ≤ code && code ≤ 0x200A) || code == 0x2028 || code == 0x2029 || code == 0x202F ||
    code == 0x205F || code == 0x3000

def trimEnd (text : Text) : Text := (text.reverse.dropWhile isWhitespace).reverse

def trim (text : Text) : Text := trimEnd (text.dropWhile isWhitespace)

theorem trimEnd_concat {mark : Char} (blank : isWhitespace mark = true) (text : Text) :
    trimEnd (text ++ [mark]) = trimEnd text := by
  unfold trimEnd
  rw [List.reverse_append, List.reverse_singleton, List.singleton_append,
    List.dropWhile_cons_of_pos blank]

theorem trim_concat {mark : Char} (blank : isWhitespace mark = true) (text : Text) :
    trim (text ++ [mark]) = trim text := by
  unfold trim
  rw [List.dropWhile_append]
  split
  · rename_i empty
    rw [List.isEmpty_iff.mp empty, List.dropWhile_cons_of_pos blank]
    rfl
  · exact trimEnd_concat blank _

end Whitespace

section Lines

/-- Each piece but the last ends with a line feed. -/
def splitInclusive : Text → List Text
  | [] => []
  | char :: rest =>
      if char = '\n' then [char] :: splitInclusive rest
      else
        match splitInclusive rest with
        | [] => [[char]]
        | first :: others => (char :: first) :: others

/-- Without the line feed at the end, and without a carriage return before that. -/
def stripLineEnd (line : Text) : Text :=
  match line.reverse with
  | '\n' :: '\r' :: front => front.reverse
  | '\n' :: front => front.reverse
  | _ => line

def lines (text : Text) : List Text := (splitInclusive text).map stripLineEnd

theorem splitInclusive_line {line : Text} (whole : '\n' ∉ line) (rest : Text) :
    splitInclusive (line ++ '\n' :: rest) = (line ++ ['\n']) :: splitInclusive rest := by
  induction line with
  | nil => exact if_pos rfl
  | cons char line ih =>
      have other : char ≠ '\n' := fun same => whole (same ▸ List.mem_cons_self)
      have tail := ih fun present => whole (List.mem_cons_of_mem _ present)
      rw [List.cons_append, splitInclusive, if_neg other, tail]
      rfl

theorem splitInclusive_lines {written : List Text} (whole : ∀ line ∈ written, '\n' ∉ line) :
    splitInclusive (written.flatMap fun line => line ++ ['\n']) =
      written.map fun line => line ++ ['\n'] := by
  induction written with
  | nil => rfl
  | cons line rest ih =>
      rw [List.forall_mem_cons] at whole
      rw [List.flatMap_cons, List.append_assoc, List.singleton_append,
        splitInclusive_line whole.1, ih whole.2, List.map_cons]

/-- What a trimmed line ends with does not matter. -/
theorem trim_stripLineEnd (line : Text) : trim (stripLineEnd line) = trim line := by
  unfold stripLineEnd
  have restored := line.reverse_reverse
  split
  · rename_i front ending
    rw [ending, List.reverse_cons, List.reverse_cons] at restored
    rw [← restored, trim_concat (by decide), trim_concat (by decide)]
  · rename_i front _ ending
    rw [ending, List.reverse_cons] at restored
    rw [← restored, trim_concat (by decide)]
  · rfl

theorem trim_line (line : Text) : trim (stripLineEnd (line ++ ['\n'])) = trim line := by
  rw [trim_stripLineEnd, trim_concat (by decide)]

end Lines

end Pkix.TextLines
