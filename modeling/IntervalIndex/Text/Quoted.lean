import IntervalIndex.Text.Printable
import IntervalIndex.Text.GraphemeExtend

/-!
# Quoted text

Text is shown between double quotes. Inside them the NUL, tab, carriage return and line feed
are written `\0`, `\t`, `\r` and `\n`, and the backslash and the double quote get a backslash
before them. A grapheme-extending character, or one that is not printable, is written as its
code point in lowercase hexadecimal inside `\u{` and `}`. Every other character, the single
quote included, stands for itself.
-/

namespace IntervalIndex

namespace Text

/-- The code point of `c` in lowercase hexadecimal, inside `\u{` and `}`. -/
def codePointEscape (c : Char) : String :=
  "\\u\x7b" ++ String.ofList (Nat.toDigits 16 c.toNat) ++ "\x7d"

/-- How one character is written inside quotes. -/
def escapeChar (c : Char) : String :=
  match c with
  | '\x00' => "\\0"
  | '\t' => "\\t"
  | '\r' => "\\r"
  | '\n' => "\\n"
  | '\\' => "\\\\"
  | '"' => "\\\""
  | c =>
    if decide (0x20 ≤ c.toNat) && decide (c.toNat < 0x7f) then c.toString
    else if isGraphemeExtend c || !isPrintable c then codePointEscape c
    else c.toString

/-- The text between double quotes, each character written by `escapeChar`. -/
def quote (s : String) : String :=
  s.foldl (fun acc c => acc ++ escapeChar c) "\"" ++ "\""

example : quote "say \"hi\"\\ok" = "\"say \\\"hi\\\"\\\\ok\"" := by
  cbv

end Text

end IntervalIndex
