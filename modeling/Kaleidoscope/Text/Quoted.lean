import Kaleidoscope.Unicode.Visible

/-!
# Quoted text

A text between double quotes in which every character can be told apart: the quote and the
backslash take a backslash, the common controls have a letter, and any other character that cannot
be seen standing alone is written by its code point.
-/

namespace Kaleidoscope.Quoted

/-- A lower-case hexadecimal code point between braces. -/
def escape (c : Char) : List Char :=
  '\\' :: 'u' :: '\x7b' :: (Nat.toDigits 16 c.toNat ++ ['\x7d'])

/-- The written form of one character. -/
def encodeChar (c : Char) : List Char :=
  match c with
  | '"' => ['\\', '"']
  | '\\' => ['\\', '\\']
  | '\n' => ['\\', 'n']
  | '\r' => ['\\', 'r']
  | '\t' => ['\\', 't']
  | '\x00' => ['\\', '0']
  | _ => if Unicode.isVisible c then [c] else escape c

/-- The quoted form of a text. -/
def encode (text : String) : String :=
  String.ofList ('"' :: (text.toList.flatMap encodeChar ++ ['"']))

end Kaleidoscope.Quoted
