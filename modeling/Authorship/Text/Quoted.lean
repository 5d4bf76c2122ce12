/-
Module: Authorship.Text.Quoted
Purpose: Text in quotes, as diagnostics show it: quotes, backslashes and the common controls are
  escaped, and other characters that do not print are shown by number.
Main exports: Text.quoted
-/
import Authorship.Text.Printable

namespace Authorship.Text

/-- A character between the quotes. -/
def quotedChar (char : Char) : List Char :=
  match char with
  | '\x00' => ['\\', '0']
  | '\t' => ['\\', 't']
  | '\r' => ['\\', 'r']
  | '\n' => ['\\', 'n']
  | '\\' => ['\\', '\\']
  | '"' => ['\\', '"']
  | _ =>
    if isShownByNumber char then
      ['\\', 'u', '\x7b'] ++ Nat.toDigits 16 char.toNat ++ ['\x7d']
    else [char]

/-- The text in quotes. -/
def quoted (text : String) : String :=
  String.ofList ('"' :: text.toList.flatMap quotedChar ++ ['"'])

end Authorship.Text
