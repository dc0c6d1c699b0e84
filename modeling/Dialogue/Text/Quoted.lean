import Dialogue.Text.Hex
import Dialogue.Text.Unprintable

/-!
# Quoted text in diagnostics

A text is quoted so that every character of it can be seen: backslashes stand before double quotes
and backslashes, four control characters have a letter, and the other unprintable ones are given by
their code point in braces.
-/
namespace Dialogue.Text

def quotedChar (c : Char) : List Char :=
  if c = '\t' then ['\\', 't']
  else if c = '\r' then ['\\', 'r']
  else if c = '\n' then ['\\', 'n']
  else if c = '\x00' then ['\\', '0']
  else if c = '"' ∨ c = '\\' then ['\\', c]
  else if isUnprintable c then ['\\', 'u', '\x7b'] ++ hexChars c.toNat ++ ['\x7d']
  else [c]

def quoted (s : String) : String :=
  String.ofList ('"' :: s.toList.flatMap quotedChar ++ ['"'])

end Dialogue.Text
