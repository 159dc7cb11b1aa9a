import GameCatalog.Text.Hex
import GameCatalog.Text.Hidden

/-!
# Quoted text

Names are quoted in messages: between double quotes, with a backslash before a quote or a
backslash, short escapes for the usual controls, and a code point in hexadecimal for every other
character that does not show by itself.
-/

namespace GameCatalog.Text

def quotedChar (c : Char) : List Char :=
  if c = '"' then ['\\', '"']
  else if c = '\\' then ['\\', '\\']
  else if c = '\n' then ['\\', 'n']
  else if c = '\r' then ['\\', 'r']
  else if c = '\t' then ['\\', 't']
  else if c = '\x00' then ['\\', '0']
  else if isHidden c then ['\\', 'u', '\x7b'] ++ hexDigits c.toNat ++ ['\x7d']
  else [c]

def quoted (text : String) : String :=
  String.ofList ('"' :: text.toList.flatMap quotedChar ++ ['"'])

end GameCatalog.Text
