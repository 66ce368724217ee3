import CredentialServer.Text.Hidden

/-!
# Quoted text

Messages show a text between double quotes. A quote, a backslash, a line feed, a carriage return,
a tab and a NUL have two-character escapes; a character without a picture of its own is shown by
its number; everything else stands for itself.
-/

namespace CredentialServer

/-- The lower-case hexadecimal digits of a number, without leading zeros. -/
def hexDigits (n : Nat) : List Char := Nat.toDigits 16 n

/-- How a quoted text shows one character. -/
def quoteChar (c : Char) : List Char :=
  if c = '"' then ['\\', '"']
  else if c = '\\' then ['\\', '\\']
  else if c = '\n' then ['\\', 'n']
  else if c = '\r' then ['\\', 'r']
  else if c = '\t' then ['\\', 't']
  else if c = '\x00' then ['\\', '0']
  else if isHidden c then ['\\', 'u', '\x7b'] ++ hexDigits c.toNat ++ ['\x7d']
  else [c]

/-- A text between double quotes. -/
def quoted (s : String) : String :=
  String.ofList ('"' :: s.toList.flatMap quoteChar ++ ['"'])

/-- A path between double quotes, in which single quotes have an escape, too. -/
def quotedPath (s : String) : String :=
  String.ofList ('"' :: s.toList.flatMap (fun c =>
    if c = '\x27' then ['\\', '\x27'] else quoteChar c) ++ ['"'])

end CredentialServer
