import JavaGenerics.Text.Hidden

/-!
# Quoted text

Messages quote the text they complain about, so that its ends can be told and nothing in it is
mistaken for the message.

* `quoteChar` — one character inside quotes: quotes, backslashes and the common controls after a
  backslash, other characters that do not show by their code point.
* `quote` — a whole text, in double quotes.
-/

namespace JavaGenerics

/-- A code point in hexadecimal, in the braces that follow an escape. -/
def codePointEscape (c : Char) : List Char :=
  ['\\', 'u', '\x7b'] ++ Nat.toDigits 16 c.toNat ++ ['\x7d']

/-- How a character is written inside quotes. -/
def quoteChar (c : Char) : List Char :=
  if c = '"' then ['\\', '"']
  else if c = '\\' then ['\\', '\\']
  else if c = '\n' then ['\\', 'n']
  else if c = '\t' then ['\\', 't']
  else if c = '\r' then ['\\', 'r']
  else if c = '\x00' then ['\\', '0']
  else if isHidden c then codePointEscape c
  else [c]

/-- A text in double quotes. -/
def quote (text : String) : String :=
  String.ofList ('"' :: text.toList.flatMap quoteChar ++ ['"'])

end JavaGenerics
