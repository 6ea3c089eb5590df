import KeyExchange.Text.Printable

/-!
# Quoted text

The form in which a text is shown inside another text: between quotes, with
whatever has no visible form of its own spelled out.  `quote` shows a text,
`quoteChar` a single character; each escapes only the quote it uses itself.
-/

namespace KeyExchange.Text

/-- `\u{…}` with the code point in hexadecimal, as few digits as possible. -/
def codePointEscape (c : Char) : List Char :=
  '\\' :: 'u' :: '\x7b' :: Nat.toDigits 16 c.toNat ++ ['\x7d']

/-- How a character stands between quotes of the kind `mark`. -/
def escapeFor (mark c : Char) : List Char :=
  if c = '\x00' then ['\\', '0']
  else if c = '\t' then ['\\', 't']
  else if c = '\n' then ['\\', 'n']
  else if c = '\r' then ['\\', 'r']
  else if c = '\\' ∨ c = mark then ['\\', c]
  else if isCombining c || !isPrintable c then codePointEscape c
  else [c]

/-- A text between double quotes. -/
def quote (text : String) : String :=
  String.ofList ('"' :: text.toList.flatMap (escapeFor '"') ++ ['"'])

/-- A character between single quotes. -/
def quoteChar (c : Char) : String :=
  String.ofList ('\'' :: escapeFor '\'' c ++ ['\''])

end KeyExchange.Text
