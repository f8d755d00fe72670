import TypedConfig.Text.Printable

/-!
# Quoted text

Listings show a string between double quotes.  Inside, a backslash starts an escape; NUL, tab,
line feed, carriage return, the quote and the backslash have escapes of one letter, and a character
that cannot be shown is written as its code point.

**One character at a time.** `quoteChar` gives the form of one character and the form of a string
is their concatenation, so that a string can be recovered from its form wherever the form begins.
-/

namespace TypedConfig.Text

/-- The hexadecimal digits of a natural number, in lower case and without leading zeros. -/
def hexDigits (n : Nat) : List Char := Nat.toDigits 16 n

/-- The written form of one character between double quotes. -/
def quoteChar (c : Char) : List Char :=
  if c = '\x00' then ['\\', '0']
  else if c = '\t' then ['\\', 't']
  else if c = '\r' then ['\\', 'r']
  else if c = '\n' then ['\\', 'n']
  else if c = '"' then ['\\', '"']
  else if c = '\\' then ['\\', '\\']
  else if isPrintable c then [c]
  else '\\' :: 'u' :: '\x7b' :: (hexDigits c.toNat ++ ['\x7d'])

/-- The written form of a string, with its quotes. -/
def quote (s : String) : String :=
  String.ofList ('"' :: (s.toList.flatMap quoteChar ++ ['"']))

end TypedConfig.Text
