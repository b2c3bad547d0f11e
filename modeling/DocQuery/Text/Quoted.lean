/-
  Quoted text in structural form.

  A text stands between double quotes; quotes and backslashes are escaped, and so is every
  character without a visible form of its own.
-/
import DocQuery.Text.Visible

namespace DocQuery.Text

/-- The escaped form of one character. -/
def quoteChar (c : Char) : List Char :=
  if c = '"' then ['\\', '"']
  else if c = '\\' then ['\\', '\\']
  else if c = '\t' then ['\\', 't']
  else if c = '\n' then ['\\', 'n']
  else if c = '\x0d' then ['\\', 'r']
  else if c.toNat = 0 then ['\\', '0']
  else if isVisible c then [c]
  else '\\' :: 'u' :: '\x7b' :: (hexChars c.toNat ++ ['\x7d'])

/-- A text between double quotes. -/
def quote (s : String) : String :=
  String.ofList ('"' :: (s.toList.flatMap quoteChar ++ ['"']))

end DocQuery.Text
