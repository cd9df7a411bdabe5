import TextWorld.Text.HiddenRanges

/-!
Texts between double quotes, as messages about keys, grammars and values show them. Whatever a
reader could not see or could mistake is written as an escape.
-/

namespace TextWorld.Text

def hexDigits (n : Nat) : List Char := Nat.toDigits 16 n

/-- Whether a quoted text shows the character by its code point. -/
def isHidden (c : Char) : Bool :=
  c.toNat < 0x20 || 0x7f ≤ c.toNat && hiddenRanges.covers c

/-- One character inside double quotes. -/
def quoteChar (c : Char) : List Char :=
  if c = '"' then ['\\', '"']
  else if c = '\\' then ['\\', '\\']
  else if c = '\n' then ['\\', 'n']
  else if c = '\r' then ['\\', 'r']
  else if c = '\t' then ['\\', 't']
  else if c.toNat = 0 then ['\\', '0']
  else if isHidden c then ['\\', 'u', '\x7b'] ++ hexDigits c.toNat ++ ['\x7d']
  else [c]

def quoted (text : String) : String :=
  String.ofList ('"' :: text.toList.flatMap quoteChar ++ ['"'])

example : quoted "it's \"so\"\n" = "\"it's \\\"so\\\"\\n\"" := by decide +kernel
example : quoted "e\u0301" = "\"e\\u\x7b301\x7d\"" := by decide +kernel
example : quoted "\u3164\uff9e" = "\"\\u\x7b3164\x7d\uff9e\"" := by decide +kernel

end TextWorld.Text
