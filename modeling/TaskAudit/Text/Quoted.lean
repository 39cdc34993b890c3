import TaskAudit.Text.Hidden

/-!
# Quoted text

A text inside a message stands between double quotes, with a backslash before
what would end it, short forms for the common control characters and a number
for every character that has no picture. No two texts have the same quoted form.
-/
namespace TaskAudit.Text

def hex (n : Nat) : List Char := Nat.toDigits 16 n

def quotedChar (c : Char) : List Char :=
  if c = '\x00' then ['\\', '0']
  else if c = '\t' then ['\\', 't']
  else if c = '\r' then ['\\', 'r']
  else if c = '\n' then ['\\', 'n']
  else if c = '\\' then ['\\', '\\']
  else if c = '"' then ['\\', '"']
  else if c.toNat < 0x20 ∨ c.toNat = 0x7F ∨ (0x80 ≤ c.toNat ∧ isHidden c = true) then
    ['\\', 'u', '\x7b'] ++ hex c.toNat ++ ['\x7d']
  else [c]

def escape (cs : List Char) : List Char := cs.flatMap quotedChar

def quoted (s : String) : String :=
  String.ofList ('"' :: escape s.toList ++ ['"'])

end TaskAudit.Text
