import Polyphony.Text.Hidden

/-! Two quoted forms of text: the one of a debug dump and the one of JSON. -/
namespace Polyphony.Text

def quote : Char := '\x22'

def backslash : Char := '\x5c'

def hexDigits (n : Nat) : List Char := Nat.toDigits 16 n

/-- A character of a debug dump: hidden characters become their code point in braces. -/
def dumpChar (c : Char) : List Char :=
  if c = quote ∨ c = backslash then [backslash, c]
  else if c = '\n' then [backslash, 'n']
  else if c = '\r' then [backslash, 'r']
  else if c = '\t' then [backslash, 't']
  else if c.toNat = 0 then [backslash, '0']
  else if isHidden c then backslash :: 'u' :: '\x7b' :: hexDigits c.toNat ++ ['\x7d']
  else [c]

def dump (text : String) : String :=
  String.ofList (quote :: text.toList.flatMap dumpChar ++ [quote])

/-- A character of a JSON string: only the quote, the backslash and controls are escaped. -/
def jsonChar (c : Char) : List Char :=
  if c = quote ∨ c = backslash then [backslash, c]
  else if c = '\n' then [backslash, 'n']
  else if c = '\r' then [backslash, 'r']
  else if c = '\t' then [backslash, 't']
  else if c.toNat = 8 then [backslash, 'b']
  else if c.toNat = 12 then [backslash, 'f']
  else if c.toNat < 32 then
    let digits := hexDigits c.toNat
    backslash :: 'u' :: List.replicate (4 - digits.length) '0' ++ digits
  else [c]

def json (text : String) : String :=
  String.ofList (quote :: text.toList.flatMap jsonChar ++ [quote])

end Polyphony.Text
