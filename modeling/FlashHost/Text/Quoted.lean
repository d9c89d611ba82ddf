import FlashHost.Text.Unprintable

/-!
# Quoted text

Text between double quotes, in which a quote, a backslash and the characters that
would not show as themselves are escaped. A single quote stands for itself.
-/

set_option autoImplicit false

namespace FlashHost.Quoted

def escape (c : Char) : List Char :=
  match c with
  | '"' => ['\\', '"']
  | '\\' => ['\\', '\\']
  | '\n' => ['\\', 'n']
  | '\t' => ['\\', 't']
  | '\r' => ['\\', 'r']
  | '\x00' => ['\\', '0']
  | c =>
    if ' ' ≤ c ∧ c ≤ '~' then [c]
    else if Text.isUnprintable c then
      ['\\', 'u', '\x7b'] ++ Nat.toDigits 16 c.toNat ++ ['\x7d']
    else [c]

def encode (cs : List Char) : List Char :=
  ['"'] ++ cs.flatMap escape ++ ['"']

end FlashHost.Quoted

namespace FlashHost

def quote (text : String) : String :=
  String.ofList (Quoted.encode text.toList)

end FlashHost
