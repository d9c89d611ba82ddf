import FlashHost.Text.Utf8

/-!
# Code page 437

The single-byte character set in which archives name their members unless they
say otherwise. Its lower half is ASCII.
-/

set_option autoImplicit false

namespace FlashHost.Zip.Codepage

def upperHalf : Array Char :=
  ("ÇüéâäàåçêëèïîìÄÅ" ++ "ÉæÆôöòûùÿÖÜ¢£¥₧ƒ" ++ "áíóúñÑªº¿⌐¬½¼¡«»" ++ "░▒▓│┤╡╢╖╕╣║╗╝╜╛┐" ++
   "└┴┬├─┼╞╟╚╔╩╦╠═╬╧" ++ "╨╤╥╙╘╒╓╫╪┘┌█▄▌▐▀" ++ "αßΓπΣσµτΦΘΩδ∞φε∩" ++
   "≡±≥≤⌠⌡÷≈°∙·√ⁿ²■\u00A0").toList.toArray

def char (byte : UInt8) : Char :=
  if byte < 0x80 then Char.ofNat byte.toNat
  else upperHalf.getD (byte.toNat - 0x80) Utf8.replacement

def decode (bytes : ByteArray) : String :=
  String.ofList (bytes.data.toList.map char)

end FlashHost.Zip.Codepage
