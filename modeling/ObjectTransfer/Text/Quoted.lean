import ObjectTransfer.Text.Glyphless
import ObjectTransfer.Text.Hex
/-!
Quoted text, as messages show the inputs they are about: in double quotes, with the quote, the
backslash and the common controls behind a backslash, and every other character without a glyph as
its number.
-/
namespace ObjectTransfer.Text

def quotedChar (c : Char) : List Char :=
  if c = '"' then ['\\', '"']
  else if c = '\\' then ['\\', '\\']
  else if c = '\n' then ['\\', 'n']
  else if c = '\r' then ['\\', 'r']
  else if c = '\t' then ['\\', 't']
  else if c.toNat = 0 then ['\\', '0']
  else if hasGlyph c then [c]
  else "\\u\x7b".toList ++ (Hex.ofNat c.toNat).toList ++ ['\x7d']

def quoted (s : String) : String :=
  String.ofList ('"' :: s.toList.flatMap quotedChar ++ ['"'])

end ObjectTransfer.Text
