import TypedGraph.Text.Hexadecimal
import TypedGraph.Text.Printable

/-!
# Quoted Text

Strings as messages show them: between double quotes, with what is not printable written as an
escape.
-/

namespace TypedGraph.Quoted

/-- One character of quoted text. A single quote stays as it is. -/
def encodeChar (c : Char) : List Char :=
  if c = '"' then ['\\', '"']
  else if c = '\\' then ['\\', '\\']
  else if c = '\n' then ['\\', 'n']
  else if c = '\r' then ['\\', 'r']
  else if c = '\t' then ['\\', 't']
  else if c = '\x00' then ['\\', '0']
  else if Printable.isPrintable c then [c]
  else ['\\', 'u', '\x7b'] ++ Hexadecimal.digits c.toNat ++ ['\x7d']

end TypedGraph.Quoted

namespace TypedGraph

/-- A string between double quotes, with escapes for what is not printable. -/
def quoted (s : String) : String :=
  String.ofList ('"' :: s.toList.flatMap Quoted.encodeChar ++ ['"'])

end TypedGraph
