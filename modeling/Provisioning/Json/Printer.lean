import Provisioning.Value.Basic
import Provisioning.Double.Shortest
import Provisioning.Text.Quoted

namespace Provisioning.Json

def escape (c : Char) : List Char :=
  if c = '"' ∨ c = '\\' then ['\\', c]
  else if c.toNat < 0x20 then '\\' :: 'u' :: Text.hex 4 c.toNat
  else [c]

def writeText (s : List Char) : List Char := '"' :: s.flatMap escape ++ ['"']

def writeDouble : Double → List Char
  | .nan => "NaN".toList
  | .infinite neg => Decimal.signText neg ++ "Infinity".toList
  | x => x.toText

def withCommas : List (List Char) → List Char
  | [] => []
  | [s] => s
  | s :: rest => s ++ ',' :: withCommas rest

mutual

def write : Value → List Char
  | .null => "null".toList
  | .bool true => "true".toList
  | .bool false => "false".toList
  | .int n => (toString n).toList
  | .float x => writeDouble x
  | .decimal d => writeText d.toText
  | .str s => writeText s.toList
  | .brokenText => writeText ['\ufffd']
  | .list items => '[' :: withCommas (writeItems items) ++ [']']
  | .object fields | .brokenObject fields => '\x7b' :: withCommas (writeFields fields) ++ ['\x7d']

def writeItems : List Value → List (List Char)
  | [] => []
  | v :: items => write v :: writeItems items

def writeFields : List (String × Value) → List (List Char)
  | [] => []
  | (k, v) :: fields => (writeText k.toList ++ ':' :: write v) :: writeFields fields

end

def print (v : Value) : String := String.ofList (write v)

end Provisioning.Json
