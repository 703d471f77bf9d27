import Provisioning.Value.Basic
import Provisioning.Double.Shortest
import Provisioning.Text.Quoted

namespace Provisioning.Value

def commaSeparated : List (List Char) → List Char
  | [] => []
  | [s] => s
  | s :: rest => s ++ ", ".toList ++ commaSeparated rest

mutual

def inspect : Value → List Char
  | null => "None".toList
  | bool true => "True".toList
  | bool false => "False".toList
  | int n => (toString n).toList
  | float x => x.toText
  | decimal d => d.toText
  | str s => Text.quoted s.toList
  | brokenText => "'\\ud800'".toList
  | list items => '[' :: commaSeparated (inspectItems items) ++ [']']
  | object fields | brokenObject fields => '\x7b' :: commaSeparated (inspectFields fields) ++ ['\x7d']

def inspectItems : List Value → List (List Char)
  | [] => []
  | v :: items => inspect v :: inspectItems items

def inspectFields : List (String × Value) → List (List Char)
  | [] => []
  | (k, v) :: fields => (Text.quoted k.toList ++ ": ".toList ++ inspect v) :: inspectFields fields

end

def canWrite (n : Int) : Bool := digitCount n.natAbs ≤ maxDigits

@[simp] theorem canWrite_iff (n : Int) : canWrite n = true ↔ digitCount n.natAbs ≤ 4300 := decide_eq_true_iff

mutual

/-- Whether the value can be shown: all whole numbers in it can be written. -/
def canShow : Value → Bool
  | int n => canWrite n
  | list items => canShowItems items
  | object fields | brokenObject fields => canShowFields fields
  | _ => true

def canShowItems : List Value → Bool
  | [] => true
  | v :: items => canShow v && canShowItems items

def canShowFields : List (String × Value) → Bool
  | [] => true
  | (_, v) :: fields => canShow v && canShowFields fields

end

def inspected (v : Value) : String := String.ofList v.inspect

def display : Value → String
  | str s => s
  | v => v.inspected

example : (list [int 1, str "a", null]).inspected = "[1, 'a', None]" := by decide +kernel

end Provisioning.Value
