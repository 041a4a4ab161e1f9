import Literate.Decimal
import Literate.Text.Quoted

namespace Literate

inductive Value
  | null
  | bool (b : Bool)
  | int (n : Int)
  | decimal (x : Float)
  | text (t : Text)
  | list (values : List Value)
  | record (fields : List (Text × Value))

namespace Value

def counts : Value → Bool
  | null => false
  | bool b => b
  | int n => n ≠ 0
  | decimal x => x != 0
  | text t => !t.isEmpty
  | list values => !values.isEmpty
  | record fields => !fields.isEmpty

def kind : Value → String
  | null => "NoneType"
  | bool _ => "bool"
  | int _ => "int"
  | decimal _ => "float"
  | text _ => "str"
  | list _ => "list"
  | record _ => "dict"

mutual

def shown : Value → String
  | null => "None"
  | bool true => "True"
  | bool false => "False"
  | int n => toString n
  | decimal x => String.ofList (numeral x)
  | text t => t.quoted
  | list values => "[" ++ ", ".intercalate (shownAll values) ++ "]"
  | record fields => "\x7b" ++ ", ".intercalate (shownFields fields) ++ "\x7d"

def shownAll : List Value → List String
  | [] => []
  | value :: values => value.shown :: shownAll values

def shownFields : List (Text × Value) → List String
  | [] => []
  | (key, value) :: fields => (key.quoted ++ ": " ++ value.shown) :: shownFields fields

end

def plain : Value → Text
  | text t => t
  | value => value.shown.toList

def plainIfCounts (value : Value) : Text := if value.counts then value.plain else []

end Value

end Literate
