import TreeWalk.Number.Layout
import TreeWalk.Text.Quoted

/-!
JSON values. Integers and doubles are told apart, an object keeps the order of its keys, and a key
stands in it once.
-/

set_option autoImplicit false

namespace TreeWalk

inductive Json where
  | null
  | bool (b : Bool)
  | number (n : Number)
  | text (s : Text)
  | list (items : List Json)
  | object (fields : List (Text × Json))

namespace Json

/-- Puts a value under a key: a key already there keeps its place. -/
def insertField (key : Text) (value : Json) : List (Text × Json) → List (Text × Json)
  | [] => [(key, value)]
  | field :: fields =>
    if field.1 = key then (key, value) :: fields else field :: insertField key value fields

def lookup (key : Text) : List (Text × Json) → Option Json
  | [] => none
  | field :: fields => if field.1 = key then some field.2 else lookup key fields

/-- The word that messages use for the kind of a value. -/
def kind : Json → String
  | .null => "NoneType"
  | .bool _ => "bool"
  | .number (.whole _) => "int"
  | .number (.double _) => "float"
  | .text _ => "str"
  | .list _ => "list"
  | .object _ => "dict"

def numberText : Number → String
  | .whole n => toString n
  | .double x => Number.text x

def joined : List String → String
  | [] => ""
  | [s] => s
  | s :: rest => s ++ ", " ++ joined rest

mutual

/-- A value as messages show it inside of another one: texts are quoted. -/
def quoted : Json → String
  | .null => "None"
  | .bool b => if b then "True" else "False"
  | .number n => numberText n
  | .text s => Text.quote s
  | .list items => "[" ++ joined (quotedItems items) ++ "]"
  | .object fields => "\x7b" ++ joined (quotedFields fields) ++ "\x7d"

def quotedItems : List Json → List String
  | [] => []
  | item :: items => quoted item :: quotedItems items

def quotedFields : List (Text × Json) → List String
  | [] => []
  | (key, value) :: fields => (Text.quote key ++ ": " ++ quoted value) :: quotedFields fields

end

/-- A value as messages show it: a text stands for itself. -/
def display : Json → Text
  | .text s => s
  | value => quoted value

end Json

end TreeWalk
