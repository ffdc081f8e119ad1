/-
JSON values and their text: members and elements on lines of their own, two blanks further in for
each level. Characters that mean something in a web page are written as escapes.
-/
import SemFront.Text.Quoted

namespace SemFront

/-- A JSON value; the members of a record keep their order. -/
inductive JsonValue where
  | text (s : String)
  | number (n : Int)
  | bool (b : Bool)
  | list (vs : List JsonValue)
  | record (ms : List (String × JsonValue))

namespace JsonValue

/-- How a character is written in a text. -/
def escape (c : Char) : String :=
  match c with
  | '"' => "\\\""
  | '\\' => "\\\\"
  | '\x08' => "\\b"
  | '\x0c' => "\\f"
  | '\n' => "\\n"
  | '\r' => "\\r"
  | '\t' => "\\t"
  | c =>
    if c.toNat < 0x20 || c = '<' || c = '>' || c = '&' || c.toNat = 0x2028 || c.toNat = 0x2029 then
      "\\u" ++ Text.Quoted.hex 4 c.toNat
    else c.toString

def quote (s : String) : String := "\"" ++ String.join (s.toList.map escape) ++ "\""

/-- A new line at a level. -/
def newline (level : Nat) : String := "\n" ++ String.ofList (List.replicate (2 * level) ' ')

/-- Items between brackets, each on a line of its own. -/
def bracketed (level : Nat) (opened closed : String) : List String → String
  | [] => opened ++ closed
  | items =>
    opened ++ newline (level + 1) ++ String.intercalate ("," ++ newline (level + 1)) items ++
      newline level ++ closed

mutual

/-- The text of a value at a level. -/
def render (level : Nat) : JsonValue → String
  | .text s => quote s
  | .number n => toString n
  | .bool b => if b then "true" else "false"
  | .list vs => bracketed level "[" "]" (renderAll (level + 1) vs)
  | .record ms => bracketed level "\x7b" "\x7d" (renderMembers (level + 1) ms)

def renderAll (level : Nat) : List JsonValue → List String
  | [] => []
  | v :: vs => v.render level :: renderAll level vs

def renderMembers (level : Nat) : List (String × JsonValue) → List String
  | [] => []
  | (key, v) :: ms => (quote key ++ ": " ++ v.render level) :: renderMembers level ms

end

mutual

/-- The text of a value on one line. -/
def compact : JsonValue → String
  | .text s => quote s
  | .number n => toString n
  | .bool b => if b then "true" else "false"
  | .list vs => "[" ++ String.intercalate "," (compactAll vs) ++ "]"
  | .record ms => "\x7b" ++ String.intercalate "," (compactMembers ms) ++ "\x7d"

def compactAll : List JsonValue → List String
  | [] => []
  | v :: vs => v.compact :: compactAll vs

def compactMembers : List (String × JsonValue) → List String
  | [] => []
  | (key, v) :: ms => (quote key ++ ":" ++ v.compact) :: compactMembers ms

end
end JsonValue
end SemFront
