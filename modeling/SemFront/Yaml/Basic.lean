/-
YAML values with the lines they start on.
-/
namespace SemFront

/-- A value. A quoted scalar is always a text; what another one stands for is read from its text. -/
inductive Yaml where
  | scalar (line : Nat) (quoted : Bool) (text : String)
  | list (line : Nat) (items : List Yaml)
  | record (line : Nat) (members : List (Yaml × Yaml))

namespace Yaml

def line : Yaml → Nat
  | .scalar n _ _ => n
  | .list n _ => n
  | .record n _ => n

/-- The text of a scalar; other values have none. -/
def text : Yaml → String
  | .scalar _ _ s => s
  | _ => ""

/-- Whether two values are both scalars, both lists, or both records. -/
def sameShape : Yaml → Yaml → Bool
  | .scalar .., .scalar .. => true
  | .list .., .list .. => true
  | .record .., .record .. => true
  | _, _ => false

/-- The key of records whose members are to be taken over. -/
def mergeSign : String := "<<"

/-- Whether a value is such a key. -/
def isMergeKey : Yaml → Bool
  | .scalar _ false s => s = mergeSign
  | _ => false

end Yaml
end SemFront
