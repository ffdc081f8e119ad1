/-
The kinds of tokens: punctuation, keywords, names, literals, the end of the input, and text that
is no token.
-/
namespace SemFront

/-- Operators and punctuation. -/
inductive Punct where
  | ampersand | andAnd | assign | pipe | orOr | rbrace | rbracket | rparen | colon | comma | slash
  | dot | equals | leftArrow | greaterEqual | greater | hash | fatArrow | lessEqual | less | minus
  | notEqual | bang | lbrace | lbracket | lparen | percent | plus | caret | question | semicolon
  | asterisk | underscore
deriving DecidableEq, Repr, Inhabited

/-- How a punctuation token is written. -/
def Punct.text : Punct → String
  | .ampersand => "&"
  | .andAnd => "&&"
  | .assign => "="
  | .pipe => "|"
  | .orOr => "||"
  | .rbrace => "\x7d"
  | .rbracket => "]"
  | .rparen => ")"
  | .colon => ":"
  | .comma => ","
  | .slash => "/"
  | .dot => "."
  | .equals => "=="
  | .leftArrow => "<-"
  | .greaterEqual => ">="
  | .greater => ">"
  | .hash => "#"
  | .fatArrow => "=>"
  | .lessEqual => "<="
  | .less => "<"
  | .minus => "-"
  | .notEqual => "!="
  | .bang => "!"
  | .lbrace => "\x7b"
  | .lbracket => "["
  | .lparen => "("
  | .percent => "%"
  | .plus => "+"
  | .caret => "^"
  | .question => "?"
  | .semicolon => ";"
  | .asterisk => "*"
  | .underscore => "_"

/-- Reserved words. -/
inductive Keyword where
  | alias | as | classWord | else | false | if | list | new | return | use | true | while | with
deriving DecidableEq, Repr, Inhabited

namespace Keyword

/-- How a keyword is written. -/
def text : Keyword → String
  | .alias => "alias"
  | .as => "as"
  | .classWord => "class"
  | .else => "else"
  | .false => "false"
  | .if => "if"
  | .list => "list"
  | .new => "new"
  | .return => "return"
  | .use => "use"
  | .true => "true"
  | .while => "while"
  | .with => "with"

/-- The name of a keyword as a kind of token. -/
def kindName : Keyword → String
  | .alias => "ALIAS"
  | .as => "AS"
  | .classWord => "CLASS"
  | .else => "ELSE"
  | .false => "FALSE"
  | .if => "IF"
  | .list => "LIST"
  | .new => "NEW"
  | .return => "RETURN"
  | .use => "USE"
  | .true => "TRUE"
  | .while => "WHILE"
  | .with => "WITH"

def all : List Keyword :=
  [.alias, .as, .classWord, .else, .false, .if, .list, .new, .return, .use, .true, .while, .with]

/-- The keyword written as the given word. -/
def ofText? (word : String) : Option Keyword := all.find? (·.text = word)

end Keyword

/-- What a token is. -/
inductive Kind where
  | illegal
  | eof
  | ident
  | int
  | float
  | string
  | punct (p : Punct)
  | keyword (k : Keyword)
deriving DecidableEq, Repr, Inhabited

namespace Kind

/-- The name of a kind: the spelling for punctuation, otherwise a word in capitals. -/
def name : Kind → String
  | .illegal => "ILLEGAL"
  | .eof => "EOF"
  | .ident => "IDENT"
  | .int => "INT"
  | .float => "FLOAT"
  | .string => "STRING"
  | .punct p => p.text
  | .keyword k => k.kindName

/-- The kind of a word: a keyword or an identifier. -/
def ofWord (word : String) : Kind :=
  match Keyword.ofText? word with
  | some k => .keyword k
  | none => .ident

/-- Whether a kind is a word, an identifier or a keyword. -/
def isWord : Kind → Bool
  | .ident => true
  | .keyword _ => true
  | _ => false

/-- Whether a name is the name of a keyword's kind. -/
def isKeywordName (name : String) : Bool := Keyword.all.any (·.kindName = name)

end Kind
end SemFront
