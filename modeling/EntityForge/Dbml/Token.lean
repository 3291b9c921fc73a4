import EntityForge.Text.Quoted

/-!
# Tokens of the schema language

A token is a name, a quoted text, a number, an expression between backticks, or a mark. Texts are
held as their meaning: without quotes and with escapes resolved.
-/

namespace EntityForge.Dbml

/-- A token of a schema document. -/
inductive Token where
  /-- A bare name; it may start with a number sign, as colours do. -/
  | ident (name : String)
  /-- A quoted text. -/
  | str (text : String)
  /-- Digits and dots. -/
  | num (digits : String)
  /-- An expression between backticks. -/
  | expr (code : String)
  | lbrace
  | rbrace
  | lparen
  | rparen
  | lbracket
  | rbracket
  | comma
  | colon
  | dot
  | gt
  | lt
  | dash
  | ltGt
deriving DecidableEq, Repr

namespace Token

/-- How a message names the token. -/
def describe : Token → String
  | ident s => "Ident(" ++ Text.quoted s ++ ")"
  | str s => "Str(" ++ Text.quoted s ++ ")"
  | num s => "Num(" ++ Text.quoted s ++ ")"
  | expr s => "Expr(" ++ Text.quoted s ++ ")"
  | lbrace => "LBrace"
  | rbrace => "RBrace"
  | lparen => "LParen"
  | rparen => "RParen"
  | lbracket => "LBracket"
  | rbracket => "RBracket"
  | comma => "Comma"
  | colon => "Colon"
  | dot => "Dot"
  | gt => "Gt"
  | lt => "Lt"
  | dash => "Dash"
  | ltGt => "LtGt"

/-- How a message names what stands at some place: a token, or the end of the document. -/
def describe? : Option Token → String
  | some t => t.describe
  | none => "Eof"

end Token

end EntityForge.Dbml
