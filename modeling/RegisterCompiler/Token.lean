/-
Tokens of the source language.

Keywords are upper-case words, identifiers are made of lower-case letters and
underscores, so the two never collide.
-/

import RegisterCompiler.Source.Position
import RegisterCompiler.Text.Quoted

set_option autoImplicit false

namespace RegisterCompiler

open Source (Position)

inductive TokenKind where
  | endOfInput
  | error
  | number
  | identifier
  | assign
  | plus
  | minus
  | star
  | slash
  | percent
  | equal
  | notEqual
  | less
  | greater
  | lessEqual
  | greaterEqual
  | openBracket
  | closeBracket
  | semicolon
  | varWord
  | beginWord
  | endWord
  | ifWord
  | thenWord
  | elseWord
  | endIfWord
  | whileWord
  | doWord
  | endWhileWord
  | forWord
  | fromWord
  | toWord
  | downToWord
  | endForWord
  | readWord
  | writeWord
  | skipWord
deriving Repr, DecidableEq, Inhabited

namespace TokenKind

def keywords : List TokenKind :=
  [varWord, beginWord, endWord, ifWord, thenWord, elseWord, endIfWord, whileWord, doWord,
    endWhileWord, forWord, fromWord, toWord, downToWord, endForWord, readWord, writeWord, skipWord]

def all : List TokenKind :=
  [endOfInput, error, number, identifier, assign, plus, minus, star, slash, percent, equal,
    notEqual, less, greater, lessEqual, greaterEqual, openBracket, closeBracket, semicolon] ++
    keywords

def name : TokenKind → String
  | endOfInput => "EOF"
  | error => "ERROR"
  | number => "NUMBER"
  | identifier => "IDENTIFIER"
  | assign => ":="
  | plus => "+"
  | minus => "-"
  | star => "*"
  | slash => "/"
  | percent => "%"
  | equal => "="
  | notEqual => "<>"
  | less => "<"
  | greater => ">"
  | lessEqual => "<="
  | greaterEqual => ">="
  | openBracket => "["
  | closeBracket => "]"
  | semicolon => ";"
  | varWord => "VAR"
  | beginWord => "BEGIN"
  | endWord => "END"
  | ifWord => "IF"
  | thenWord => "THEN"
  | elseWord => "ELSE"
  | endIfWord => "ENDIF"
  | whileWord => "WHILE"
  | doWord => "DO"
  | endWhileWord => "ENDWHILE"
  | forWord => "FOR"
  | fromWord => "FROM"
  | toWord => "TO"
  | downToWord => "DOWNTO"
  | endForWord => "ENDFOR"
  | readWord => "READ"
  | writeWord => "WRITE"
  | skipWord => "SKIP"

def ofWord? (word : String) : Option TokenKind :=
  keywords.find? fun kind => kind.name == word

def ofNumber? (number : Int) : Option TokenKind :=
  if number < 0 then none else all[number.toNat]?

/-- The name that belongs to a number, also when it numbers no kind. -/
def nameOfNumber (number : Int) : String :=
  match ofNumber? number with
  | some kind => kind.name
  | none => s!"Token({number})"

def isOperator : TokenKind → Bool
  | plus | minus | star | slash | percent => true
  | _ => false

def isRelation : TokenKind → Bool
  | equal | notEqual | less | greater | lessEqual | greaterEqual => true
  | _ => false

end TokenKind

def reservedWords : List String :=
  (TokenKind.keywords.map TokenKind.name).mergeSort fun left right => left ≤ right

/-- A token: its kind, its text and the place where it starts.  The text of an
error token is the message. -/
structure Token where
  kind : TokenKind
  literal : String
  position : Position
deriving Repr, DecidableEq, Inhabited

namespace Token

/-- A token as shown in listings; long texts are cut after twenty characters. -/
def describe (token : Token) : String :=
  match token.kind with
  | .endOfInput => "EOF"
  | .error => s!"ERROR({token.literal})"
  | kind =>
      if 20 < token.literal.length then
        let shown := Text.quote (String.ofList (token.literal.toList.take 20))
        s!"{kind.name}({shown}...)"
      else
        let shown := Text.quote token.literal
        s!"{kind.name}({shown})"

/-- The place just after a token's text.  A token other than an error is
spelled on one line in one-byte characters. -/
def stop (token : Token) : Position :=
  token.position.shift token.literal.length

end Token

end RegisterCompiler
