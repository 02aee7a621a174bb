/-
The grammar of the source language.

A program is derived from its symbols: the tokens without their places, numbers by their
value.  Every command list is nonempty.  A program is its own derivation tree, up to the
places it records, and its symbols are read off the tree.
-/

import RegisterCompiler.Program.Parser

set_option autoImplicit false

namespace RegisterCompiler

open Source (Span Position)

/-! ### Symbols -/

inductive Symbol where
  | number (value : Nat)
  | name (text : String)
  | sign (kind : TokenKind)
deriving Repr, DecidableEq

def Token.symbol (token : Token) : Symbol :=
  match token.kind with
  | .number => .number (Text.digitsValue token.literal.toList)
  | .identifier => .name token.literal
  | kind => .sign kind

def Operator.kind : Operator → TokenKind
  | .add => .plus
  | .sub => .minus
  | .mul => .star
  | .div => .slash
  | .mod => .percent

def Relation.kind : Relation → TokenKind
  | .equal => .equal
  | .notEqual => .notEqual
  | .less => .less
  | .greater => .greater
  | .lessEqual => .lessEqual
  | .greaterEqual => .greaterEqual

def Direction.kind : Direction → TokenKind
  | .up => .toWord
  | .down => .downToWord

/-! ### Productions -/

namespace Grammar

/-- index := pidentifier | num -/
inductive IndexOf : List Symbol → Index → Prop where
  | number (span : Span) (value : Nat) : IndexOf [.number value] (.number span value)
  | name (span : Span) (name : String) : IndexOf [.name name] (.name span name)

/-- identifier := pidentifier [ '[' index ']' ] -/
inductive ReferenceOf : List Symbol → Reference → Prop where
  | scalar (span : Span) (name : String) : ReferenceOf [.name name] ⟨span, name, none⟩
  | element (span : Span) (name : String) {inner : List Symbol} {index : Index}
      (hIndex : IndexOf inner index) :
      ReferenceOf (.name name :: .sign .openBracket :: (inner ++ [.sign .closeBracket]))
        ⟨span, name, some index⟩

/-- value := num | identifier -/
inductive AtomOf : List Symbol → Atom → Prop where
  | number (span : Span) (value : Nat) : AtomOf [.number value] (.number span value)
  | reference {symbols : List Symbol} {cell : Reference} (hCell : ReferenceOf symbols cell) :
      AtomOf symbols (.reference cell)

/-- expression := value [ operator value ] -/
inductive ExpressionOf : List Symbol → Expression → Prop where
  | atom (span : Span) {symbols : List Symbol} {value : Atom} (hValue : AtomOf symbols value) :
      ExpressionOf symbols (.atom span value)
  | operation (span : Span) {first second : List Symbol} {left right : Atom}
      (hLeft : AtomOf first left) (operator : Operator) (hRight : AtomOf second right) :
      ExpressionOf (first ++ .sign operator.kind :: second) (.operation span left operator right)

/-- condition := value comparison value -/
inductive ConditionOf : List Symbol → Condition → Prop where
  | comparison (span : Span) {first second : List Symbol} {left right : Atom}
      (hLeft : AtomOf first left) (relation : Relation) (hRight : AtomOf second right) :
      ConditionOf (first ++ .sign relation.kind :: second) ⟨span, left, relation, right⟩

mutual

/-- The seven forms of a command; a conditional has an ELSE part or none. -/
inductive CommandOf : List Symbol → Command → Prop where
  | assign (span : Span) {first second : List Symbol} {target : Reference} {value : Expression}
      (hTarget : ReferenceOf first target) (hValue : ExpressionOf second value) :
      CommandOf (first ++ .sign .assign :: (second ++ [.sign .semicolon]))
        (.assign span target value)
  | read (span : Span) {inner : List Symbol} {target : Reference}
      (hTarget : ReferenceOf inner target) :
      CommandOf (.sign .readWord :: (inner ++ [.sign .semicolon])) (.read span target)
  | write (span : Span) {inner : List Symbol} {value : Atom} (hValue : AtomOf inner value) :
      CommandOf (.sign .writeWord :: (inner ++ [.sign .semicolon])) (.write span value)
  | skip (span : Span) : CommandOf [.sign .skipWord, .sign .semicolon] (.skip span)
  | ifThen (span : Span) {test inner : List Symbol} {condition : Condition} {body : List Command}
      (hTest : ConditionOf test condition) (hBody : CommandsOf inner body) :
      CommandOf (.sign .ifWord :: (test ++ .sign .thenWord :: (inner ++ [.sign .endIfWord])))
        (.ifThen span condition body)
  | ifElse (span : Span) {test inner other : List Symbol} {condition : Condition}
      {body orElse : List Command} (hTest : ConditionOf test condition)
      (hBody : CommandsOf inner body) (hOrElse : CommandsOf other orElse) :
      CommandOf (.sign .ifWord :: (test ++ .sign .thenWord :: (inner ++ .sign .elseWord ::
          (other ++ [.sign .endIfWord]))))
        (.ifElse span condition body orElse)
  | whileLoop (span : Span) {test inner : List Symbol} {condition : Condition}
      {body : List Command} (hTest : ConditionOf test condition) (hBody : CommandsOf inner body) :
      CommandOf (.sign .whileWord :: (test ++ .sign .doWord :: (inner ++ [.sign .endWhileWord])))
        (.whileLoop span condition body)
  | forLoop (span : Span) (iterator : String) {lower upper inner : List Symbol} {first last : Atom}
      {body : List Command} (hFirst : AtomOf lower first) (direction : Direction)
      (hLast : AtomOf upper last) (hBody : CommandsOf inner body) :
      CommandOf (.sign .forWord :: .name iterator :: .sign .fromWord :: (lower ++
          .sign direction.kind :: (upper ++ .sign .doWord :: (inner ++ [.sign .endForWord]))))
        (.forLoop span iterator first last direction body)

/-- One command or more. -/
inductive CommandsOf : List Symbol → List Command → Prop where
  | one {symbols : List Symbol} {command : Command} (hCommand : CommandOf symbols command) :
      CommandsOf symbols [command]
  | more {symbols later : List Symbol} {command : Command} {rest : List Command}
      (hCommand : CommandOf symbols command) (hRest : CommandsOf later rest) :
      CommandsOf (symbols ++ later) (command :: rest)

end

/-- declaration := pidentifier | pidentifier '[' num ']' -/
inductive DeclarationOf : List Symbol → Declaration → Prop where
  | scalar (span : Span) (name : String) : DeclarationOf [.name name] ⟨span, name, none⟩
  | array (span : Span) (name : String) (length : Nat) :
      DeclarationOf [.name name, .sign .openBracket, .number length, .sign .closeBracket]
        ⟨span, name, some length⟩

/-- Any number of declarations. -/
inductive DeclarationsOf : List Symbol → List Declaration → Prop where
  | none : DeclarationsOf [] []
  | more {symbols later : List Symbol} {declaration : Declaration} {rest : List Declaration}
      (hDeclaration : DeclarationOf symbols declaration) (hRest : DeclarationsOf later rest) :
      DeclarationsOf (symbols ++ later) (declaration :: rest)

/-- program := VAR declarations BEGIN commands END -/
inductive ProgramOf : List Symbol → Program → Prop where
  | program (span : Span) {first second : List Symbol} {declarations : List Declaration}
      {body : List Command} (hDeclarations : DeclarationsOf first declarations)
      (hBody : CommandsOf second body) :
      ProgramOf (.sign .varWord :: (first ++ .sign .beginWord :: (second ++ [.sign .endWord])))
        ⟨span, declarations, body⟩

end Grammar

/-! ### The symbols of a tree -/

def Index.symbols : Index → List Symbol
  | .number _ value => [.number value]
  | .name _ text => [.name text]

def Reference.symbols (reference : Reference) : List Symbol :=
  match reference.index with
  | none => [.name reference.name]
  | some index =>
      .name reference.name :: .sign .openBracket :: (index.symbols ++ [.sign .closeBracket])

def Atom.symbols : Atom → List Symbol
  | number _ value => [.number value]
  | reference cell => cell.symbols

def Expression.symbols : Expression → List Symbol
  | atom _ value => value.symbols
  | operation _ left operator right => left.symbols ++ .sign operator.kind :: right.symbols

def Condition.symbols (condition : Condition) : List Symbol :=
  condition.left.symbols ++ .sign condition.relation.kind :: condition.right.symbols

namespace Command

mutual

def symbols : Command → List Symbol
  | assign _ target value =>
      target.symbols ++ .sign .assign :: (value.symbols ++ [.sign .semicolon])
  | read _ target => .sign .readWord :: (target.symbols ++ [.sign .semicolon])
  | write _ value => .sign .writeWord :: (value.symbols ++ [.sign .semicolon])
  | skip _ => [.sign .skipWord, .sign .semicolon]
  | ifThen _ condition body =>
      .sign .ifWord :: (condition.symbols ++ .sign .thenWord ::
        (allSymbols body ++ [.sign .endIfWord]))
  | ifElse _ condition body orElse =>
      .sign .ifWord :: (condition.symbols ++ .sign .thenWord :: (allSymbols body ++
        .sign .elseWord :: (allSymbols orElse ++ [.sign .endIfWord])))
  | whileLoop _ condition body =>
      .sign .whileWord :: (condition.symbols ++ .sign .doWord ::
        (allSymbols body ++ [.sign .endWhileWord]))
  | forLoop _ iterator first last direction body =>
      .sign .forWord :: .name iterator :: .sign .fromWord :: (first.symbols ++
        .sign direction.kind :: (last.symbols ++ .sign .doWord ::
          (allSymbols body ++ [.sign .endForWord])))

def allSymbols : List Command → List Symbol
  | [] => []
  | command :: rest => symbols command ++ allSymbols rest

end

end Command

def Declaration.symbols (declaration : Declaration) : List Symbol :=
  match declaration.length with
  | none => [.name declaration.name]
  | some length =>
      [.name declaration.name, .sign .openBracket, .number length, .sign .closeBracket]

def Program.symbols (program : Program) : List Symbol :=
  .sign .varWord :: (program.declarations.flatMap Declaration.symbols ++ .sign .beginWord ::
    (Command.allSymbols program.body ++ [.sign .endWord]))

namespace Grammar

theorem IndexOf.symbols_eq {symbols : List Symbol} {index : Index}
    (hIndex : IndexOf symbols index) : index.symbols = symbols := by
  cases hIndex <;> rfl

theorem ReferenceOf.symbols_eq {symbols : List Symbol} {cell : Reference}
    (hCell : ReferenceOf symbols cell) : cell.symbols = symbols := by
  cases hCell with
  | scalar => rfl
  | element span name hIndex => simp only [Reference.symbols, hIndex.symbols_eq]

theorem AtomOf.symbols_eq {symbols : List Symbol} {value : Atom} (hValue : AtomOf symbols value) :
    value.symbols = symbols := by
  cases hValue with
  | number => rfl
  | reference hCell => exact hCell.symbols_eq

theorem ExpressionOf.symbols_eq {symbols : List Symbol} {value : Expression}
    (hValue : ExpressionOf symbols value) : value.symbols = symbols := by
  cases hValue with
  | atom span hValue => exact hValue.symbols_eq
  | operation span hLeft operator hRight =>
      rw [Expression.symbols, hLeft.symbols_eq, hRight.symbols_eq]

theorem ConditionOf.symbols_eq {symbols : List Symbol} {condition : Condition}
    (hCondition : ConditionOf symbols condition) : condition.symbols = symbols := by
  cases hCondition with
  | comparison span hLeft relation hRight =>
      rw [Condition.symbols, hLeft.symbols_eq, hRight.symbols_eq]

mutual

theorem CommandOf.symbols_eq {symbols : List Symbol} {command : Command}
    (hCommand : CommandOf symbols command) : command.symbols = symbols := by
  cases hCommand with
  | assign span hTarget hValue =>
      rw [Command.symbols, hTarget.symbols_eq, hValue.symbols_eq]
  | read span hTarget => rw [Command.symbols, hTarget.symbols_eq]
  | write span hValue => rw [Command.symbols, hValue.symbols_eq]
  | skip span => rfl
  | ifThen span hTest hBody => rw [Command.symbols, hTest.symbols_eq, hBody.symbols_eq]
  | ifElse span hTest hBody hOrElse =>
      rw [Command.symbols, hTest.symbols_eq, hBody.symbols_eq, hOrElse.symbols_eq]
  | whileLoop span hTest hBody => rw [Command.symbols, hTest.symbols_eq, hBody.symbols_eq]
  | forLoop span iterator hFirst direction hLast hBody =>
      rw [Command.symbols, hFirst.symbols_eq, hLast.symbols_eq, hBody.symbols_eq]

theorem CommandsOf.symbols_eq {symbols : List Symbol} {commands : List Command}
    (hCommands : CommandsOf symbols commands) : Command.allSymbols commands = symbols := by
  cases hCommands with
  | one hCommand => rw [Command.allSymbols, hCommand.symbols_eq, Command.allSymbols, List.append_nil]
  | more hCommand hRest => rw [Command.allSymbols, hCommand.symbols_eq, hRest.symbols_eq]

end

private theorem ReferenceOf.ne_nil {symbols : List Symbol} {cell : Reference}
    (hCell : ReferenceOf symbols cell) : symbols ≠ [] := by
  cases hCell <;> exact List.cons_ne_nil _ _

private theorem CommandOf.ne_nil {symbols : List Symbol} {command : Command}
    (hCommand : CommandOf symbols command) : symbols ≠ [] := by
  cases hCommand with
  | assign span hTarget hValue => exact List.append_ne_nil_of_left_ne_nil hTarget.ne_nil _
  | _ => exact List.cons_ne_nil _ _

theorem CommandsOf.ne_nil {symbols : List Symbol} {commands : List Command}
    (hCommands : CommandsOf symbols commands) : symbols ≠ [] := by
  cases hCommands with
  | one hCommand => exact hCommand.ne_nil
  | more hCommand hRest => exact List.append_ne_nil_of_left_ne_nil hCommand.ne_nil _

theorem CommandsOf.isEmpty_eq {symbols : List Symbol} {commands : List Command}
    (hCommands : CommandsOf symbols commands) : commands.isEmpty = false := by
  cases hCommands <;> rfl

private theorem DeclarationsOf.symbols_eq {symbols : List Symbol} {declarations : List Declaration}
    (hDeclarations : DeclarationsOf symbols declarations) :
    declarations.flatMap Declaration.symbols = symbols := by
  induction hDeclarations with
  | none => rfl
  | more hDeclaration hRest inductionHypothesis =>
      rw [List.flatMap_cons, inductionHypothesis]
      cases hDeclaration <;> rfl

theorem ProgramOf.symbols_eq {symbols : List Symbol} {program : Program}
    (hProgram : ProgramOf symbols program) : program.symbols = symbols := by
  cases hProgram with
  | program span hDeclarations hBody =>
      rw [Program.symbols, hDeclarations.symbols_eq, hBody.symbols_eq]

end Grammar

/-! ### Trees without places -/

def noSpan : Span := ⟨.unset, .unset⟩

def Index.bare : Index → Index
  | .number _ value => .number noSpan value
  | .name _ text => .name noSpan text

def Reference.bare (reference : Reference) : Reference :=
  ⟨noSpan, reference.name, reference.index.map Index.bare⟩

def Atom.bare : Atom → Atom
  | number _ value => .number noSpan value
  | reference cell => .reference cell.bare

def Expression.bare : Expression → Expression
  | atom _ value => .atom noSpan value.bare
  | operation _ left operator right => .operation noSpan left.bare operator right.bare

def Condition.bare (condition : Condition) : Condition :=
  ⟨noSpan, condition.left.bare, condition.relation, condition.right.bare⟩

namespace Command

mutual

def bare : Command → Command
  | assign _ target value => .assign noSpan target.bare value.bare
  | read _ target => .read noSpan target.bare
  | write _ value => .write noSpan value.bare
  | skip _ => .skip noSpan
  | ifThen _ condition body => .ifThen noSpan condition.bare (allBare body)
  | ifElse _ condition body orElse =>
      .ifElse noSpan condition.bare (allBare body) (allBare orElse)
  | whileLoop _ condition body => .whileLoop noSpan condition.bare (allBare body)
  | forLoop _ iterator first last direction body =>
      .forLoop noSpan iterator first.bare last.bare direction (allBare body)

def allBare : List Command → List Command
  | [] => []
  | command :: rest => bare command :: allBare rest

end

end Command

theorem Command.isEmpty_eq_of_allBare {left right : List Command}
    (hSame : allBare left = allBare right) : left.isEmpty = right.isEmpty := by
  cases left <;> cases right <;> first | rfl | cases hSame

def Declaration.bare (declaration : Declaration) : Declaration :=
  ⟨noSpan, declaration.name, declaration.length⟩

def Program.bare (program : Program) : Program :=
  ⟨noSpan, program.declarations.map Declaration.bare, Command.allBare program.body⟩

end RegisterCompiler
