/-
Arithmetic and comparison of the source language.

Numbers are naturals: a difference stops at zero, and a quotient or remainder by
zero is zero.  The operations extend to all integers, where quotients are cut
off towards zero.
-/

set_option autoImplicit false

namespace RegisterCompiler

inductive Operator where
  | add
  | sub
  | mul
  | div
  | mod
deriving Repr, DecidableEq, Inhabited

namespace Operator

def all : List Operator := [add, sub, mul, div, mod]

def text : Operator → String
  | add => "+"
  | sub => "-"
  | mul => "*"
  | div => "/"
  | mod => "%"

def eval : Operator → Nat → Nat → Nat
  | add, left, right => left + right
  | sub, left, right => left - right
  | mul, left, right => left * right
  | div, left, right => left / right
  | mod, left, right => if right = 0 then 0 else left % right

def evalInt : Operator → Int → Int → Int
  | add, left, right => left + right
  | sub, left, right => if left - right < 0 then 0 else left - right
  | mul, left, right => left * right
  | div, left, right => if right = 0 then 0 else left.tdiv right
  | mod, left, right => if right = 0 then 0 else left.tmod right

theorem evalInt_natCast (operator : Operator) (left right : Nat) :
    operator.evalInt left right = (operator.eval left right : Nat) := by
  cases operator with
  | add => simp [evalInt, eval]
  | sub => simp only [evalInt, eval]; split <;> omega
  | mul => simp [evalInt, eval]
  | div =>
      by_cases hZero : right = 0
      · simp [evalInt, eval, hZero]
      · simp [evalInt, eval, hZero]
  | mod =>
      by_cases hZero : right = 0
      · simp [evalInt, eval, hZero]
      · simp [evalInt, eval, hZero, Int.tmod_eq_emod_of_nonneg]

end Operator

inductive Relation where
  | equal
  | notEqual
  | less
  | greater
  | lessEqual
  | greaterEqual
deriving Repr, DecidableEq, Inhabited

namespace Relation

def all : List Relation := [equal, notEqual, less, greater, lessEqual, greaterEqual]

def text : Relation → String
  | equal => "="
  | notEqual => "<>"
  | less => "<"
  | greater => ">"
  | lessEqual => "<="
  | greaterEqual => ">="

def holds : Relation → Int → Int → Bool
  | equal, left, right => left == right
  | notEqual, left, right => left != right
  | less, left, right => left < right
  | greater, left, right => right < left
  | lessEqual, left, right => left ≤ right
  | greaterEqual, left, right => right ≤ left

def negate : Relation → Relation
  | equal => notEqual
  | notEqual => equal
  | less => greaterEqual
  | greater => lessEqual
  | lessEqual => greater
  | greaterEqual => less

theorem holds_negate (relation : Relation) (left right : Int) :
    relation.negate.holds left right = !relation.holds left right := by
  cases relation <;> simp only [negate, holds, bne, Bool.not_not] <;>
    simp only [← decide_not, Int.not_lt, Int.not_le]

end Relation

end RegisterCompiler
