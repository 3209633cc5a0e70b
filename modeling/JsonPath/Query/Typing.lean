import JsonPath.Query
import JsonPath.QueryError

/-!
The static rules of filter expressions. Functions declare the types of their parameters and of their
result; tests, comparisons and arguments each admit some forms of expressions.
-/

namespace JsonPath

structure Signature where
  parameters : List ExprType
  result : ExprType
deriving DecidableEq, Repr

abbrev Signatures := Text → Option Signature

def Expr.resultType? (signatures : Signatures) : Expr → Option ExprType
  | call _ name _ => (signatures name).map (·.result)
  | _ => none

def Expr.isQuery : Expr → Bool
  | relative _ _ => true
  | absolute _ _ => true
  | _ => false

def Expr.isSingularQuery : Expr → Bool
  | relative _ segments => Query.isSingular segments
  | absolute _ segments => Query.isSingular segments
  | _ => false

/-- Requires an expression that can stand where a truth value is asked for: a literal and the
value of a function have to be compared. -/
def Expr.checkTest (signatures : Signatures) (e : Expr) : Except QueryError Unit :=
  match e with
  | literal token _ => .error ⟨.literalNotCompared, some token⟩
  | call token name _ =>
    if e.resultType? signatures = some .value then .error ⟨.resultNotCompared name, some token⟩
    else .ok ()
  | _ => .ok ()

/-- Requires an operand of a comparison: a literal, a singular query, or the value of a function. -/
def Expr.checkComparable (signatures : Signatures) (e : Expr) : Except QueryError Unit :=
  match e with
  | literal _ _ => .ok ()
  | relative token segments =>
    if Query.isSingular segments then .ok () else .error ⟨.queryNotSingular, some token⟩
  | absolute token segments =>
    if Query.isSingular segments then .ok () else .error ⟨.queryNotSingular, some token⟩
  | call token name _ =>
    if e.resultType? signatures = some .value then .ok ()
    else .error ⟨.resultNotComparable name, some token⟩
  | e => .error ⟨.notComparable, some e.token⟩

def Expr.fits (signatures : Signatures) (e : Expr) : ExprType → Bool
  | .value =>
    match e with
    | literal _ _ => true
    | _ => e.isSingularQuery || e.resultType? signatures == some .value
  | .logical =>
    match e with
    | negation _ _ => true
    | conjunction _ _ _ => true
    | disjunction _ _ _ => true
    | comparison _ _ _ _ => true
    | _ =>
      e.isQuery || e.resultType? signatures == some .logical ||
        e.resultType? signatures == some .nodes
  | .nodes => e.isQuery || e.resultType? signatures == some .nodes

/-- The place, from one on, and the type of the first parameter that its argument does not fit. -/
def misfit? (signatures : Signatures) : Nat → List Expr → List ExprType → Option (Nat × ExprType)
  | place, argument :: arguments, parameter :: parameters =>
    if argument.fits signatures parameter then misfit? signatures (place + 1) arguments parameters
    else some (place, parameter)
  | _, _, _ => none

def checkCall (signatures : Signatures) (token : Token) (name : Text) (arguments : List Expr) :
    Except QueryError Unit :=
  match signatures name with
  | none => .error ⟨.undefinedFunction name, some token⟩
  | some signature =>
    if arguments.length = signature.parameters.length then
      match misfit? signatures 1 arguments signature.parameters with
      | none => .ok ()
      | some (place, parameter) => .error ⟨.wrongArgumentType name place parameter, some token⟩
    else
      .error ⟨.wrongArgumentCount name signature.parameters.length arguments.length, some token⟩

end JsonPath
