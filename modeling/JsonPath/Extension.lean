import JsonPath.Cache
import JsonPath.Operand
import JsonPath.Regex.Iregexp
import JsonPath.Regex.Matcher
import JsonPath.Regex.Parser

/-!
Function extensions: what filter expressions can call. Most are functions of their arguments and
nothing else. Those that test strings against patterns keep the expressions they have compiled in
a cache of their own.
-/

namespace JsonPath

inductive Fault where
  | wrongArguments
  | noAttribute (label name : Text)
  | noMember (key : Nat)
  | unknownName (name : Text)
  | badPattern (pattern : Text) (error : PatternError)
  | notImplemented
deriving DecidableEq, Repr

def Fault.message : Fault → Text
  | wrongArguments => ""
  | noAttribute label name => "'" ++ label ++ "' object has no attribute '" ++ name ++ "'"
  | noMember key => Text.ofInt key
  | unknownName name => Text.quoted name
  | badPattern pattern error => error.message pattern
  | notImplemented => ""

/-- How a compiled pattern is tested against a string. -/
inductive PatternTest where
  | whole
  | part
  | undefined
deriving DecidableEq, Repr

def PatternTest.apply (test : PatternTest) (regex : Regex) (text : Text) : Except Fault Bool :=
  match test with
  | whole => .ok (regex.matchesAll text)
  | part => .ok (regex.matchesPart text)
  | undefined => .error .notImplemented

/-- A test against patterns, with what compiles them. A pattern that cannot be compiled is a fault
only if the tester is strict about it. -/
structure PatternTester where
  test : PatternTest
  strict : Bool
  compile : Text → Except PatternError Regex
  cache : Cache Text Regex

/-- What a function does when it is called. A plain one has no state and no effects: the same
arguments always have the same result. -/
inductive Behaviour where
  | plain (apply : List Operand → Except Fault Operand)
  | pattern (tester : PatternTester)

structure Extension where
  label : Text
  signature : Signature
  behaviour : Behaviour

inductive ExtensionEvent where
  | refused (label pattern : Text)
  | evicted (pattern : Text) (capacity : Nat)
deriving DecidableEq, Repr

/-- How a call ends: its result, the function after it, and what happened in between. -/
structure CallOutcome (α : Type) where
  result : Except Fault Operand
  after : α
  events : List ExtensionEvent

/-- The fault of a pattern; its place is one in the notation of this library. -/
def patternFault (pattern : Text) (error : PatternError) : Fault :=
  .badPattern (Regex.ofIregexp pattern) error

namespace PatternTester

def compileIregexp (tester : PatternTester) (pattern : Text) : Except PatternError Regex :=
  tester.compile (Regex.ofIregexp pattern)

def verdict (tester : PatternTester) (regex : Regex) (text : Text) : Except Fault Operand :=
  (tester.test.apply regex text).map fun b => .value (.boolean b)

def run (label text pattern : Text) (tester : PatternTester) : CallOutcome PatternTester :=
  match tester.cache.get? pattern with
  | some regex =>
    ⟨tester.verdict regex text, { tester with cache := tester.cache.touch pattern }, []⟩
  | none =>
    match tester.compileIregexp pattern with
    | .ok regex =>
      let evicted := (tester.cache.evicted? pattern).toList
      ⟨tester.verdict regex text, { tester with cache := tester.cache.put pattern regex },
        evicted.map (.evicted · tester.cache.capacity)⟩
    | .error error =>
      if tester.strict || !(error matches .malformed _ _) then
        ⟨.error (patternFault pattern error), tester, []⟩
      else ⟨.ok (.value (.boolean false)), tester, [.refused label pattern]⟩

/-- Calls the test with a string and a pattern; it is false of anything but strings. -/
def call (label : Text) (arguments : List Operand) (tester : PatternTester) :
    CallOutcome PatternTester :=
  match arguments with
  | [.value (.string text), .value (.string pattern)] => tester.run label text pattern
  | [_, _] => ⟨.ok (.value (.boolean false)), tester, []⟩
  | _ => ⟨.error .wrongArguments, tester, []⟩

end PatternTester

namespace Extension

def call (arguments : List Operand) (extension : Extension) : CallOutcome Extension :=
  match extension.behaviour with
  | .plain apply => ⟨apply arguments, extension, []⟩
  | .pattern tester =>
    let outcome := tester.call extension.label arguments
    ⟨outcome.result, { extension with behaviour := .pattern outcome.after }, outcome.events⟩

def cache? (extension : Extension) : Option (Cache Text Regex) :=
  match extension.behaviour with
  | .plain _ => none
  | .pattern tester => some tester.cache

def clearCache (extension : Extension) : Extension :=
  match extension.behaviour with
  | .plain _ => extension
  | .pattern tester =>
    { extension with behaviour := .pattern { tester with cache := tester.cache.clear } }

def diagnostic (extension : Extension) : Text := "<" ++ extension.label ++ ">"

end Extension

end JsonPath
