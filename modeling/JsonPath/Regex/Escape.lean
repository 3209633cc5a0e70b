import JsonPath.Regex
import JsonPath.Regex.Source
import JsonPath.Text.Hex
import JsonPath.Unicode.Digit

/-!
What stands behind a backslash: characters by their numbers, classes and anchors by letters. Any
other character but a letter or a digit of ASCII stands for itself.
-/

namespace JsonPath.Regex

def controlCode? : CodePoint → Option Nat
  | 'a' => some 7
  | 'f' => some 12
  | 'n' => some 10
  | 'r' => some 13
  | 't' => some 9
  | 'v' => some 11
  | _ => none

def categoryOf? : CodePoint → Option Member
  | 'd' => some (.category .digit false)
  | 'D' => some (.category .digit true)
  | 's' => some (.category .space false)
  | 'S' => some (.category .space true)
  | 'w' => some (.category .word false)
  | 'W' => some (.category .word true)
  | _ => none

def anchorOf? : CodePoint → Option Anchor
  | 'A' => some .textStart
  | 'Z' => some .textEnd
  | 'b' => some .boundary
  | 'B' => some .noBoundary
  | _ => none

def isOctalDigit (c : CodePoint) : Bool := '0' ≤ c && c ≤ '7'

def octalNumber (digits : List CodePoint) : Nat :=
  digits.foldl (fun n c => 8 * n + (c.toNat - 48)) 0

def hexEscape (letter : CodePoint) (count : Nat) : Reader Nat := do
  let digits ← Reader.takeMost count fun c => (Text.hexValue? c).isSome
  let text := Text.ofList ('\\' :: letter :: digits)
  match Text.hexNumber? digits with
  | some code =>
    if digits.length < count then Reader.fail (.incompleteEscape text) text.length
    else if 0x10FFFF < code then Reader.fail (.badEscape text) text.length
    else return code
  | none => Reader.fail (.incompleteEscape text) text.length

def namedEscape : Reader Nat := do
  if !(← Reader.accept '\x7b') then Reader.fail .noBrace 0
  let name ← Reader.takeName '\x7d' "character name"
  match ← Reader.lookup name with
  | some code => return code
  | none => Reader.fail (.unknownCharacterName name) (name.length + 4)

/-- The code point that an octal number writes, of which the greatest is 255. -/
def octalCode (digits : List CodePoint) : Reader Nat :=
  let code := octalNumber digits
  if 255 < code then
    let text := Text.ofList ('\\' :: digits)
    Reader.fail (.octalTooLarge text) text.length
  else return code

def characterEscape (c : CodePoint) : Reader Nat :=
  match c with
  | 'x' => hexEscape 'x' 2
  | 'u' => hexEscape 'u' 4
  | 'U' => hexEscape 'U' 8
  | 'N' => namedEscape
  | c =>
    if c.isAlphanum then Reader.fail (.badEscape (Symbol.escaped c).text) 2
    else return c.toNat

def memberEscape (c : CodePoint) : Reader Member :=
  match categoryOf? c, controlCode? c with
  | some member, _ => return member
  | none, some code => return .code code
  | none, none =>
    if c = 'b' then return .code 8
    else if isOctalDigit c then do
      let digits ← Reader.takeMost 2 isOctalDigit
      return .code (← octalCode (c :: digits))
    else return .code (← characterEscape c)

end JsonPath.Regex
