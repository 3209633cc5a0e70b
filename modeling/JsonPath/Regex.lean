import JsonPath.Unicode.Case
import JsonPath.Unicode.Digit
import JsonPath.Unicode.Letter
import JsonPath.Unicode.Numeric
import JsonPath.Unicode.Space

/-!
Regular expressions with groups that are remembered, assertions about what stands around a place,
and flags that hold in a part of the expression.
-/

namespace JsonPath

namespace Regex

inductive Flag where
  | ignoreCase
  | localeRules
  | multiline
  | dotAll
  | verbose
  | ascii
  | template
  | unicode
deriving DecidableEq, Repr

def Flag.ofLetter? : CodePoint → Option Flag
  | 'i' => some ignoreCase
  | 'L' => some localeRules
  | 'm' => some multiline
  | 's' => some dotAll
  | 'x' => some verbose
  | 'a' => some ascii
  | 't' => some template
  | 'u' => some unicode
  | _ => none

/-- Whether the flag says which characters the classes hold; only one of these can be in force. -/
def Flag.choosesCharacters : Flag → Bool
  | ascii => true
  | localeRules => true
  | unicode => true
  | _ => false

structure FlagChange where
  on : List Flag
  off : List Flag
deriving DecidableEq, Repr

structure Mode where
  ignoreCase : Bool
  multiline : Bool
  dotAll : Bool
  ascii : Bool
deriving DecidableEq, Repr

def Mode.plain : Mode := ⟨false, false, false, false⟩

def Mode.change (change : FlagChange) (mode : Mode) : Mode :=
  let set (flag : Flag) (before : Bool) : Bool :=
    (before || change.on.contains flag) && !change.off.contains flag
  { ignoreCase := set .ignoreCase mode.ignoreCase
    multiline := set .multiline mode.multiline
    dotAll := set .dotAll mode.dotAll
    ascii :=
      if change.on.any Flag.choosesCharacters then change.on.contains .ascii else mode.ascii }

inductive Category where
  | digit
  | space
  | word
deriving DecidableEq, Repr

/-- Whether a class holds the character. Of ASCII alone, a word has letters, digits and the low
line. -/
def Category.holds (category : Category) (ascii : Bool) (c : CodePoint) : Bool :=
  (!ascii || c.toNat < 0x80) &&
    match category with
    | digit => Unicode.isDigit c
    | space => Unicode.isSpace c && (!ascii || c ≤ '\r' || c = ' ')
    | word => Unicode.isLetter c || Unicode.isNumeric c || c = '_'

/-- A member of a set of characters. Single characters and bounds are given by their code points,
of which some belong to no character. -/
inductive Member where
  | code (code : Nat)
  | range (first last : Nat)
  | category (kind : Category) (negated : Bool)
deriving DecidableEq, Repr

def Mode.variants (mode : Mode) (code : Nat) : List Nat :=
  if mode.ascii then Unicode.asciiCaseVariants code else Unicode.caseVariants code

def Member.holds (mode : Mode) (c : CodePoint) : Member → Bool
  | code n => if mode.ignoreCase then (mode.variants c.toNat).contains n else c.toNat == n
  | range first last =>
    if mode.ignoreCase then (mode.variants c.toNat).any fun n => first ≤ n && n ≤ last
    else first ≤ c.toNat && c.toNat ≤ last
  | category kind negated => kind.holds mode.ascii c != negated

inductive Anchor where
  | lineStart
  | lineEnd
  | textStart
  | textEnd
  | boundary
  | noBoundary
deriving DecidableEq, Repr

/-- How a repetition chooses the number of rounds: as many as the rest of the expression permits,
as few as it permits, or as many as there are, whatever follows. -/
inductive Greed where
  | greedy
  | lazy
  | possessive
deriving DecidableEq, Repr

structure Width where
  least : Nat
  greatest? : Option Nat
deriving DecidableEq, Repr

namespace Width

def exactly (n : Nat) : Width := ⟨n, some n⟩

def append (a b : Width) : Width :=
  ⟨a.least + b.least, a.greatest?.bind fun m => b.greatest?.map (m + ·)⟩

def either (a b : Width) : Width :=
  ⟨min a.least b.least, a.greatest?.bind fun m => b.greatest?.map (max m ·)⟩

def rounds (least : Nat) (greatest? : Option Nat) (a : Width) : Width :=
  let greatest :=
    match a.greatest?, greatest? with
    | some 0, _ => some 0
    | _, some 0 => some 0
    | some m, some n => some (m * n)
    | _, _ => none
  ⟨a.least * least, greatest⟩

end Width

end Regex

/-- A regular expression. A reference back has the width of the group it refers to, and a look
around that goes backwards the width of its expression. -/
inductive Regex where
  | empty
  | any
  | set (negated : Bool) (members : List Regex.Member)
  | anchor (anchor : Regex.Anchor)
  | sequence (first second : Regex)
  | choice (first second : Regex)
  | rounds (greed : Regex.Greed) (least : Nat) (greatest? : Option Nat) (body : Regex)
  | group (number? : Option Nat) (change : Regex.FlagChange) (body : Regex)
  | atomic (body : Regex)
  | look (ahead negated : Bool) (body : Regex)
  | reference (number : Nat) (width : Regex.Width)
  | condition (number : Nat) (yes no : Regex)

namespace Regex

def literal (code : Nat) : Regex := .set false [.code code]

def width : Regex → Width
  | empty => .exactly 0
  | any => .exactly 1
  | set _ _ => .exactly 1
  | anchor _ => .exactly 0
  | sequence first second => first.width.append second.width
  | choice first second => first.width.either second.width
  | rounds _ least greatest? body => body.width.rounds least greatest?
  | group _ _ body => body.width
  | atomic body => body.width
  | look _ _ _ => .exactly 0
  | reference _ width => width
  | condition _ yes no => yes.width.either no.width

/-- The widths of the expressions that have to match backwards, from left to right. -/
def lookbehinds : Regex → List Width
  | sequence first second => first.lookbehinds ++ second.lookbehinds
  | choice first second => first.lookbehinds ++ second.lookbehinds
  | rounds _ _ _ body => body.lookbehinds
  | group _ _ body => body.lookbehinds
  | atomic body => body.lookbehinds
  | look true _ body => body.lookbehinds
  | look false _ body => body.width :: body.lookbehinds
  | condition _ yes no => yes.lookbehinds ++ no.lookbehinds
  | _ => []

end Regex

end JsonPath
