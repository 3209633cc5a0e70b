import JsonPath.Number.Numeral
import JsonPath.Text.Position

/-!
What can be wrong with the text of a regular expression. A fault is a cause; a malformed pattern
has a fault at a place. The wording of all faults is here.
-/

namespace JsonPath

inductive PatternFault where
  | openEscape
  | badEscape (text : Text)
  | incompleteEscape (text : Text)
  | octalTooLarge (text : Text)
  | noBrace
  | noName (what : Text)
  | openName (terminator : CodePoint)
  | unknownCharacterName (name : Text)
  | referenceToOpenGroup
  | referenceInsideLookbehind
  | unknownGroup (number : Nat)
  | openSet
  | badRange (first last : Text)
  | emptyRange
  | nothingToRepeat
  | repeatedRepetition
  | patternEnds
  | badGroupName (name : Text)
  | unknownGroupName (name : Text)
  | groupNameTaken (name : Text) (number former : Nat)
  | unknownExtension (text : Text)
  | openComment
  | openGroup
  | thirdBranch
  | groupZero
  | lateFlags
  | localeFlag
  | clashingFlags
  | unknownFlag
  | openFlags
  | turnsOnGlobalFlag
  | noFlag
  | turnsOffCharacterFlag
  | openOffFlags
  | turnsOffGlobalFlag
  | flagOnAndOff
  | loneParenthesis
  | wideLookbehind
  | unevenLookbehind
deriving DecidableEq, Repr

def PatternFault.message : PatternFault → Text
  | openEscape => "bad escape (end of pattern)"
  | badEscape text => "bad escape " ++ text
  | incompleteEscape text => "incomplete escape " ++ text
  | octalTooLarge text => "octal escape value " ++ text ++ " outside of range 0-0o377"
  | noBrace => "missing \x7b"
  | noName what => "missing " ++ what
  | openName terminator => "missing " ++ Text.singleton terminator ++ ", unterminated name"
  | unknownCharacterName name => "undefined character name " ++ Text.quoted name
  | referenceToOpenGroup => "cannot refer to an open group"
  | referenceInsideLookbehind =>
    "cannot refer to group defined in the same lookbehind subpattern"
  | unknownGroup number => "invalid group reference " ++ Text.ofNat number
  | openSet => "unterminated character set"
  | badRange first last => "bad character range " ++ first ++ "-" ++ last
  | emptyRange => "min repeat greater than max repeat"
  | nothingToRepeat => "nothing to repeat"
  | repeatedRepetition => "multiple repeat"
  | patternEnds => "unexpected end of pattern"
  | badGroupName name => "bad character in group name " ++ Text.quoted name
  | unknownGroupName name => "unknown group name " ++ Text.quoted name
  | groupNameTaken name number former =>
    "redefinition of group name " ++ Text.quoted name ++ " as group " ++ Text.ofNat number ++
      "; was group " ++ Text.ofNat former
  | unknownExtension text => "unknown extension " ++ text
  | openComment => "missing ), unterminated comment"
  | openGroup => "missing ), unterminated subpattern"
  | thirdBranch => "conditional backref with more than two branches"
  | groupZero => "bad group number"
  | lateFlags => "global flags not at the start of the expression"
  | localeFlag => "bad inline flags: cannot use 'L' flag with a str pattern"
  | clashingFlags => "bad inline flags: flags 'a', 'u' and 'L' are incompatible"
  | unknownFlag => "unknown flag"
  | openFlags => "missing -, : or )"
  | turnsOnGlobalFlag => "bad inline flags: cannot turn on global flag"
  | noFlag => "missing flag"
  | turnsOffCharacterFlag => "bad inline flags: cannot turn off flags 'a', 'u' and 'L'"
  | openOffFlags => "missing :"
  | turnsOffGlobalFlag => "bad inline flags: cannot turn off global flag"
  | flagOnAndOff => "bad inline flags: flag turned on and off"
  | loneParenthesis => "unbalanced parenthesis"
  | wideLookbehind => "looks too much behind"
  | unevenLookbehind => "look-behind requires fixed-width pattern"

/-- Why a pattern is no regular expression. A fault of the expression as a whole has no place, and
some patterns are well formed but ask for what there is not. -/
inductive PatternError where
  | malformed (fault : PatternFault) (offset? : Option Nat)
  | tooManyRounds
  | clashingFlags
  | numeral (fault : NumeralFault)
deriving DecidableEq, Repr

/-- The text of the error; in a pattern of several lines the place is given by its line too. -/
def PatternError.message (pattern : Text) : PatternError → Text
  | malformed fault none => fault.message
  | malformed fault (some offset) =>
    let place := Position.ofOffset pattern.toList offset
    let lines :=
      if pattern.toList.contains '\n' then
        " (line " ++ Text.ofNat place.line ++ ", column " ++ Text.ofNat place.column ++ ")"
      else ""
    fault.message ++ " at position " ++ Text.ofNat offset ++ lines
  | tooManyRounds => "the repetition number is too large"
  | clashingFlags => "ASCII and UNICODE flags are incompatible"
  | numeral fault => fault.message

end JsonPath
