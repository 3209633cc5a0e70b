import JsonPath.Regex.Escape
import JsonPath.Unicode.Identifier

/-!
From patterns to regular expressions. The symbols are read from left to right, with a stack of the
groups that are open; the first fault on the way is the one that is reported. Faults of the whole
expression, such as references to groups that never come, are looked for at the end.
-/

namespace JsonPath.Regex

/-- What an open group will be when it is closed. A look around keeps the bound on references that
holds outside of it. -/
inductive Opening where
  | whole
  | capture (number : Nat)
  | plain (change : FlagChange)
  | atomic
  | look (ahead negated : Bool) (limit? : Option Nat)
  | condition (number : Nat)

/-- An open group: where it starts, the branches that are complete, and the items of the current
one, the last first. -/
structure Frame where
  opening : Opening
  start : Nat
  verbose : Bool
  branches : List Regex
  items : List Regex

namespace Frame

def branch (frame : Frame) : Regex :=
  match frame.items with
  | [] => .empty
  | last :: before => before.foldl (fun rest item => .sequence item rest) last

def body (frame : Frame) : Regex :=
  frame.branches.foldl (fun rest branch => .choice branch rest) frame.branch

def closed (frame : Frame) : Regex :=
  match frame.opening with
  | .whole => frame.body
  | .capture number => .group (some number) ⟨[], []⟩ frame.body
  | .plain change => .group none change frame.body
  | .atomic => .atomic frame.body
  | .look ahead negated _ => .look ahead negated frame.body
  | .condition number =>
    match frame.branches with
    | [] => .condition number frame.branch .empty
    | yes :: _ => .condition number yes frame.branch

end Frame

/-- What is known of a pattern up to a place: the open groups, the widths of the groups that are
remembered (none while they are open), their names, the groups that may not be referred to, the
conditions with their places, and the flags of the whole expression. -/
structure Progress where
  frame : Frame
  outer : List Frame
  widths : List (Option Width)
  names : List (Text × Nat)
  limit? : Option Nat
  conditions : List (Nat × Nat)
  flags : List Flag

namespace Progress

def start : Progress := ⟨⟨.whole, 0, false, [], []⟩, [], [], [], none, [], []⟩

def add (item : Regex) (p : Progress) : Progress :=
  { p with frame := { p.frame with items := item :: p.frame.items } }

def enter (opening : Opening) (start : Nat) (verbose : Bool) (p : Progress) : Progress :=
  { p with frame := ⟨opening, start, verbose, [], []⟩, outer := p.frame :: p.outer }

def width? (number : Nat) (p : Progress) : Option Width :=
  if number = 0 then none else (p.widths[number - 1]?).join

def leave (p : Progress) : Progress :=
  match p.outer with
  | [] => p
  | parent :: outer =>
    let left := { p with frame := parent, outer }
    let closed := left.add p.frame.closed
    match p.frame.opening with
    | .capture number =>
      { closed with widths := p.widths.set (number - 1) (some p.frame.body.width) }
    | .look _ _ limit? => { closed with limit? }
    | _ => closed

def alternate (p : Progress) : Progress :=
  { p with frame := { p.frame with branches := p.frame.branch :: p.frame.branches, items := [] } }

/-- Requires that the group may be referred to from inside a lookbehind. -/
def checkLimit (number : Nat) (p : Progress) : Reader Unit :=
  match p.limit? with
  | none => return ()
  | some limit =>
    if (p.width? number).isNone then Reader.fail .referenceToOpenGroup 0
    else if limit ≤ number then Reader.fail .referenceInsideLookbehind 0
    else return ()

end Progress

def groupName (terminator : CodePoint) : Reader Text := do
  let name ← Reader.takeName terminator "group name"
  if Unicode.isIdentifier name.toList then return name
  else Reader.fail (.badGroupName name) (name.length + 1)

/-- A reference back to a group, given by a number that starts with the digit, or the character
that three octal digits write. -/
def numberedReference (p : Progress) (first : CodePoint) : Reader Regex := do
  let more ← Reader.takeMost 1 fun c => '0' ≤ c && c ≤ '9'
  let digits := first :: more
  let third ←
    if digits.length = 2 && digits.all isOctalDigit then Reader.takeMost 1 isOctalDigit
    else pure []
  if third.isEmpty then
    let number := Unicode.digitsValue digits
    if p.widths.length < number then Reader.fail (.unknownGroup number) digits.length
    else match p.width? number with
      | none => Reader.fail .referenceToOpenGroup (digits.length + 1)
      | some width =>
        p.checkLimit number
        return .reference number width
  else return .literal (← octalCode (digits ++ third))

def escape (p : Progress) (c : CodePoint) : Reader Regex :=
  match anchorOf? c, categoryOf? c, controlCode? c with
  | some place, _, _ => return .anchor place
  | none, some category, _ => return .set false [category]
  | none, none, some code => return .literal code
  | none, none, none =>
    if c = '0' then do
      let digits ← Reader.takeMost 2 isOctalDigit
      return .literal (octalNumber digits)
    else if '1' ≤ c ∧ c ≤ '9' then numberedReference p c
    else return .literal (← characterEscape c)

def memberOf : Symbol → Reader Member
  | .plain c => return .code c.toNat
  | .escaped c => memberEscape c

def members (start : Nat) (symbol : Symbol) : Reader (List Member × Bool) := do
  let first ← memberOf symbol
  if !(← Reader.accept '-') then return ([first], false)
  match ← Reader.next with
  | none => Reader.failAt .openSet start
  | some (.plain ']') => return ([first, .code '-'.toNat], true)
  | some other =>
    let last ← memberOf other
    let bad := Reader.fail (.badRange symbol.text other.text) (symbol.size + 1 + other.size)
    match first, last with
    | .code a, .code b => if b < a then bad else return ([.range a b], false)
    | _, _ => bad

/-- The members of a set up to the bracket that closes it, of which there is one at least. -/
def setMembers (start : Nat) (before : List Member) (characters : CharacterNames) (s : Source) :
    Except PatternError (Taken s (List Member)) := do
  match ← s.uncons with
  | none => .error (.malformed .openSet (some start))
  | some (symbol, ⟨t, shorter⟩) =>
    if symbol = .plain ']' ∧ before ≠ [] then return ⟨before, t, Nat.le_of_lt shorter⟩
    else
      let r ← members start symbol characters t
      have := r.size_le
      if r.item.2 then return ⟨before ++ r.item.1, r.rest, by omega⟩
      else
        let more ← setMembers start (before ++ r.item.1) characters r.rest
        have := more.size_le
        return ⟨more.item, more.rest, by omega⟩
termination_by s.size

def characterSet : Reader Regex := do
  let start := (← Reader.offset) - 1
  let negated ← Reader.accept '^'
  return .set negated (← setMembers start [])

/-- Rounds are counted up to this number. -/
def mostRounds : Nat := 4294967295

def roundCount (digits : List CodePoint) : Reader (Option Nat) :=
  if digits.isEmpty then return none
  else match Numeral.integer false digits with
    | .error fault => Reader.throw (.numeral fault)
    | .ok n => if mostRounds ≤ n.toNat then Reader.throw .tooManyRounds else return some n.toNat

def bounds : Reader (Option (List CodePoint × List CodePoint)) := do
  let least ← Reader.takeAll CodePoint.isDigit
  let greatest ← if ← Reader.accept ',' then Reader.takeAll CodePoint.isDigit else pure least
  if ← Reader.accept '\x7d' then return some (least, greatest) else return none

/-- The bounds that a sign of repetition gives; braces that are none stand for themselves. -/
def repetition? (sign : CodePoint) : Reader (Option (Nat × Option Nat)) := do
  let start ← Reader.offset
  match sign with
  | '*' => return some (0, none)
  | '+' => return some (1, none)
  | '?' => return some (0, some 1)
  | _ =>
    if (← Reader.peek) = some (.plain '\x7d') then return none
    match ← Reader.whole bounds with
    | none => return none
    | some (leastDigits, greatestDigits) =>
      let least ← roundCount leastDigits
      let greatest ← roundCount greatestDigits
      if greatest.any (· < least.getD 0) then Reader.failAt .emptyRange start
      return some (least.getD 0, greatest)

def greed : Reader Greed := do
  if ← Reader.accept '?' then return .lazy
  if ← Reader.accept '+' then return .possessive
  return .greedy

def repetition (p : Progress) (sign : CodePoint) : Reader Progress := do
  let start := (← Reader.offset) - 1
  match ← repetition? sign with
  | none => return p.add (.literal sign.toNat)
  | some (least, greatest) =>
    match p.frame.items with
    | [] => Reader.failAt .nothingToRepeat start
    | .anchor _ :: _ => Reader.failAt .nothingToRepeat start
    | .rounds _ _ _ _ :: _ => Reader.failAt .repeatedRepetition start
    | item :: before =>
      let items := .rounds (← greed) least greatest item :: before
      return { p with frame := { p.frame with items } }

def flagOf? (symbol : Symbol) : Option Flag := symbol.plain?.bind Flag.ofLetter?

def failFlag {α : Type} (symbol : Symbol) (missing : PatternFault) : Reader α :=
  Reader.fail (if symbol.plain?.any Unicode.isLetter then .unknownFlag else missing) symbol.size

/-- The rules for a list of flags: which flag is refused after which others, the characters that
can end the list, and the fault if none of them comes. -/
structure FlagRules where
  refused? : Flag → List Flag → Option PatternFault
  ends : List CodePoint
  missing : PatternFault

def FlagRules.on : FlagRules where
  refused? flag before :=
    if flag = .localeRules then some .localeFlag
    else if flag.choosesCharacters && before.any fun f => f.choosesCharacters && f ≠ flag then
      some .clashingFlags
    else none
  ends := [')', '-', ':']
  missing := .openFlags

def FlagRules.off : FlagRules where
  refused? flag _ := if flag.choosesCharacters then some .turnsOffCharacterFlag else none
  ends := [':']
  missing := .openOffFlags

def flagList (rules : FlagRules) (before : List Flag) (flag : Flag)
    (characters : CharacterNames) (s : Source) :
    Except PatternError (Taken s (List Flag × CodePoint)) :=
  match rules.refused? flag before with
  | some fault => Reader.fail fault 0 characters s
  | none =>
    match s.uncons with
    | .error error => .error error
    | .ok none => Reader.fail rules.missing 0 characters s
    | .ok (some (symbol, ⟨t, shorter⟩)) =>
      match symbol.plain?.filter rules.ends.contains, flagOf? symbol with
      | some last, _ => .ok ⟨(flag :: before, last), t, Nat.le_of_lt shorter⟩
      | none, some next => do
        let r ← flagList rules (flag :: before) next characters t
        return ⟨r.item, r.rest, Nat.le_trans r.size_le (Nat.le_of_lt shorter)⟩
      | none, none => do
        let r ← failFlag symbol rules.missing characters t
        return ⟨r.item, r.rest, Nat.le_trans r.size_le (Nat.le_of_lt shorter)⟩
termination_by s.size

def flagsOff : Reader (List Flag) := do
  match ← Reader.next with
  | none => Reader.fail .noFlag 0
  | some symbol =>
    match flagOf? symbol with
    | none => failFlag symbol .noFlag
    | some flag =>
      let off ← flagList .off [] flag
      if off.1.contains .template then Reader.fail .turnsOffGlobalFlag 1
      return off.1

def openFlagged (p : Progress) (start : Nat) (on off : List Flag) : Reader Progress := do
  if on.any off.contains then Reader.fail .flagOnAndOff 1
  let verbose := (p.frame.verbose || on.contains .verbose) && !off.contains .verbose
  return p.enter (.plain ⟨on, off⟩) start verbose

def flags (p : Progress) (start : Nat) (first : Symbol) : Reader Progress :=
  match flagOf? first with
  | none =>
    if first = .plain '-' then do openFlagged p start [] (← flagsOff)
    else Reader.fail (.unknownExtension ("?" ++ first.text)) (first.size + 1)
  | some flag => do
    let (on, last) ← flagList .on [] flag
    if last = ')' then
      let inFront := p.outer.isEmpty && p.frame.branches.isEmpty && p.frame.items.isEmpty
      if !inFront then Reader.failAt .lateFlags start
      let flags := on ++ p.flags
      return { p with flags, frame := { p.frame with verbose := flags.contains .verbose } }
    else
      if on.contains .template then Reader.fail .turnsOnGlobalFlag 1
      openFlagged p start on (← if last = '-' then flagsOff else pure [])

def openCapture (p : Progress) (start : Nat) (name? : Option Text) : Reader Progress := do
  let number := p.widths.length + 1
  let former? := name?.bind fun name =>
    (p.names.find? (·.1 = name)).map fun entry => (name, entry.2)
  if let some (name, former) := former? then
    Reader.fail (.groupNameTaken name number former) (name.length + 1)
  let names := (name?.map fun name => (name, number)).toList ++ p.names
  let opened := p.enter (.capture number) start p.frame.verbose
  return { opened with names, widths := p.widths ++ [none] }

def namedReference (p : Progress) : Reader Progress := do
  let name ← groupName ')'
  match p.names.find? (·.1 = name) with
  | none => Reader.fail (.unknownGroupName name) (name.length + 1)
  | some (_, number) =>
    match p.width? number with
    | none => Reader.fail .referenceToOpenGroup (name.length + 1)
    | some width =>
      p.checkLimit number
      return p.add (.reference number width)

def extension (p : Progress) (start : Nat) : Reader Progress := do
  if ← Reader.accept '<' then openCapture p start (some (← groupName '>'))
  else if ← Reader.accept '=' then namedReference p
  else match ← Reader.next with
    | none => Reader.fail .patternEnds 0
    | some symbol => Reader.fail (.unknownExtension ("?P" ++ symbol.text)) (symbol.size + 2)

def comment (start : Nat) : Reader Unit := do
  let symbols ← Reader.upTo (· = .plain ')')
  Reader.skip symbols.length
  if !(← Reader.accept ')') then Reader.failAt .openComment start

def openLookahead (p : Progress) (start : Nat) (negated : Bool) : Progress :=
  p.enter (.look true negated p.limit?) start p.frame.verbose

/-- Opens a look backwards, in which groups that are not there yet cannot be referred to. -/
def openLookbehind (p : Progress) (start : Nat) (negated : Bool) : Progress :=
  { p.enter (.look false negated p.limit?) start p.frame.verbose with
    limit? := some (p.limit?.getD (p.widths.length + 1)) }

def lookbehind (p : Progress) (start : Nat) : Reader Progress := do
  match ← Reader.next with
  | none => Reader.fail .patternEnds 0
  | some (.plain '=') => return openLookbehind p start false
  | some (.plain '!') => return openLookbehind p start true
  | some symbol => Reader.fail (.unknownExtension ("?<" ++ symbol.text)) (symbol.size + 2)

/-- Numbers of groups are below this one. -/
def mostGroups : Int := 2147483647

def conditionGroup (p : Progress) (name : Text) : Reader (Nat × Bool) := do
  let back := name.length + 1
  if Unicode.isIdentifier name.toList then
    match p.names.find? (·.1 = name) with
    | none => Reader.fail (.unknownGroupName name) back
    | some (_, number) => return (number, false)
  else
    match Numeral.readInteger name with
    | .error _ => Reader.fail (.badGroupName name) back
    | .ok number =>
      if number < 0 then Reader.fail (.badGroupName name) back
      else if number = 0 then Reader.fail .groupZero back
      else if mostGroups ≤ number then Reader.fail (.unknownGroup number.toNat) back
      else return (number.toNat, true)

def openCondition (p : Progress) (start : Nat) : Reader Progress := do
  let name ← Reader.takeName ')' "group name"
  let (number, counted) ← conditionGroup p name
  let place := (← Reader.offset) - (name.length + 1)
  let conditions := if counted then p.conditions ++ [(number, place)] else p.conditions
  p.checkLimit number
  return { p.enter (.condition number) start p.frame.verbose with conditions }

def openGroup (p : Progress) : Reader Progress := do
  let start := (← Reader.offset) - 1
  if !(← Reader.accept '?') then openCapture p start none
  else match ← Reader.next with
    | none => Reader.fail .patternEnds 0
    | some (.plain 'P') => extension p start
    | some (.plain ':') => return p.enter (.plain ⟨[], []⟩) start p.frame.verbose
    | some (.plain '#') => do
      comment start
      return p
    | some (.plain '=') => return openLookahead p start false
    | some (.plain '!') => return openLookahead p start true
    | some (.plain '<') => lookbehind p start
    | some (.plain '(') => openCondition p start
    | some (.plain '>') => return p.enter .atomic start p.frame.verbose
    | some symbol => flags p start symbol

def isVerboseBlank : Symbol → Bool
  | .plain c => c = ' ' || ('\t' ≤ c && c ≤ '\r')
  | .escaped _ => false

def step (p : Progress) (symbol : Symbol) : Reader Progress :=
  match symbol with
  | .escaped c => return p.add (← escape p c)
  | .plain c =>
    if p.frame.verbose && isVerboseBlank symbol then return p
    else if p.frame.verbose && c = '#' then do
      let symbols ← Reader.upTo (· = .plain '\n')
      Reader.skip (symbols.length + 1)
      return p
    else match c with
      | '|' => return p.alternate
      | ')' => return p.leave
      | '(' => openGroup p
      | '[' => return p.add (← characterSet)
      | '.' => return p.add .any
      | '^' => return p.add (.anchor .lineStart)
      | '$' => return p.add (.anchor .lineEnd)
      | c =>
        if [('*' : CodePoint), '+', '?', '\x7b'].contains c then repetition p c
        else return p.add (.literal c.toNat)

def refused? (p : Progress) (symbol : Symbol) : Option PatternFault :=
  match symbol, p.frame.opening with
  | .plain ')', .whole => some .loneParenthesis
  | .plain '|', .condition _ => if p.frame.branches.isEmpty then none else some .thirdBranch
  | _, _ => none

def steps (characters : CharacterNames) (p : Progress) (s : Source) :
    Except PatternError Progress :=
  match (s.symbols.head?).bind (refused? p) with
  | some .loneParenthesis =>
    if p.flags.contains .ascii && p.flags.contains .unicode then .error .clashingFlags
    else .error (.malformed .loneParenthesis (some s.offset))
  | some fault => .error (.malformed fault (some s.offset))
  | none =>
    match s.uncons with
    | .error error => .error error
    | .ok none => .ok p
    | .ok (some (symbol, ⟨t, _shorter⟩)) =>
      match step p symbol characters t with
      | .error error => .error error
      | .ok r =>
        have := r.size_le
        steps characters r.item r.rest
termination_by s.size

/-- The fault of a look backwards by a width, which has to be a single length. -/
def lookbehindFault? (width : Width) : Option PatternFault :=
  if mostRounds < width.least then some .wideLookbehind
  else if width.greatest? ≠ some width.least then some .unevenLookbehind
  else none

def complete (p : Progress) : Except PatternError Regex :=
  let regex : Regex := .group none ⟨p.flags, []⟩ p.frame.body
  if p.frame.opening matches .whole then
    if p.flags.contains .ascii && p.flags.contains .unicode then .error .clashingFlags
    else match p.conditions.find? fun condition => p.widths.length < condition.1 with
      | some (number, place) => .error (.malformed (.unknownGroup number) (some place))
      | none =>
        match regex.lookbehinds.findSome? lookbehindFault? with
        | some fault => .error (.malformed fault none)
        | none => .ok regex
  else .error (.malformed .openGroup (some p.frame.start))

/-- The regular expression that a pattern writes, with characters named as in the database. -/
def ofPattern (characters : CharacterNames) (pattern : Text) : Except PatternError Regex := do
  let source ← Source.ofPattern pattern.toList
  complete (← steps characters .start source)

end JsonPath.Regex
