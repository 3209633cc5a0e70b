import JsonPath.Regex

/-!
Matching by backtracking. A place in a text is what lies before and after it, and an expression is
matched from a place on by trying each way in the order of preference, until what follows the
expression accepts the place that is reached.
-/

namespace JsonPath.Regex

structure Capture where
  number : Nat
  start : List CodePoint
  length : Nat

def Capture.text (capture : Capture) : List CodePoint := capture.start.take capture.length

/-- A place in a text, and the captures of the groups that have matched, the latest first. What lies
before the place is kept backwards, with its length. -/
structure Place where
  before : List CodePoint
  after : List CodePoint
  groups : List Capture
  offset : Nat
  offset_eq : offset = before.length

namespace Place

def start (text : List CodePoint) : Place := ⟨[], text, [], 0, rfl⟩

def group? (number : Nat) (place : Place) : Option (List CodePoint) :=
  (place.groups.find? (·.number = number)).map (·.text)

def move (c : CodePoint) (rest : List CodePoint) (place : Place) : Place :=
  ⟨c :: place.before, rest, place.groups, place.offset + 1, by simp [place.offset_eq]⟩

def back (count : Nat) (place : Place) : Place :=
  ⟨place.before.drop count, (place.before.take count).reverse ++ place.after, place.groups,
    place.offset - count, by simp [place.offset_eq]⟩

def remember (number : Nat) (reached began : Place) : Place :=
  { reached with
    groups := ⟨number, began.after, reached.offset - began.offset⟩ :: reached.groups }

def isBoundary (ascii : Bool) (place : Place) : Bool :=
  place.before.head?.any (Category.word.holds ascii ·) !=
    place.after.head?.any (Category.word.holds ascii ·)

/-- Whether an anchor holds at the place. An empty text has neither a boundary nor a place that is
none. -/
def satisfies (mode : Mode) (place : Place) : Anchor → Bool
  | .textStart => place.before.isEmpty
  | .textEnd => place.after.isEmpty
  | .lineStart => place.before.isEmpty || (mode.multiline && place.before.head? == some '\n')
  | .lineEnd =>
    place.after.isEmpty || place.after == [('\n' : CodePoint)] ||
      (mode.multiline && place.after.head? == some '\n')
  | .boundary =>
    !(place.before.isEmpty && place.after.isEmpty) && place.isBoundary mode.ascii
  | .noBoundary =>
    !(place.before.isEmpty && place.after.isEmpty) && !place.isBoundary mode.ascii

end Place

def Mode.same (mode : Mode) (a b : CodePoint) : Bool :=
  if mode.ignoreCase then
    if mode.ascii then a.toLower = b.toLower
    else Unicode.lowerCode a.toNat = Unicode.lowerCode b.toNat
  else a = b

def matchText (mode : Mode) : List CodePoint → Place → Option Place
  | [], place => some place
  | c :: rest, place =>
    match place.after with
    | d :: after => if mode.same c d then matchText mode rest (place.move d after) else none
    | [] => none

/-- What becomes of a match that has come to a place: the place where all of it ends, if what is
still to come can be matched. -/
abbrev Rest := Place → Option Place

/-- A way to match from a place on, before what is still to come. -/
abbrev Way := Place → Rest → Option Place

def requiredRounds (body : Way) : Nat → Way
  | 0, place, rest => rest place
  | count + 1, place, rest => body place fun reached => requiredRounds body count reached rest

/-- Whether another round may begin: there have not been too many, and the last one has moved. -/
def mayRepeat (left? : Option Nat) (last? : Option Nat) (place : Place) : Bool :=
  left? != some 0 && last? != some place.offset

/-- Further rounds, more of them preferred. The fuel bounds their number; each but the last takes a
character, so the characters that are left, and one more, are enough. -/
def greedyRounds (body : Way) : Nat → Option Nat → Option Nat → Way
  | 0, _, _, place, rest => rest place
  | fuel + 1, left?, last?, place, rest =>
    let more :=
      if mayRepeat left? last? place then
        body place fun reached =>
          greedyRounds body fuel (left?.map (· - 1)) (some place.offset) reached rest
      else none
    match more with
    | some found => some found
    | none => rest place

def lazyRounds (body : Way) : Nat → Option Nat → Option Nat → Way
  | 0, _, _, place, rest => rest place
  | fuel + 1, left?, last?, place, rest =>
    match rest place with
    | some found => some found
    | none =>
      if mayRepeat left? last? place then
        body place fun reached =>
          lazyRounds body fuel (left?.map (· - 1)) (some place.offset) reached rest
      else none

/-- The place after as many rounds as have to be, of which none is tried in another way later. -/
def requiredOnce (body : Way) : Nat → Place → Option Place
  | 0, place => some place
  | count + 1, place => (body place some).bind (requiredOnce body count)

def possessiveRounds (body : Way) : Nat → Option Nat → Option Nat → Place → Place
  | 0, _, _, place => place
  | fuel + 1, left?, last?, place =>
    match if mayRepeat left? last? place then body place some else none with
    | some reached =>
      possessiveRounds body fuel (left?.map (· - 1)) (some place.offset) reached
    | none => place

def repeated (greed : Greed) (least : Nat) (greatest? : Option Nat) (body : Way) : Way :=
  fun place rest =>
    let left? := greatest?.map (· - least)
    match greed with
    | .greedy =>
      requiredRounds body least place fun reached =>
        greedyRounds body (reached.after.length + 2) left? none reached rest
    | .lazy =>
      requiredRounds body least place fun reached =>
        lazyRounds body (reached.after.length + 2) left? none reached rest
    | .possessive =>
      (requiredOnce body least place).bind fun reached =>
        rest (possessiveRounds body (reached.after.length + 2) left? none reached)

def matchAt (mode : Mode) : Regex → Way
  | .empty, place, rest => rest place
  | .any, place, rest =>
    match place.after with
    | c :: after => if mode.dotAll || c ≠ '\n' then rest (place.move c after) else none
    | [] => none
  | .set negated members, place, rest =>
    match place.after with
    | c :: after =>
      if members.any (·.holds mode c) != negated then rest (place.move c after) else none
    | [] => none
  | .anchor assertion, place, rest => if place.satisfies mode assertion then rest place else none
  | .sequence first second, place, rest =>
    matchAt mode first place fun reached => matchAt mode second reached rest
  | .choice first second, place, rest =>
    match matchAt mode first place rest with
    | some found => some found
    | none => matchAt mode second place rest
  | .rounds greed least greatest? body, place, rest =>
    repeated greed least greatest? (matchAt mode body) place rest
  | .group none change body, place, rest => matchAt (mode.change change) body place rest
  | .group (some number) change body, place, rest =>
    matchAt (mode.change change) body place fun reached => rest (reached.remember number place)
  | .atomic body, place, rest => (matchAt mode body place some).bind rest
  | .look true negated body, place, rest =>
    match matchAt mode body place some with
    | some reached => if negated then none else rest { place with groups := reached.groups }
    | none => if negated then rest place else none
  | .look false negated body, place, rest =>
    let count := body.width.least
    let found :=
      if place.offset < count then none else matchAt mode body (place.back count) some
    match found with
    | some reached => if negated then none else rest { place with groups := reached.groups }
    | none => if negated then rest place else none
  | .reference number _, place, rest =>
    ((place.group? number).bind fun text => matchText mode text place).bind rest
  | .condition number yes no, place, rest =>
    if (place.group? number).isSome then matchAt mode yes place rest
    else matchAt mode no place rest

def matchesAll (regex : Regex) (text : Text) : Bool :=
  (matchAt .plain regex (.start text.toList) fun place =>
    if place.after.isEmpty then some place else none).isSome

def matchesFrom (regex : Regex) : List CodePoint → Place → Bool
  | [], place => (matchAt .plain regex place some).isSome
  | c :: after, place =>
    (matchAt .plain regex place some).isSome || matchesFrom regex after (place.move c after)

def matchesPart (regex : Regex) (text : Text) : Bool :=
  matchesFrom regex text.toList (.start text.toList)

end JsonPath.Regex
