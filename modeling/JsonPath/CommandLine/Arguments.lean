import JsonPath.CommandLine.Files
import JsonPath.Number.Numeral

/-!
The arguments of the command line: a query, perhaps a file, and options between them. Options can be
shortened as long as one option alone is meant, flags of one letter can be joined, and after two
dashes nothing is an option any more.

The words become a plan: what is asked for, in its order, and what is wrong with the words, if
anything is. A plan is carried out up to its fault.
-/

namespace JsonPath.CommandLine

inductive Switch where
  | help
  | paths
  | indent
  | verbose
  | version
deriving DecidableEq, Repr

namespace Switch

def spellings : List (Text × Switch) :=
  [("-h", help), ("--help", help), ("--paths", paths), ("--indent", indent), ("-v", verbose),
    ("--verbose", verbose), ("--version", version)]

def ofSpelling? (spelling : Text) : Option Switch :=
  (spellings.find? (·.1 = spelling)).map (·.2)

def label (switch : Switch) : Text :=
  Text.intercalate "/" ((spellings.filter (·.2 = switch)).map (·.1))

end Switch

inductive UsageError where
  | ambiguous (word : Text) (spellings : List Text)
  | unusedText (switch : Switch) (text : Text)
  | noText (switch : Switch)
  | badInteger (switch : Switch) (text : Text)
  | noFileName (text : Text)
  | unreadable (name : Text) (fault : FileFault)
  | noQuery
  | leftOver (words : List Text)
deriving DecidableEq, Repr

def UsageError.message : UsageError → Text
  | ambiguous word spellings =>
    "ambiguous option: " ++ word ++ " could match " ++ Text.intercalate ", " spellings
  | unusedText switch text =>
    "argument " ++ switch.label ++ ": ignored explicit argument " ++ Text.quoted text
  | noText switch => "argument " ++ switch.label ++ ": expected one argument"
  | badInteger switch text => "argument " ++ switch.label ++ ": invalid int value: " ++
    Text.quoted text
  | noFileName text => "argument file: invalid FileType('r') value: " ++ Text.quoted text
  | unreadable name fault => "argument file: can't open '" ++ name ++ "': " ++ fault.message name
  | noQuery => "the following arguments are required: query"
  | leftOver words => "unrecognized arguments: " ++ Text.intercalate " " words

inductive Request where
  | query (text : Text)
  | file (name : Text)
  | standardInput
  | indent (width : Int)
  | set (switch : Switch)
deriving DecidableEq, Repr

structure Plan where
  requests : List Request
  fault? : Option UsageError
deriving DecidableEq, Repr

def Plan.stop (fault : UsageError) : Plan := ⟨[], some fault⟩

def Plan.after (requests : List Request) (plan : Plan) : Plan :=
  { plan with requests := requests ++ plan.requests }

/-- What a word of the command line is. In one word with an option text can be attached to it, after
an equals sign or right after a flag of one letter. -/
inductive Word where
  | argument (text : Text)
  | separator
  | switch (switch : Switch) (spelling : Text) (attached? : Option Text)
  | unknown (text : Text)
deriving DecidableEq, Repr

def splitSign (word : List CodePoint) : List CodePoint × Option (List CodePoint) :=
  match word.dropWhile (· ≠ ('=' : CodePoint)) with
  | [] => (word, none)
  | _ :: rest => (word.takeWhile (· ≠ '='), some rest)

def isNegativeNumber : List CodePoint → Bool
  | '-' :: digits =>
    let fraction := (digits.dropWhile Unicode.isDigit).drop 1
    match digits.dropWhile Unicode.isDigit with
    | [] => !digits.isEmpty
    | ['\n'] => 1 < digits.length
    | '.' :: _ =>
      match fraction.dropWhile Unicode.isDigit with
      | [] => !fraction.isEmpty
      | ['\n'] => 1 < fraction.length
      | _ => false
    | _ => false
  | _ => false

/-- The options that a word with a dash can mean if it is no option in full. -/
def candidates (word : List CodePoint) : List (Text × Word) :=
  match word with
  | '-' :: '-' :: _ =>
    let (start, text?) := splitSign word
    (Switch.spellings.filter fun entry => start.isPrefixOf entry.1.toList).map
      fun (spelling, switch) => (spelling, .switch switch spelling (text?.map Text.ofList))
  | _ =>
    Switch.spellings.filterMap fun (spelling, switch) =>
      if spelling.toList = word.take 2 then
        some (spelling, .switch switch spelling (some (Text.ofList (word.drop 2))))
      else if word.isPrefixOf spelling.toList then some (spelling, .switch switch spelling none)
      else none

def classify (word : Text) : Except UsageError Word :=
  match word.toList with
  | '-' :: c :: rest =>
    let chars := ('-' : CodePoint) :: c :: rest
    let (start, text?) := splitSign chars
    match Switch.ofSpelling? word, text?, Switch.ofSpelling? (Text.ofList start) with
    | some switch, _, _ => .ok (.switch switch word none)
    | none, some text, some switch =>
      .ok (.switch switch (Text.ofList start) (some (Text.ofList text)))
    | _, _, _ =>
      match candidates chars with
      | [(_, meant)] => .ok meant
      | [] =>
        if isNegativeNumber chars || chars.contains ' ' then .ok (.argument word)
        else .ok (.unknown word)
      | many => .error (.ambiguous word (many.map (·.1)))
  | _ => .ok (.argument word)

def classifyAll : List Text → Except UsageError (List Word)
  | [] => .ok []
  | "--" :: rest => .ok (.separator :: rest.map .argument)
  | word :: rest => do
    let first ← classify word
    let more ← classifyAll rest
    return first :: more

def joinedFlags (switch : Switch) : List CodePoint → Except UsageError (List Request)
  | [] => .ok [.set switch]
  | c :: rest =>
    match Switch.ofSpelling? (Text.ofList ['-', c]) with
    | some next => do return .set switch :: (← joinedFlags next rest)
    | none => .error (.unusedText switch (Text.ofList (c :: rest)))

def plainSwitch (switch : Switch) (spelling : Text) (attached? : Option Text) :
    Except UsageError (List Request) :=
  match attached? with
  | none => .ok [.set switch]
  | some text =>
    if spelling.length = 2 ∧ text ≠ "" then joinedFlags switch text.toList
    else .error (.unusedText switch text)

def indentRequest (text : Text) : Except UsageError Request :=
  match Numeral.readInteger text with
  | .ok width => .ok (.indent width)
  | .error _ => .error (.badInteger .indent text)

/-- The request for a file, which is read from standard input if there are only two dashes. -/
def fileRequest (name : Text) : Request := if name = "--" then .standardInput else .file name

def withoutSeparator : List Word → List Word
  | .separator :: rest => rest
  | words => words

def fileAfter : List Word → Request × List Word
  | .argument name :: rest => (fileRequest name, withoutSeparator rest)
  | words => (.standardInput, words)

theorem length_withoutSeparator_le (words : List Word) :
    (withoutSeparator words).length ≤ words.length := by
  unfold withoutSeparator
  split <;> simp

theorem length_fileAfter_le (words : List Word) : (fileAfter words).2.length ≤ words.length := by
  unfold fileAfter
  split
  · exact Nat.le_succ_of_le (length_withoutSeparator_le _)
  · exact Nat.le_refl _

/-- The plan for the rest of the words. `asked` tells whether the query has been found, and
`leftOver` holds the words before that have no use. -/
def planOf (asked : Bool) (leftOver : List Text) (words : List Word) : Plan :=
  match words with
  | [] =>
    if !asked then .stop .noQuery
    else if leftOver.isEmpty then ⟨[], none⟩
    else .stop (.leftOver leftOver)
  | .switch .indent _ (some text) :: rest =>
    match indentRequest text with
    | .ok request => (planOf asked leftOver rest).after [request]
    | .error fault => .stop fault
  | .switch .indent _ none :: .argument text :: rest =>
    match indentRequest text with
    | .ok request => (planOf asked leftOver rest).after [request]
    | .error fault => .stop fault
  | .switch .indent _ none :: _ => .stop (.noText .indent)
  | .switch switch spelling attached? :: rest =>
    match plainSwitch switch spelling attached? with
    | .ok requests => (planOf asked leftOver rest).after requests
    | .error fault => .stop fault
  | .unknown text :: rest => planOf asked (leftOver ++ [text]) rest
  | .argument text :: rest =>
    if asked then planOf asked (leftOver ++ [text]) rest
    else
      have := length_fileAfter_le (withoutSeparator rest)
      have := length_withoutSeparator_le rest
      (planOf true leftOver (fileAfter (withoutSeparator rest)).2).after
        [.query text, (fileAfter (withoutSeparator rest)).1]
  | .separator :: .argument text :: rest =>
    if asked then planOf asked (leftOver ++ [("--" : Text), text]) rest
    else
      have := length_fileAfter_le rest
      (planOf true leftOver (fileAfter rest).2).after [.query text, (fileAfter rest).1]
  | .separator :: rest => planOf asked (leftOver ++ [("--" : Text)]) rest
termination_by words.length

def Plan.ofWords (words : List Text) : Plan :=
  match classifyAll words with
  | .ok words => planOf false [] words
  | .error fault => .stop fault

end JsonPath.CommandLine
