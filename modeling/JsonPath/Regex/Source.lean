import JsonPath.Regex.PatternError

/-!
The text of a pattern as symbols: single characters, and characters behind a backslash. A reader
takes symbols off the front. It never puts one back, so what is left is never longer than before.
-/

namespace JsonPath.Regex

/-- A character of a pattern, with the backslash before it if there is one. -/
inductive Symbol where
  | plain (c : CodePoint)
  | escaped (c : CodePoint)
deriving DecidableEq, Repr

namespace Symbol

def size : Symbol → Nat
  | plain _ => 1
  | escaped _ => 2

def chars : Symbol → List CodePoint
  | plain c => [c]
  | escaped c => ['\\', c]

def text (symbol : Symbol) : Text := Text.ofList symbol.chars

def plain? : Symbol → Option CodePoint
  | plain c => some c
  | escaped _ => none

end Symbol

/-- The symbols of a pattern, and whether a backslash with nothing after it ends it. -/
def symbolsOf : List CodePoint → List Symbol × Bool
  | [] => ([], false)
  | ['\\'] => ([], true)
  | '\\' :: c :: rest => (.escaped c :: (symbolsOf rest).1, (symbolsOf rest).2)
  | c :: rest => (.plain c :: (symbolsOf rest).1, (symbolsOf rest).2)

/-- The part of a pattern that is still to be read, and the offset at which it starts. -/
structure Source where
  symbols : List Symbol
  dangling : Bool
  offset : Nat

namespace Source

def size (s : Source) : Nat := s.symbols.length

/-- The source if there is more to come than a backslash that escapes nothing. -/
def checked (s : Source) : Except PatternError Source :=
  if s.symbols.isEmpty && s.dangling then .error (.malformed .openEscape (some s.offset)) else .ok s

def ofPattern (cs : List CodePoint) : Except PatternError Source :=
  checked ⟨(symbolsOf cs).1, (symbolsOf cs).2, 0⟩

def drop (count : Nat) (s : Source) : Source :=
  { s with
    symbols := s.symbols.drop count
    offset := s.offset + ((s.symbols.take count).flatMap Symbol.chars).length }

def uncons (s : Source) :
    Except PatternError (Option (Symbol × { t : Source // t.size < s.size })) :=
  match h : s.symbols with
  | [] => .ok none
  | symbol :: rest =>
    let t : Source := ⟨rest, s.dangling, s.offset + symbol.size⟩
    match t.checked with
    | .ok _ => .ok (some (symbol, ⟨t, by simp [t, size, h]⟩))
    | .error error => .error error

theorem size_drop_le (count : Nat) (s : Source) : (s.drop count).size ≤ s.size := by
  simp [drop, size]

theorem eq_of_checked {s t : Source} (h : s.checked = .ok t) : t = s := by
  unfold checked at h
  split at h
  · contradiction
  · exact (Except.ok.inj h).symm

end Source

/-- What was read from a source, and the source after it. -/
structure Taken (s : Source) (α : Type) where
  item : α
  rest : Source
  size_le : rest.size ≤ s.size

/-- A database of characters: their code points by their names. -/
abbrev CharacterNames := Text → Option Nat

def CharacterNames.none : CharacterNames := fun _ => Option.none

/-- A reader of patterns, which can look characters up by their names. -/
def Reader (α : Type) := CharacterNames → (s : Source) → Except PatternError (Taken s α)

namespace Reader

instance : Monad Reader where
  pure a := fun _ s => .ok ⟨a, s, Nat.le_refl _⟩
  bind x f := fun characters s => do
    let first ← x characters s
    let second ← f first.item characters first.rest
    return ⟨second.item, second.rest, Nat.le_trans second.size_le first.size_le⟩

def fail {α : Type} (fault : PatternFault) (back : Nat) : Reader α := fun _ s =>
  .error (.malformed fault (some (s.offset - back)))

def failAt {α : Type} (fault : PatternFault) (offset : Nat) : Reader α := fun _ _ =>
  .error (.malformed fault (some offset))

def throw {α : Type} (error : PatternError) : Reader α := fun _ _ => .error error

def lookup (name : Text) : Reader (Option Nat) := fun characters s =>
  .ok ⟨characters name, s, Nat.le_refl _⟩

def offset : Reader Nat := fun _ s => .ok ⟨s.offset, s, Nat.le_refl _⟩

def peek : Reader (Option Symbol) := fun _ s => .ok ⟨s.symbols.head?, s, Nat.le_refl _⟩

def skip (count : Nat) : Reader Unit := fun _ s =>
  match h : (s.drop count).checked with
  | .ok t => .ok ⟨(), t, Source.eq_of_checked h ▸ s.size_drop_le count⟩
  | .error error => .error error

def next : Reader (Option Symbol) := do
  let symbol? ← peek
  if symbol?.isSome then skip 1
  return symbol?

def accept (c : CodePoint) : Reader Bool := do
  if (← peek) = some (.plain c) then
    skip 1
    return true
  else return false

def upTo (stop : Symbol → Bool) : Reader (List Symbol) := fun _ s =>
  .ok ⟨s.symbols.takeWhile (!stop ·), s, Nat.le_refl _⟩

def takeAll (test : CodePoint → Bool) : Reader (List CodePoint) := do
  let symbols ← upTo fun symbol => !symbol.plain?.any test
  skip symbols.length
  return symbols.flatMap Symbol.chars

def takeMost (count : Nat) (test : CodePoint → Bool) : Reader (List CodePoint) := do
  let symbols ← upTo fun symbol => !symbol.plain?.any test
  skip (min count symbols.length)
  return (symbols.take count).flatMap Symbol.chars

/-- Takes a name, of which there has to be something, and the character that ends it. -/
def takeName (terminator : CodePoint) (what : Text) : Reader Text := do
  let symbols ← upTo (· = .plain terminator)
  let name := symbols.flatMap Symbol.chars
  skip symbols.length
  if ← accept terminator then
    if name.isEmpty then fail (.noName what) 1
    return Text.ofList name
  else if name.isEmpty then fail (.noName what) 0
  else fail (.openName terminator) name.length

/-- What the reader takes, or nothing at all if it finds nothing. -/
def whole {α : Type} (reader : Reader (Option α)) : Reader (Option α) := fun characters s => do
  let taken ← reader characters s
  if taken.item.isSome then return taken else return ⟨none, s, Nat.le_refl _⟩

end Reader

end JsonPath.Regex
