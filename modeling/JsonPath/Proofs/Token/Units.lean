import JsonPath.Proofs.Token.Encodings
import JsonPath.Text.Quoted

/-!
# The units of string literals

However a text is written between quotes, its UTF-16 units can be read off what is written. JSON
writes a text by its units alone, those of surrogates by their numbers. So two texts have one JSON
literal if they have the same units, and as the literal of a query it stands for the text in which
their pairs are joined, if no surrogate is left there.
-/

namespace JsonPath

namespace StringLiteral

open CodePoint (IsScalar)

variable {single : CodePoint → Prop} {quote c : CodePoint} {cs s e : List CodePoint}

/-- The UTF-16 units that are written between quotes. -/
def units (quote : CodePoint) : List CodePoint → List Nat
  | '\\' :: 'u' :: a :: b :: c :: d :: rest =>
    (Text.hexNumber? [a, b, c, d]).getD 0 :: units quote rest
  | '\\' :: letter :: rest => (unescape? quote letter).elim [] Text.utf16 ++ units quote rest
  | c :: rest => Text.utf16 c ++ units quote rest
  | [] => []

theorem units_unit {n : Nat} {digits : List CodePoint} (h : Text.WritesUnit n digits)
    (hn : n < 0x10000) (rest : List CodePoint) :
    units quote ('\\' :: 'u' :: (digits ++ rest)) = n :: units quote rest := by
  match digits, h.length_eq hn, h.hexNumber?_eq with
  | [a, b, c, d], _, hnumber =>
    simp only [List.cons_append, List.nil_append, units, hnumber, Option.getD_some]

theorem units_short {letter : CodePoint} (hletter : letter ≠ 'u')
    (hc : unescape? quote letter = some c) (rest : List CodePoint) :
    units quote ('\\' :: letter :: rest) = Text.utf16 c ++ units quote rest := by
  rw [units.eq_def]
  split
  next heq =>
    cases heq
    exact absurd rfl hletter
  next heq =>
    cases heq
    rw [hc, Option.elim_some]
  next hother heq =>
    cases heq
    exact (hother _ _ rfl rfl).elim
  next heq => cases heq

theorem units_itself (hslash : c ≠ '\\') (rest : List CodePoint) :
    units quote (c :: rest) = Text.utf16 c ++ units quote rest := by
  rw [units.eq_def]
  split
  next heq => exact absurd (List.cons.inj heq).1 hslash
  next heq => exact absurd (List.cons.inj heq).1 hslash
  next heq =>
    cases heq
    rfl
  next heq => cases heq

theorem Spelled.units (hquote : quote = '\'' ∨ quote = '"') (h : Spelled single quote c cs)
    (rest : List CodePoint) :
    StringLiteral.units quote (cs ++ rest) = Text.utf16 c ++ StringLiteral.units quote rest := by
  have hu : ∀ entry ∈ simpleEscapes, entry.1 ≠ 'u' := by decide
  have hquoteU : quote ≠ 'u' := by rcases hquote with rfl | rfl <;> decide
  cases h with
  | itself _ hslash => exact units_itself hslash rest
  | short h => exact units_short (hu _ h) ((unescape?_eq_some_iff hquote).2 (.inl h)) rest
  | quote => exact units_short hquoteU ((unescape?_eq_some_iff hquote).2 (.inr ⟨rfl, rfl⟩)) rest
  | unit _ hc h =>
    obtain ⟨hlt, rfl⟩ := Text.utf16_eq_singleton_iff.1 hc
    rw [hc]
    exact units_unit h hlt rest
  | pair hc h h' =>
    obtain ⟨hhigh, hlow⟩ := Text.lt_of_utf16_eq_pair hc
    simp only [List.cons_append, List.append_assoc, hc, units_unit h hhigh, units_unit h' hlow,
      List.nil_append]

/-- The units of a text are those that are written for it. -/
theorem Encodes.units (hquote : quote = '\'' ∨ quote = '"') (h : Encodes single quote s e) :
    StringLiteral.units quote e = Text.units s := by
  induction h with
  | nil => rfl
  | cons hc _ ih => rw [hc.units hquote, ih, Text.units_cons]

theorem Encodes.closingQuote?_eq (hquote : quote = '\'' ∨ quote = '"')
    (h : Encodes single quote s e) : Lexer.closingQuote? quote e = none := by
  induction h with
  | nil => rfl
  | cons hc _ ih => rw [Lexer.closingQuote?_spelled hquote hc, ih, Option.map_none]

theorem Spelled.isScalar (h : Spelled IsScalar quote c cs) (hcs : ∀ c ∈ cs, c.IsScalar) :
    c.IsScalar := by
  cases h with
  | itself => exact hcs c List.mem_cons_self
  | short h =>
    have hall : ∀ entry ∈ simpleEscapes, entry.2.IsScalar := by decide
    exact hall _ h
  | quote => exact hcs quote (List.mem_cons_of_mem _ List.mem_cons_self)
  | unit hscalar => exact hscalar
  | pair hc =>
    rcases Text.utf16_cases c with ⟨hsingle, -⟩ | ⟨_, _, -, habove⟩
    · cases hsingle.symm.trans hc
    · exact CodePoint.isScalar_iff.2 (.inr (by omega))

/-- What is written without surrogates stands for a text without surrogates. -/
theorem Encodes.isScalar (h : Encodes IsScalar quote s e) (he : ∀ c ∈ e, c.IsScalar) :
    ∀ c ∈ s, c.IsScalar := by
  induction h with
  | nil => exact List.forall_mem_nil _
  | cons hc _ ih =>
    obtain ⟨hcs, he⟩ := List.forall_mem_append.1 he
    exact List.forall_mem_cons.2 ⟨hc.isScalar hcs, ih he⟩

end StringLiteral

namespace Text

open CodePoint (IsScalar)
open StringLiteral (Encodes)

/-- Above ASCII a character is written by its units. -/
theorem jsonChar_of_le {c : CodePoint} (h : 128 ≤ c.toNat) :
    jsonChar c = (utf16 c).flatMap fun unit => ('\\' : CodePoint) :: 'u' :: hex 4 unit := by
  have hne {d : CodePoint} (hd : d.toNat < 128) : c ≠ d := by
    rintro rfl
    omega
  have hshort : shortEscape? c = none := by
    unfold shortEscape?
    split <;> first | rfl | exact absurd h (by decide)
  unfold jsonChar
  have hplain : ¬ (' ' ≤ c ∧ c ≤ '~') := fun hplain => by
    have hle : c.toNat ≤ 126 := hplain.2
    omega
  rw [if_neg (not_or.2 ⟨hne (by decide), hne (by decide)⟩), if_neg hplain, hshort]

theorem jsonChar_eq_flatMap (c : CodePoint) :
    jsonChar c = (utf16 c).flatMap fun unit => jsonChar (.ofNat unit) := by
  rcases utf16_cases c with ⟨hc, -⟩ | ⟨high, low, hc, habove⟩
  · rw [hc, List.flatMap_singleton, CodePoint.ofNat_toNat]
  · obtain ⟨hhigh, hlow, -⟩ := utf16_eq_pair_iff.1 hc
    have hunit {unit : Nat} (hle : 0xD800 ≤ unit) (hlt : unit < 0x10000) :
        jsonChar (.ofNat unit) = ('\\' : CodePoint) :: 'u' :: hex 4 unit := by
      have hnat := CodePoint.toNat_ofNat (n := unit) (by omega)
      rw [jsonChar_of_le (by omega), utf16_ofNat hlt, List.flatMap_singleton]
    obtain ⟨hhighLt, hlowLt⟩ := lt_of_utf16_eq_pair hc
    have hhighRange := isHighSurrogate_iff.1 hhigh
    have hlowRange := isLowSurrogate_iff.1 hlow
    rw [jsonChar_of_le (by omega), hc]
    simp only [List.flatMap_cons, List.flatMap_nil, hunit hhighRange.1 hhighLt,
      hunit (by omega) hlowLt]

/-- What is written depends on the units only. -/
theorem flatMap_jsonChar (cs : List CodePoint) :
    cs.flatMap jsonChar = (units cs).flatMap fun unit => jsonChar (.ofNat unit) := by
  rw [units, List.flatMap_assoc]
  exact List.flatMap_congr fun c _ => jsonChar_eq_flatMap c

/-- Only ASCII is written. -/
theorem isScalar_of_mem_jsonChar {c d : CodePoint} (h : d ∈ jsonChar c) : d.IsScalar := by
  unfold jsonChar at h
  split at h
  next hescaped =>
    have hc : c.IsScalar := by rcases hescaped with rfl | rfl <;> decide
    simp only [List.mem_cons, List.not_mem_nil, or_false] at h
    rcases h with rfl | rfl
    · decide
    · exact hc
  next =>
    split at h
    next hplain =>
      obtain rfl := List.mem_singleton.1 h
      have hle : d.toNat ≤ 126 := hplain.2
      exact CodePoint.isScalar_iff.2 (.inl (by omega))
    next =>
      split at h
      next letter hletter =>
        have hall : ∀ entry ∈ StringLiteral.simpleEscapes, entry.1.IsScalar := by decide
        simp only [List.mem_cons, List.not_mem_nil, or_false] at h
        rcases h with rfl | rfl
        · decide
        · exact hall _ (mem_simpleEscapes hletter)
      next =>
        obtain ⟨unit, -, h⟩ := List.mem_flatMap.1 h
        simp only [List.mem_cons] at h
        rcases h with rfl | rfl | h
        · decide
        · decide
        · obtain ⟨k, -, rfl⟩ := mem_hex h
          rfl

theorem flatMap_jsonChar_joined (t : Text) :
    t.joined.toList.flatMap jsonChar = t.toList.flatMap jsonChar := by
  rw [flatMap_jsonChar, units_joined, ← flatMap_jsonChar]

theorem jsonLiteral_joined (t : Text) : jsonLiteral t.joined = jsonLiteral t :=
  congrArg (fun cs => ofList (('"' : CodePoint) :: cs ++ [('"' : CodePoint)]))
    (flatMap_jsonChar_joined t)

theorem encodes_jsonChar (cs : List CodePoint) :
    Encodes (fun _ => True) '"' cs (cs.flatMap jsonChar) :=
  StringLiteral.encodes_flatMap fun _ _ => spelled_jsonChar trivial

theorem units_jsonChar (cs : List CodePoint) :
    StringLiteral.units '"' (cs.flatMap jsonChar) = units cs :=
  (encodes_jsonChar cs).units (.inr rfl)

/-- A JSON literal is read as the joined text, and only if that holds no surrogate. -/
theorem decode_jsonChar_eq_ok_iff {t : Text} {s : List CodePoint} :
    StringLiteral.decode '"' (t.toList.flatMap jsonChar) = .ok s ↔
      s = t.joined.toList ∧ ∀ c ∈ s, c.IsScalar := by
  constructor
  · intro h
    have hclosing := (encodes_jsonChar t.toList).closingQuote?_eq (.inr rfl)
    have hencodes := StringLiteral.encodes_of_decode (.inr rfl) hclosing h
    have hscalar := hencodes.isScalar fun c hc => by
      obtain ⟨_, -, hd⟩ := List.mem_flatMap.1 hc
      exact isScalar_of_mem_jsonChar hd
    refine ⟨?_, hscalar⟩
    rw [joined, ← units_jsonChar, hencodes.units (.inr rfl), ofUnits_units hscalar]
  · rintro ⟨rfl, hscalar⟩
    rw [← flatMap_jsonChar_joined]
    exact StringLiteral.decode_flatMap (.inr rfl) fun c hc => spelled_jsonChar (hscalar c hc)

end Text

end JsonPath
