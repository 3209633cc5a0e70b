import JsonPath.Proofs.Text.Surrogates
import JsonPath.Query.StringLiteral
import JsonPath.Token.Lexer
import Mathlib.Algebra.Group.Nat.Defs

/-!
# String literals as they are written

Between quotes a character is written as itself, by a short escape, or by the numbers of its UTF-16
units in hexadecimal digits of either case. However it is written, the lexer goes past it, and the
decoder reads it back but for a surrogate that is written by its number.
-/

namespace JsonPath

namespace Text

theorem hexValue?_digitChar {n : Nat} (h : n < 16) : hexValue? (Nat.digitChar n) = some n := by
  have hall : ∀ n < 16, hexValue? (Nat.digitChar n) = some n := by decide
  exact hall n h

theorem length_hex {n : Nat} (h : n < 0x10000) : (hex 4 n).length = 4 := by
  have hle := (Nat.length_toDigits_le_iff (b := 16) (by decide) (by decide : 0 < 4)).2 h
  unfold hex
  simp only [List.length_append, List.length_replicate, length_digits]
  omega

theorem mem_digits {n : Nat} {c : CodePoint} (h : c ∈ digits 16 n) :
    ∃ k < 16, c = k.digitChar := by
  induction n using Nat.strongRecOn with
  | ind n ih =>
    rw [digits_eq_if (by decide)] at h
    split at h
    next hlt => exact ⟨n, hlt, List.mem_singleton.1 h⟩
    next hge =>
      rcases List.mem_append.1 h with h | h
      · exact ih (n / 16) (by omega) h
      · exact ⟨n % 16, Nat.mod_lt n (by decide), List.mem_singleton.1 h⟩

theorem mem_hex {width n : Nat} {c : CodePoint} (h : c ∈ hex width n) :
    ∃ k < 16, c = k.digitChar := by
  rcases List.mem_append.1 h with h | h
  · exact ⟨0, by decide, List.eq_of_mem_replicate h⟩
  · exact mem_digits h

theorem foldlM_zeros (count : Nat) :
    (List.replicate count ('0' : CodePoint)).foldlM (fun n c => (hexValue? c).map (16 * n + ·)) 0 =
      some 0 := by
  induction count with
  | zero => rfl
  | succ count ih => exact ih

theorem foldlM_digits (n start : Nat) :
    (digits 16 n).foldlM (fun n c => (hexValue? c).map (16 * n + ·)) start =
      some (start * 16 ^ (digits 16 n).length + n) := by
  induction n using Nat.strongRecOn with
  | ind n ih =>
    rw [digits_eq_if (by decide)]
    split
    next hlt =>
      simp only [List.foldlM_cons, hexValue?_digitChar hlt, List.foldlM_nil]
      simp [Nat.mul_comm]
    next hge =>
      rw [List.foldlM_append, ih (n / 16) (by omega), Option.bind_eq_bind, Option.bind_some,
        List.length_append, Nat.pow_add, ← Nat.mul_assoc]
      simp only [List.foldlM_cons, hexValue?_digitChar (Nat.mod_lt n (by decide : 16 > 0)),
        List.foldlM_nil, List.length_singleton]
      simp only [Option.map_some, Option.bind_eq_bind, Option.bind_some, Option.pure_def,
        Option.some.injEq]
      omega

theorem hexNumber?_hex (width n : Nat) : hexNumber? (hex width n) = some n := by
  unfold hexNumber? hex
  rw [if_neg (by simp), List.foldlM_append, foldlM_zeros, Option.bind_eq_bind, Option.bind_some,
    foldlM_digits, Nat.zero_mul, Nat.zero_add]

theorem toLower_of_le {c : CodePoint} (h : 128 ≤ c.toNat) : c.toLower = c := by
  refine if_neg fun hupper => ?_
  have hle : c.toNat ≤ 90 := of_decide_eq_true (Bool.and_eq_true_iff.1 hupper).2
  omega

theorem hexValue?_of_le {c : CodePoint} (h : 128 ≤ c.toNat) : hexValue? c = none := by
  have hlt (d : CodePoint) (hd : d.toNat < 128) : ¬ c ≤ d := fun hle => by
    have hle : c.toNat ≤ d.toNat := hle
    omega
  unfold hexValue?
  rw [if_neg fun hc => hlt '9' (by decide) hc.2, if_neg fun hc => hlt 'f' (by decide) hc.2,
    if_neg fun hc => hlt 'F' (by decide) hc.2]

/-- The case of a digit does not count. -/
theorem hexValue?_toLower (c : CodePoint) : hexValue? c.toLower = hexValue? c := by
  by_cases hc : c.toNat < 128
  · have hall : ∀ n < 128,
        hexValue? (CodePoint.ofNat n).toLower = hexValue? (CodePoint.ofNat n) := by decide
    simpa only [CodePoint.ofNat_toNat] using hall c.toNat hc
  · rw [toLower_of_le (Nat.not_lt.1 hc)]

theorem toLower_of_hexValue? {c : CodePoint} {k : Nat} (h : hexValue? c = some k) :
    k < 16 ∧ c.toLower = k.digitChar := by
  by_cases hc : c.toNat < 128
  · have hall : ∀ n < 128, ∀ k ∈ hexValue? (CodePoint.ofNat n),
      k < 16 ∧ (CodePoint.ofNat n).toLower = k.digitChar := by decide
    have hk := hall c.toNat hc k
    rw [CodePoint.ofNat_toNat] at hk
    exact hk h
  · rw [hexValue?_of_le (Nat.not_lt.1 hc)] at h
    cases h

theorem hexNumber?_map_toLower (digits : List CodePoint) :
    hexNumber? (digits.map CodePoint.toLower) = hexNumber? digits := by
  unfold hexNumber?
  simp only [List.isEmpty_map, List.foldlM_map, hexValue?_toLower]

/-- The characters are the four hexadecimal digits of a unit, each of them in either case. -/
def WritesUnit (n : Nat) (digits : List CodePoint) : Prop := digits.map CodePoint.toLower = hex 4 n

theorem writesUnit_hex (n : Nat) : WritesUnit n (hex 4 n) := by
  have hlower : ∀ k < 16, CodePoint.toLower (Nat.digitChar k) = Nat.digitChar k := by decide
  refine (List.map_congr_left fun c hc => ?_).trans (List.map_id _)
  obtain ⟨k, hk, rfl⟩ := mem_hex hc
  exact hlower k hk

theorem WritesUnit.length_eq {n : Nat} {digits : List CodePoint} (h : WritesUnit n digits)
    (hn : n < 0x10000) : digits.length = 4 := by
  rw [← List.length_map CodePoint.toLower, h, length_hex hn]

theorem WritesUnit.hexNumber?_eq {n : Nat} {digits : List CodePoint} (h : WritesUnit n digits) :
    hexNumber? digits = some n := by
  rw [← hexNumber?_map_toLower, h, hexNumber?_hex]

theorem WritesUnit.unit? {n : Nat} {digits : List CodePoint} (h : WritesUnit n digits)
    (hn : n < 0x10000) (rest : List CodePoint) :
    StringLiteral.unit? (digits ++ rest) = some (n, rest) := by
  match digits, h.length_eq hn, h.hexNumber?_eq with
  | [a, b, c, d], _, hnumber =>
    simp only [StringLiteral.unit?, List.cons_append, List.nil_append, hnumber, Option.map_some]

/-- No digit is a quote or a backslash. -/
theorem WritesUnit.mem {n : Nat} {digits : List CodePoint} (h : WritesUnit n digits) {c : CodePoint}
    (hc : c ∈ digits) : c ∉ [('\'' : CodePoint), '"', '\\'] := by
  have hmem : c.toLower ∈ hex 4 n := h ▸ List.mem_map_of_mem hc
  obtain ⟨k, hk, hlower⟩ := mem_hex hmem
  have hall : ∀ k < 16, (k.digitChar : CodePoint) ∉ [('\'' : CodePoint), '"', '\\'] := by decide
  have hsame : ∀ d ∈ [('\'' : CodePoint), '"', '\\'], d.toLower = d := by
    simp only [List.forall_mem_cons]
    exact ⟨rfl, rfl, rfl, List.forall_mem_nil _⟩
  intro hquote
  refine hall k hk ?_
  rwa [← hlower, hsame c hquote]

theorem exists_of_hexNumber? {a b c d : CodePoint} {n : Nat}
    (h : hexNumber? [a, b, c, d] = some n) :
    ∃ i j k l, hexValue? a = some i ∧ hexValue? b = some j ∧ hexValue? c = some k ∧
      hexValue? d = some l ∧ n = 16 * (16 * (16 * i + j) + k) + l := by
  simp only [hexNumber?, List.isEmpty_cons, Bool.false_eq_true, if_false, List.foldlM_cons,
    List.foldlM_nil, Option.bind_eq_bind, Option.bind_eq_some_iff, Option.map_eq_some_iff,
    Option.pure_def, Option.some.injEq] at h
  obtain ⟨_, ⟨i, hi, rfl⟩, _, ⟨j, hj, rfl⟩, _, ⟨k, hk, rfl⟩, _, ⟨l, hl, rfl⟩, rfl⟩ := h
  exact ⟨i, j, k, l, hi, hj, hk, hl, by omega⟩

/-- What is read as a unit is written by four digits. -/
theorem writesUnit_of_unit? {cs rest : List CodePoint} {n : Nat}
    (h : StringLiteral.unit? cs = some (n, rest)) :
    n < 0x10000 ∧ ∃ digits, cs = digits ++ rest ∧ WritesUnit n digits := by
  unfold StringLiteral.unit? at h
  split at h
  next a b c d rest' =>
    obtain ⟨n', hnumber, heq⟩ := Option.map_eq_some_iff.1 h
    cases heq
    obtain ⟨i, j, k, l, hi, hj, hk, hl, hn⟩ := exists_of_hexNumber? hnumber
    obtain ⟨hi16, hi⟩ := toLower_of_hexValue? hi
    obtain ⟨hj16, hj⟩ := toLower_of_hexValue? hj
    obtain ⟨hk16, hk⟩ := toLower_of_hexValue? hk
    obtain ⟨hl16, hl⟩ := toLower_of_hexValue? hl
    have hlt : n < 0x10000 := by omega
    refine ⟨hlt, [a, b, c, d], rfl, ?_⟩
    -- The digits that are written for the number have its value too, so they are the same.
    have hwritten := hexNumber?_hex 4 n
    have hdigits (c : CodePoint) (hc : c ∈ hex 4 n) : ∃ k < 16, c = k.digitChar := mem_hex hc
    have hlength := length_hex hlt
    unfold WritesUnit
    generalize hex 4 n = written at hwritten hdigits hlength
    match written, hlength with
    | [a', b', c', d'], _ =>
      obtain ⟨i', j', k', l', hi', hj', hk', hl', hn'⟩ := exists_of_hexNumber? hwritten
      simp only [List.mem_cons, List.not_mem_nil, or_false, forall_eq_or_imp, forall_eq] at hdigits
      obtain ⟨⟨x, hx, rfl⟩, ⟨y, hy, rfl⟩, ⟨z, hz, rfl⟩, ⟨w, hw, rfl⟩⟩ := hdigits
      rw [hexValue?_digitChar hx] at hi'
      rw [hexValue?_digitChar hy] at hj'
      rw [hexValue?_digitChar hz] at hk'
      rw [hexValue?_digitChar hw] at hl'
      cases hi'
      cases hj'
      cases hk'
      cases hl'
      obtain ⟨rfl, rfl, rfl, rfl⟩ : i = i' ∧ j = j' ∧ k = k' ∧ l = l' := by omega
      simp only [List.map_cons, List.map_nil, hi, hj, hk, hl]
  · cases h

end Text

namespace StringLiteral

open CodePoint (IsScalar)
open Text (hex)

/-- The letters of simple escapes, each with the character that it stands for. -/
def simpleEscapes : List (CodePoint × CodePoint) :=
  [('b', '\x08'), ('f', '\x0c'), ('n', '\n'), ('r', '\r'), ('t', '\t'), ('/', '/'),
    ('\\', '\\')]

/-- The character is written so between the quotes: as itself, by a simple escape, as the quote
behind a backslash, or by its UTF-16 units, of which there may be one for some characters only. -/
inductive Spelled (single : CodePoint → Prop) (quote : CodePoint) :
    CodePoint → List CodePoint → Prop
  | itself {c : CodePoint} : c ≠ quote → c ≠ '\\' → ¬ c < ' ' → Spelled single quote c [c]
  | short {c letter : CodePoint} : (letter, c) ∈ simpleEscapes →
      Spelled single quote c ['\\', letter]
  | quote : Spelled single quote quote ['\\', quote]
  | unit {c : CodePoint} {n : Nat} {digits : List CodePoint} : single c → Text.utf16 c = [n] →
      Text.WritesUnit n digits → Spelled single quote c ('\\' :: 'u' :: digits)
  | pair {c : CodePoint} {high low : Nat} {digits more : List CodePoint} :
      Text.utf16 c = [high, low] → Text.WritesUnit high digits → Text.WritesUnit low more →
      Spelled single quote c ('\\' :: 'u' :: (digits ++ ('\\' : CodePoint) :: 'u' :: more))

/-- The text is written so between the quotes, one character after the other. -/
inductive Encodes (single : CodePoint → Prop) (quote : CodePoint) :
    List CodePoint → List CodePoint → Prop
  | nil : Encodes single quote [] []
  | cons {c : CodePoint} {s cs e : List CodePoint} : Spelled single quote c cs →
      Encodes single quote s e → Encodes single quote (c :: s) (cs ++ e)

variable {single : CodePoint → Prop} {quote c : CodePoint} {cs : List CodePoint}

theorem encodes_flatMap {encode : CodePoint → List CodePoint} {text : List CodePoint}
    (h : ∀ c ∈ text, Spelled single quote c (encode c)) :
    Encodes single quote text (text.flatMap encode) := by
  induction text with
  | nil => exact .nil
  | cons c text ih =>
    obtain ⟨hc, htext⟩ := List.forall_mem_cons.1 h
    exact .cons hc (ih htext)

theorem unescape?_eq_some_iff (hquote : quote = '\'' ∨ quote = '"') {letter : CodePoint} :
    unescape? quote letter = some c ↔
      (letter, c) ∈ simpleEscapes ∨ letter = quote ∧ c = quote := by
  have hsimple : ∀ entry ∈ simpleEscapes, unescape? quote entry.1 = some entry.2 := by
    rcases hquote with rfl | rfl <;> decide
  have hself : unescape? quote quote = some quote := by rcases hquote with rfl | rfl <;> rfl
  constructor
  · intro h
    unfold unescape? at h
    split at h
    · cases h
      exact .inl (by decide)
    · cases h
      exact .inl (by decide)
    · split at h
      next heq =>
        cases h
        exact .inr ⟨heq, rfl⟩
      · unfold Text.ofShortEscape? at h
        split at h <;> cases h <;> exact .inl (by decide)
  · rintro (h | ⟨rfl, rfl⟩)
    · exact hsimple _ h
    · exact hself

theorem isSurrogate_toNat (c : CodePoint) :
    c.isSurrogate = (Text.isHighSurrogate c.toNat || Text.isLowSurrogate c.toNat) := by
  rw [Bool.eq_iff_iff, CodePoint.isSurrogate_iff, Bool.or_eq_true, Text.isHighSurrogate_iff,
    Text.isLowSurrogate_iff]
  omega

theorem unicodeEscape_unit {n : Nat} {digits : List CodePoint} (hscalar : c.IsScalar)
    (hc : Text.utf16 c = [n]) (h : Text.WritesUnit n digits) (rest : List CodePoint) :
    unicodeEscape (digits ++ rest) = .ok (c, rest) := by
  obtain ⟨hlt, rfl⟩ := Text.utf16_eq_singleton_iff.1 hc
  obtain ⟨hhigh, hlow⟩ := Bool.or_eq_false_iff.1 ((isSurrogate_toNat c).symm.trans hscalar)
  unfold unicodeEscape
  rw [h.unit? hlt]
  simp only [hhigh, hlow, Bool.false_eq_true, if_false, CodePoint.ofNat_toNat]

theorem unicodeEscape_pair {high low : Nat} {digits more : List CodePoint}
    (hc : Text.utf16 c = [high, low]) (h : Text.WritesUnit high digits)
    (h' : Text.WritesUnit low more) (rest : List CodePoint) :
    unicodeEscape (digits ++ ('\\' : CodePoint) :: 'u' :: (more ++ rest)) = .ok (c, rest) := by
  obtain ⟨hhigh, hlow, hjoin⟩ := Text.utf16_eq_pair_iff.1 hc
  obtain ⟨hhighLt, hlowLt⟩ := Text.lt_of_utf16_eq_pair hc
  have hnotLow : Text.isLowSurrogate high = false := by
    have hrange := Text.isHighSurrogate_iff.1 hhigh
    rw [Bool.eq_false_iff, Ne, Text.isLowSurrogate_iff]
    omega
  unfold unicodeEscape
  rw [h.unit? hhighLt]
  simp only [hnotLow, hhigh, h'.unit? hlowLt, hlow, hjoin, Bool.false_eq_true, if_false, if_true,
    CodePoint.ofNat_toNat]

theorem decode_unicode {c : CodePoint} {cs rest : List CodePoint}
    (h : unicodeEscape cs = .ok (c, rest)) :
    decode quote ('\\' :: 'u' :: cs) = (c :: ·) <$> decode quote rest := by
  rw [decode.eq_def]
  simp only
  split
  next heq => cases h.symm.trans heq
  next heq =>
    cases h.symm.trans heq
    cases decode quote rest <;> rfl

theorem decode_itself (hslash : c ≠ '\\') (hcontrol : ¬ c < ' ') (rest : List CodePoint) :
    decode quote (c :: rest) = (c :: ·) <$> decode quote rest := by
  rw [decode.eq_def]
  split
  next heq => cases heq
  next heq => exact absurd (List.cons.inj heq).1 hslash
  next heq => exact absurd (List.cons.inj heq).1 hslash
  next heq => exact absurd (List.cons.inj heq).1 hslash
  next heq =>
    cases heq
    rw [if_neg hcontrol]
    cases decode quote rest <;> rfl

theorem decode_short {letter : CodePoint} (hletter : letter ≠ 'u')
    (hc : unescape? quote letter = some c) (rest : List CodePoint) :
    decode quote ('\\' :: letter :: rest) = (c :: ·) <$> decode quote rest := by
  rw [decode.eq_def]
  split
  next heq => cases heq
  next heq => cases heq
  next heq =>
    cases heq
    exact absurd rfl hletter
  next heq =>
    cases heq
    rw [hc]
    cases decode quote rest <;> rfl
  next hother heq =>
    cases heq
    exact (hother _ _ rfl rfl).elim

/-- What is written for a character is read back. -/
theorem Spelled.decode (hquote : quote = '\'' ∨ quote = '"') (h : Spelled IsScalar quote c cs)
    (rest : List CodePoint) :
    decode quote (cs ++ rest) = (c :: ·) <$> StringLiteral.decode quote rest := by
  have hu : ∀ entry ∈ simpleEscapes, entry.1 ≠ 'u' := by decide
  have hquoteU : quote ≠ 'u' := by rcases hquote with rfl | rfl <;> decide
  cases h with
  | itself _ hslash hcontrol => exact decode_itself hslash hcontrol rest
  | short h => exact decode_short (hu _ h) ((unescape?_eq_some_iff hquote).2 (.inl h)) rest
  | quote =>
    exact decode_short hquoteU ((unescape?_eq_some_iff hquote).2 (.inr ⟨rfl, rfl⟩)) rest
  | unit hscalar hc h => exact decode_unicode (unicodeEscape_unit hscalar hc h rest)
  | pair hc h h' =>
    have hescape := unicodeEscape_pair hc h h' rest
    simpa using decode_unicode hescape

theorem Encodes.decode (hquote : quote = '\'' ∨ quote = '"') {s e : List CodePoint}
    (h : Encodes IsScalar quote s e) : StringLiteral.decode quote e = .ok s := by
  induction h with
  | nil => rw [StringLiteral.decode]
  | cons hc _ ih =>
    rw [hc.decode hquote, ih]
    rfl

theorem decode_flatMap (hquote : quote = '\'' ∨ quote = '"') {encode : CodePoint → List CodePoint}
    {text : List CodePoint} (h : ∀ c ∈ text, Spelled IsScalar quote c (encode c)) :
    StringLiteral.decode quote (text.flatMap encode) = .ok text :=
  (encodes_flatMap h).decode hquote

end StringLiteral

namespace Lexer

open StringLiteral (Encodes Spelled)

variable {single : CodePoint → Prop} {quote c : CodePoint} {cs : List CodePoint}

theorem closingQuote?_plain (h : ∀ c ∈ cs, c ≠ quote ∧ c ≠ '\\') (rest : List CodePoint) :
    closingQuote? quote (cs ++ rest) = (closingQuote? quote rest).map (· + cs.length) := by
  induction cs with
  | nil => simp
  | cons c cs ih =>
    obtain ⟨hc, hcs⟩ := List.forall_mem_cons.1 h
    rw [List.cons_append, closingQuote?.eq_def]
    simp only [if_neg hc.1, if_neg hc.2, ih hcs, Option.map_map]
    rfl

theorem closingQuote?_quote (rest : List CodePoint) :
    closingQuote? quote (quote :: rest) = some 1 := by
  rw [closingQuote?.eq_def]
  simp only [if_true]

theorem closingQuote?_escape (hquote : quote ≠ '\\') (c : CodePoint) (rest : List CodePoint) :
    closingQuote? quote ('\\' :: c :: rest) = (closingQuote? quote rest).map (· + 2) := by
  rw [closingQuote?.eq_def]
  simp only [if_neg hquote.symm, if_true]

theorem closingQuote?_unit (hquote : quote = '\'' ∨ quote = '"') {n : Nat} {digits : List CodePoint}
    (h : Text.WritesUnit n digits) (rest : List CodePoint) :
    closingQuote? quote (digits ++ rest) = (closingQuote? quote rest).map (· + digits.length) := by
  refine closingQuote?_plain (fun c hc => ?_) rest
  have hmem := h.mem hc
  simp only [List.mem_cons, List.not_mem_nil, or_false, not_or] at hmem
  refine ⟨?_, hmem.2.2⟩
  rcases hquote with rfl | rfl
  · exact hmem.1
  · exact hmem.2.1

/-- The lexer goes past what is written for a character. -/
theorem closingQuote?_spelled (hquote : quote = '\'' ∨ quote = '"')
    (h : Spelled single quote c cs) (rest : List CodePoint) :
    closingQuote? quote (cs ++ rest) = (closingQuote? quote rest).map (· + cs.length) := by
  have hslash : quote ≠ '\\' := by rcases hquote with rfl | rfl <;> decide
  cases h with
  | itself hc hslash' => exact closingQuote?_plain (by simp [hc, hslash']) rest
  | short | quote => exact closingQuote?_escape hslash _ rest
  | unit _ _ h =>
    rw [List.cons_append, List.cons_append, closingQuote?_escape hslash,
      closingQuote?_unit hquote h, Option.map_map]
    rfl
  | pair _ h h' =>
    simp only [List.cons_append, List.append_assoc]
    rw [closingQuote?_escape hslash, closingQuote?_unit hquote h, closingQuote?_escape hslash,
      closingQuote?_unit hquote h', Option.map_map, Option.map_map, Option.map_map]
    refine congrArg (Option.map · _) (funext fun n => ?_)
    simp only [Function.comp_apply, List.length_cons, List.length_append]
    omega

/-- The lexer finds the quote that closes a literal. -/
theorem closingQuote?_encodes (hquote : quote = '\'' ∨ quote = '"') {s e : List CodePoint}
    (h : Encodes single quote s e) (rest : List CodePoint) :
    closingQuote? quote (e ++ quote :: rest) = some (e.length + 1) := by
  induction h with
  | nil => exact closingQuote?_quote rest
  | cons hc _ ih =>
    rw [List.append_assoc, closingQuote?_spelled hquote hc, ih, Option.map_some, List.length_append]
    congr 1
    omega

theorem closingQuote?_flatMap (hquote : quote = '\'' ∨ quote = '"')
    {encode : CodePoint → List CodePoint} (h : ∀ c, Spelled single quote c (encode c))
    (text rest : List CodePoint) :
    closingQuote? quote (text.flatMap encode ++ quote :: rest) =
      some ((text.flatMap encode).length + 1) :=
  closingQuote?_encodes hquote (StringLiteral.encodes_flatMap fun c _ => h c) rest

end Lexer

namespace Text

open CodePoint (IsScalar)
open StringLiteral (Spelled)

variable {single : CodePoint → Prop}

/-! ### The two notations -/

theorem mem_simpleEscapes {c letter : CodePoint} (h : shortEscape? c = some letter) :
    (letter, c) ∈ StringLiteral.simpleEscapes := by
  unfold shortEscape? at h
  split at h <;> cases h <;> decide

theorem spelled_escaped {quote c : CodePoint} (h : c = quote ∨ c = '\\') :
    Spelled single quote c ['\\', c] := by
  rcases h with rfl | rfl
  · exact .quote
  · exact .short (by decide)

/-- Names in normalized paths are written as literals between single quotes. -/
theorem spelled_nameChar (c : CodePoint) : Spelled IsScalar '\'' c (nameChar c) := by
  unfold nameChar
  split
  next h => exact spelled_escaped h
  next h =>
    split
    next letter hletter => exact .short (mem_simpleEscapes hletter)
    next =>
      split
      next hcontrol =>
        have hlt : c.toNat < 32 := hcontrol
        have hscalar : c.IsScalar := CodePoint.isScalar_iff.2 (.inl (by omega))
        exact .unit hscalar (utf16_eq_singleton_iff.2 ⟨by omega, rfl⟩) (writesUnit_hex _)
      next hcontrol => exact .itself (fun hc => h (.inl hc)) (fun hc => h (.inr hc)) hcontrol

theorem spelled_utf16 {c : CodePoint} (h : single c) :
    Spelled single '"' c ((utf16 c).flatMap fun unit => '\\' :: 'u' :: hex 4 unit) := by
  rcases utf16_cases c with ⟨hc, -⟩ | ⟨high, low, hc, -⟩
  · rw [hc]
    simpa using Spelled.unit h hc (writesUnit_hex _)
  · rw [hc]
    simpa using Spelled.pair hc (writesUnit_hex high) (writesUnit_hex low)

/-- JSON texts are written as literals between double quotes. -/
theorem spelled_jsonChar {c : CodePoint} (hsingle : single c) :
    Spelled single '"' c (jsonChar c) := by
  unfold jsonChar
  split
  next h => exact spelled_escaped h
  next h =>
    split
    next hplain =>
      refine .itself (fun hc => h (.inl hc)) (fun hc => h (.inr hc)) (fun hlt => ?_)
      exact absurd hplain.1 (Nat.not_le.2 hlt)
    next =>
      split
      next letter hletter => exact .short (mem_simpleEscapes hletter)
      next => exact spelled_utf16 hsingle

end Text

end JsonPath
