import JsonPath.Proofs.Parser.Scanning
import JsonPath.Proofs.Token.Lexing

/-!
# How far the lexer looks

To tell where a lexeme ends the lexer looks at what stands after it: at one character after a
symbol, a word or a name, and at up to three after a number. Where there is enough of it, still more
text after it makes no difference.
-/

namespace JsonPath

/-- The kinds of tokens that can be the last of a query. -/
def TokenKind.endsQuery : TokenKind → Bool
  | .root | .name | .wildcard | .closeSquare => true
  | _ => false

namespace Numeral

/-- What stands after a number, if more text after it cannot make the number longer. -/
structure IsSettled (rest : List CodePoint) : Prop where
  ne_nil : rest ≠ []
  ne_dot : rest ≠ ['.']
  exponent : ∀ e more, rest = e :: more → e = 'e' ∨ e = 'E' →
    ∃ c ∈ more.head?, c ≠ '-' ∧ c ≠ '+'

theorem IsSettled.cons {c : CodePoint} (h : c ≠ '.' ∧ c ≠ 'e' ∧ c ≠ 'E') (rest : List CodePoint) :
    IsSettled (c :: rest) := by
  refine ⟨List.cons_ne_nil c rest, fun hdot => h.1 (List.cons.inj hdot).1, ?_⟩
  intro e more heq he
  rw [← (List.cons.inj heq).1] at he
  exact absurd he (not_or.2 h.2)

theorem span_append {p : CodePoint → Bool} {cs : List CodePoint} (h : cs.dropWhile p ≠ [])
    (more : List CodePoint) :
    (cs ++ more).takeWhile p = cs.takeWhile p ∧
      (cs ++ more).dropWhile p = cs.dropWhile p ++ more := by
  induction cs with
  | nil => exact absurd rfl h
  | cons c cs ih =>
    cases hc : p c with
    | true =>
      rw [List.dropWhile_cons_of_pos hc] at h
      obtain ⟨htake, hdrop⟩ := ih h
      simp [hc, htake, hdrop]
    | false => simp [hc]

theorem takeWhile_append_eq_nil {p : CodePoint → Bool} {cs : List CodePoint} (hcs : cs ≠ [])
    (h : cs.takeWhile p = []) (more : List CodePoint) : (cs ++ more).takeWhile p = [] := by
  have hdrop : cs.dropWhile p = cs := by
    have hboth := @List.takeWhile_append_dropWhile _ p cs
    rwa [h, List.nil_append] at hboth
  rw [(span_append (hdrop.symm ▸ hcs) more).1, h]

variable {digit : CodePoint → Bool} {cs : List CodePoint}

theorem splitMinus_append (h : cs ≠ []) (more : List CodePoint) :
    splitMinus (cs ++ more) = ((splitMinus cs).1, (splitMinus cs).2 ++ more) := by
  obtain ⟨c, cs, rfl⟩ := List.exists_cons_of_ne_nil h
  unfold splitMinus
  by_cases hc : c = '-'
  · subst hc
    rfl
  · split <;> split <;> simp_all

theorem splitSign_append (h : cs ≠ []) (more : List CodePoint) :
    splitSign (cs ++ more) = ((splitSign cs).1, (splitSign cs).2 ++ more) := by
  obtain ⟨c, cs, rfl⟩ := List.exists_cons_of_ne_nil h
  unfold splitSign
  split <;> split <;> simp_all

theorem scanFraction_dot (digit : CodePoint → Bool) (cs : List CodePoint) :
    scanFraction digit ('.' :: cs) =
      if cs.takeWhile digit = [] then (none, ('.' : CodePoint) :: cs)
      else (some (cs.takeWhile digit), cs.dropWhile digit) := by
  simp only [scanFraction]
  split
  next heq => rw [heq, if_pos rfl]
  next hne => rw [if_neg hne]

theorem scanFraction_of_ne {c : CodePoint} (h : c ≠ '.') (cs : List CodePoint) :
    scanFraction digit (c :: cs) = (none, c :: cs) := by
  unfold scanFraction
  split
  next heq => exact absurd (List.cons.inj heq).1 h
  · rfl

theorem scanFraction_append (hcs : cs ≠ ['.']) (h : (scanFraction digit cs).2 ≠ [])
    (more : List CodePoint) :
    scanFraction digit (cs ++ more) =
      ((scanFraction digit cs).1, (scanFraction digit cs).2 ++ more) := by
  cases cs with
  | nil => exact absurd rfl h
  | cons c cs =>
    by_cases hc : c = '.'
    · subst hc
      have hnil : cs ≠ [] := fun hnil => hcs (hnil ▸ rfl)
      rw [List.cons_append, scanFraction_dot, scanFraction_dot]
      rw [scanFraction_dot] at h
      by_cases htake : cs.takeWhile digit = []
      · rw [if_pos htake, if_pos (takeWhile_append_eq_nil hnil htake more)]
        rfl
      · rw [if_neg htake] at h ⊢
        obtain ⟨hspan, hrest⟩ := span_append h more
        rw [hspan, hrest, if_neg htake]
    · rw [List.cons_append, scanFraction_of_ne hc, scanFraction_of_ne hc]
      rfl

theorem scanExponent_mark (digit : CodePoint → Bool) {e : CodePoint} (he : e = 'e' ∨ e = 'E')
    (cs : List CodePoint) :
    scanExponent digit (e :: cs) =
      if (splitSign cs).2.takeWhile digit = [] then (none, e :: cs)
      else (some ((splitSign cs).1, (splitSign cs).2.takeWhile digit),
        (splitSign cs).2.dropWhile digit) := by
  simp only [scanExponent, if_pos he]
  split
  next heq => rw [heq, if_pos rfl]
  next hne => rw [if_neg hne]

theorem scanExponent_append (h : IsSettled (scanExponent digit cs).2) (more : List CodePoint) :
    scanExponent digit (cs ++ more) =
      ((scanExponent digit cs).1, (scanExponent digit cs).2 ++ more) := by
  cases cs with
  | nil => exact absurd rfl h.ne_nil
  | cons e cs =>
    by_cases he : e = 'e' ∨ e = 'E'
    · rw [List.cons_append, scanExponent_mark digit he, scanExponent_mark digit he]
      rw [scanExponent_mark digit he] at h
      by_cases htake : (splitSign cs).2.takeWhile digit = []
      · rw [if_pos htake] at h ⊢
        obtain ⟨c, hc, hminus, hplus⟩ := h.exponent e cs rfl he
        obtain ⟨cs, rfl⟩ := List.head?_eq_some_iff.1 hc
        have hsplit (cs : List CodePoint) : splitSign (c :: cs) = (false, c :: cs) := by
          unfold splitSign
          split <;> simp_all
        rw [hsplit] at htake
        have htake' := takeWhile_append_eq_nil (List.cons_ne_nil c cs) htake more
        rw [List.cons_append, hsplit]
        exact if_pos htake'
      · rw [if_neg htake] at h ⊢
        have hnil : cs ≠ [] := by
          rintro rfl
          exact htake rfl
        obtain ⟨hspan, hrest⟩ := span_append h.ne_nil more
        rw [splitSign_append hnil, hspan, hrest, if_neg htake]
    · simp only [List.cons_append, scanExponent, if_neg he]

theorem scan?_append {n : Numeral} {rest : List CodePoint}
    (h : scan? digit (spanDigits digit) cs = some (n, rest)) (hrest : IsSettled rest)
    (more : List CodePoint) :
    scan? digit (spanDigits digit) (cs ++ more) = some (n, rest ++ more) := by
  unfold scan? spanDigits at h ⊢
  dsimp only at h ⊢
  split at h
  · cases h
  next hwhole =>
    simp only [Option.some.injEq, Prod.mk.injEq] at h
    obtain ⟨rfl, rfl⟩ := h
    have hfraction : (scanFraction digit ((splitMinus cs).2.dropWhile digit)).2 ≠ [] := by
      intro hnil
      rw [hnil] at hrest
      exact hrest.ne_nil rfl
    have hdot : (splitMinus cs).2.dropWhile digit ≠ ['.'] := by
      intro hdot
      rw [hdot] at hrest
      exact hrest.ne_dot rfl
    have hspan : (splitMinus cs).2.dropWhile digit ≠ [] := by
      intro hnil
      rw [hnil] at hfraction
      exact hfraction rfl
    have hcs : cs ≠ [] := by
      rintro rfl
      exact hwhole rfl
    obtain ⟨htake, hdrop⟩ := span_append hspan more
    rw [splitMinus_append hcs, htake, hdrop, scanFraction_append hdot hfraction,
      scanExponent_append hrest, if_neg hwhole]

theorem scan?_eq_none_iff :
    scan? digit (spanDigits digit) cs = none ↔ (splitMinus cs).2.takeWhile digit = [] := by
  unfold scan?
  dsimp only [spanDigits]
  split <;> simp_all

end Numeral

namespace Lexer

open Numeral (IsSettled span_append)

variable {cs : List CodePoint} {lexeme : Lexeme}

/-! ### Lexemes -/

/-- The ways in which a text starts with a lexeme. -/
inductive StartsWith : List CodePoint → Lexeme → Prop
  | symbol {cs : List CodePoint} {lexeme : Lexeme} : symbol? cs = some lexeme → StartsWith cs lexeme
  | number {cs : List CodePoint} {lexeme : Lexeme} : symbol? cs = none → number? cs = some lexeme →
      StartsWith cs lexeme
  | quoted {c : CodePoint} {rest : List CodePoint} {kind : TokenKind} {length : Nat} :
      symbol? (c :: rest) = none → number? (c :: rest) = none → quoteKind? c = some kind →
      closingQuote? c rest = some length → StartsWith (c :: rest) ⟨kind, length + 1⟩
  | function {c : CodePoint} {rest : List CodePoint} {lexeme : Lexeme} :
      symbol? (c :: rest) = none → number? (c :: rest) = none → quoteKind? c = none →
      function? (c :: rest) = some lexeme → StartsWith (c :: rest) lexeme
  | word {c : CodePoint} {rest : List CodePoint} {lexeme : Lexeme} :
      symbol? (c :: rest) = none → number? (c :: rest) = none → quoteKind? c = none →
      function? (c :: rest) = none → word? (c :: rest) = some lexeme →
      StartsWith (c :: rest) lexeme

theorem lexeme?_eq_ok_iff : lexeme? cs = .ok (some lexeme) ↔ StartsWith cs lexeme := by
  constructor
  · intro h
    unfold lexeme? at h
    split at h
    next found hfound =>
      cases h
      rcases Option.or_eq_some_iff.1 hfound with hsymbol | ⟨hsymbol, hnumber⟩
      · exact .symbol hsymbol
      · exact .number hsymbol hnumber
    next hnone =>
      obtain ⟨hsymbol, hnumber⟩ := Option.or_eq_none_iff.1 hnone
      split at h
      · cases h
      next c rest =>
        split at h
        next kind hquote =>
          split at h
          next length hlength =>
            cases h
            exact .quoted hsymbol hnumber hquote hlength
          · cases h
        next hquote =>
          simp only [Except.ok.injEq] at h
          rcases Option.or_eq_some_iff.1 h with hfunction | ⟨hfunction, hword⟩
          · exact .function hsymbol hnumber hquote hfunction
          · exact .word hsymbol hnumber hquote hfunction hword
  · intro h
    unfold lexeme?
    cases h with
    | symbol hsymbol => rw [hsymbol]; rfl
    | number hsymbol hnumber => rw [hsymbol, hnumber]; rfl
    | quoted hsymbol hnumber hquote hlength => simp [hsymbol, hnumber, hquote, hlength]
    | function hsymbol hnumber hquote hfunction => simp [hsymbol, hnumber, hquote, hfunction]
    | word hsymbol hnumber hquote hfunction hword =>
      simp [hsymbol, hnumber, hquote, hfunction, hword]

theorem kind_of_number? (h : number? cs = some lexeme) :
    lexeme.kind = .integer ∨ lexeme.kind = .decimal := by
  obtain ⟨⟨n, rest⟩, -, rfl⟩ := Option.map_eq_some_iff.1 h
  dsimp only
  cases n.isInteger with
  | true => exact .inl rfl
  | false => exact .inr rfl

/-- The kinds of literals and names of functions. -/
def operandKinds : List TokenKind :=
  [.integer, .decimal, .singleQuoted, .doubleQuoted, .function, .trueWord, .falseWord, .nullWord]

/-- What is no literal and no name of a function is a symbol. -/
theorem symbol?_of_lexeme? (h : lexeme? cs = .ok (some lexeme))
    (hkind : lexeme.kind ∉ operandKinds) : symbol? cs = some lexeme := by
  cases lexeme?_eq_ok_iff.1 h with
  | symbol hsymbol => exact hsymbol
  | number _ hnumber =>
    rcases kind_of_number? hnumber with hnumber | hnumber <;>
      exact absurd (hnumber ▸ by decide) hkind
  | @quoted c _ kind _ _ _ hquote _ =>
    have hquoted : kind ∈ operandKinds := by
      unfold quoteKind? at hquote
      split at hquote <;> cases hquote <;> decide
    exact absurd hquoted hkind
  | function _ _ _ hfunction =>
    have hfunction : lexeme.kind = .function := (isFunctionName_of_function? "" 0 hfunction).1
    exact absurd (hfunction ▸ by decide) hkind
  | word _ _ _ _ hword =>
    have hwords : ∀ kind ∈ words.map Prod.snd, kind ∈ operandKinds := by decide
    exact absurd (hwords _ (kind_mem_of_word? hword)) hkind

/-- No symbol has more than two characters. -/
theorem symbol?_append (h : 1 < cs.length) (more : List CodePoint) :
    symbol? (cs ++ more) = symbol? cs := by
  match cs, h with
  | _ :: _ :: _, _ => rfl

/-- A symbol that can be the last of a query is no part of another one. -/
theorem symbol?_append_of_endsQuery (h : symbol? cs = some lexeme)
    (hkind : lexeme.kind.endsQuery = true) (more : List CodePoint) :
    symbol? (cs ++ more) = some lexeme := by
  have hends : ∀ entry ∈ symbols, entry.2.endsQuery = true →
      entry.1 = "$" ∨ entry.1 = "*" ∨ entry.1 = "]" := by decide
  obtain ⟨entry, hentry, rfl⟩ := Option.map_eq_some_iff.1 h
  have hprefix : entry.1.toList <+: cs := by simpa using List.find?_some hentry
  obtain ⟨rest, rfl⟩ := hprefix
  rw [← h]
  rcases hends entry (List.mem_of_find?_eq_some hentry) hkind with heq | heq | heq <;>
    rw [heq] <;> rfl

theorem number?_append (h : number? cs = some lexeme)
    (hrest : IsSettled (cs.drop lexeme.length)) (more : List CodePoint) :
    number? (cs ++ more) = some lexeme := by
  obtain ⟨⟨n, rest⟩, hscan, rfl⟩ := Option.map_eq_some_iff.1 h
  obtain ⟨text, rfl, -⟩ := Numeral.spells_of_scan? hscan
  have hdrop : (text ++ rest).drop ((text ++ rest).length - rest.length) = rest := by simp
  rw [hdrop] at hrest
  unfold number?
  rw [Numeral.scan?_append hscan hrest more]
  simp

theorem number?_append_eq_none (h : number? cs = none) (hlength : 1 < cs.length)
    (more : List CodePoint) : number? (cs ++ more) = none := by
  have hcs : cs ≠ [] := List.ne_nil_of_length_pos (by omega)
  have hnil : (Numeral.splitMinus cs).2 ≠ [] := by
    intro hnil
    have hspelled := congrArg List.length (Numeral.splitMinus_spelled cs)
    have hsign : ∀ negative, (Numeral.minus negative).length ≤ 1 := by decide
    rw [hnil, List.append_nil] at hspelled
    exact absurd (hsign (Numeral.splitMinus cs).1) (by omega)
  unfold number? at h ⊢
  rw [Option.map_eq_none_iff, Numeral.scan?_eq_none_iff] at h ⊢
  rw [Numeral.splitMinus_append hcs]
  exact Numeral.takeWhile_append_eq_nil hnil h more

theorem closingQuote?_append {quote : CodePoint} {length : Nat}
    (h : closingQuote? quote cs = some length) (more : List CodePoint) :
    closingQuote? quote (cs ++ more) = some length := by
  fun_induction closingQuote? quote cs generalizing length with
  | case1 | case3 => cases h
  | case2 =>
    rw [List.cons_append, closingQuote?.eq_def]
    exact (if_pos rfl).trans h
  | case4 d rest hquote ih =>
    obtain ⟨n, hn, rfl⟩ := Option.map_eq_some_iff.1 h
    rw [List.cons_append, List.cons_append, closingQuote?.eq_def]
    dsimp only
    rw [if_neg hquote, if_pos rfl]
    exact congrArg (Option.map (· + 2)) (ih hn)
  | case5 c rest hquote hescape ih =>
    obtain ⟨n, hn, rfl⟩ := Option.map_eq_some_iff.1 h
    rw [List.cons_append, closingQuote?.eq_def]
    dsimp only
    rw [if_neg hquote, if_neg hescape]
    exact congrArg (Option.map (· + 1)) (ih hn)

theorem drop_takeWhile (p : CodePoint → Bool) (cs : List CodePoint) :
    cs.drop (cs.takeWhile p).length = cs.dropWhile p := by
  conv_lhs =>
    enter [2]
    rw [← @List.takeWhile_append_dropWhile _ p cs]
  exact List.drop_left

/-- Whether a name of a function starts a text shows before the end of the text. -/
theorem function?_append {c : CodePoint} {rest : List CodePoint}
    (h : rest.dropWhile isFunctionChar ≠ [])
    (more : List CodePoint) : function? (c :: (rest ++ more)) = function? (c :: rest) := by
  obtain ⟨htake, hdrop⟩ := span_append h more
  have hhead : (rest.dropWhile isFunctionChar ++ more).head? =
      (rest.dropWhile isFunctionChar).head? := List.head?_append_of_ne_nil _ h
  unfold function?
  simp only [drop_takeWhile]
  rw [hdrop, hhead, htake]

theorem exists_of_word? (h : word? cs = some lexeme) :
    ∃ text rest, cs = Text.toList text ++ rest ∧ (text, lexeme.kind) ∈ words ∧
      lexeme.length = text.toList.length ∧ rest.head?.any isNameChar = false := by
  obtain ⟨⟨text, kind⟩, hentry, rfl⟩ := Option.map_eq_some_iff.1 h
  have hfound := List.find?_some hentry
  simp only [Bool.and_eq_true, List.isPrefixOf_iff_prefix, Bool.not_eq_true'] at hfound
  obtain ⟨⟨rest, rfl⟩, hhead⟩ := hfound
  rw [← Text.length_toList, List.drop_left] at hhead
  exact ⟨text, rest, rfl, List.mem_of_find?_eq_some hentry, Text.length_toList.symm, hhead⟩

theorem isNameChar_of_isFunctionChar {c : CodePoint} (h : isFunctionChar c = true) :
    isNameChar c = true := by
  simp only [isFunctionChar, Bool.or_eq_true] at h
  simp only [isNameChar, isNameFirst, Bool.or_eq_true]
  rcases h with (hlower | hdigit) | hunderscore
  · exact .inl (.inl (.inl (Bool.or_eq_true_iff.2 (.inl hlower))))
  · exact .inr hdigit
  · exact .inl (.inl (.inr hunderscore))

/-- A word that ends inside the text is not the beginning of a name of a function. -/
theorem word?_append {c : CodePoint} {rest : List CodePoint} (h : word? (c :: rest) = some lexeme)
    (hdrop : (c :: rest).drop lexeme.length ≠ []) (more : List CodePoint) :
    word? (c :: (rest ++ more)) = some lexeme ∧ rest.dropWhile isFunctionChar ≠ [] := by
  have hlexeme : lexeme = ⟨lexeme.kind, lexeme.length⟩ := rfl
  obtain ⟨text, after, heq, hmem, hlength, hhead⟩ := exists_of_word? h
  rw [heq, hlength, List.drop_left] at hdrop
  obtain ⟨d, after, rfl⟩ := List.exists_cons_of_ne_nil hdrop
  refine ⟨?_, fun hnil => ?_⟩
  · have hhead' : (d :: (after ++ more)).head?.any isNameChar = false := hhead
    rw [← List.cons_append, heq, List.append_assoc, hlexeme, hlength]
    exact word?_of_mem hhead' hmem
  · have hne : text.toList ≠ [] := by
      have hwords : ∀ entry ∈ words, entry.1.toList ≠ [] := by decide
      exact hwords _ hmem
    obtain ⟨e, text, htext⟩ := List.exists_cons_of_ne_nil hne
    rw [htext] at heq
    have hd : d ∈ rest := by
      rw [(List.cons.inj heq).2]
      simp
    have hfunction : isFunctionChar d = true := by
      rw [← @List.takeWhile_append_dropWhile _ isFunctionChar rest, hnil, List.append_nil] at hd
      exact List.all_eq_true.1 List.all_takeWhile d hd
    have hname : isNameChar d = false := hhead
    rw [isNameChar_of_isFunctionChar hfunction] at hname
    cases hname

/-- More text does not change a lexeme, if what stands after the lexeme ends a number there may be,
and if the lexeme can be the last of a query where nothing stands after it. -/
theorem lexeme?_append (h : lexeme? cs = .ok (some lexeme))
    (hend : cs.drop lexeme.length = [] → lexeme.kind.endsQuery = true)
    (hsettled : lexeme.kind = .integer ∨ lexeme.kind = .decimal →
      IsSettled (cs.drop lexeme.length)) (more : List CodePoint) :
    lexeme? (cs ++ more) = .ok (some lexeme) := by
  rw [lexeme?_eq_ok_iff]
  -- At the end of the text stands a symbol that is no part of another one. Elsewhere the character
  -- after the lexeme is there to end it.
  by_cases hdrop : cs.drop lexeme.length = []
  · have hsymbol : symbol? cs = some lexeme := by
      refine symbol?_of_lexeme? h fun hkind => ?_
      have hnone : ∀ kind ∈ operandKinds, kind.endsQuery = false := by decide
      exact absurd (hend hdrop) (Bool.eq_false_iff.1 (hnone _ hkind))
    exact .symbol (symbol?_append_of_endsQuery hsymbol (hend hdrop) more)
  · have hlength : 1 < cs.length := by
      have hpos := (within_of_lexeme? h).1
      have hle := List.length_pos_iff.2 hdrop
      rw [List.length_drop] at hle
      omega
    cases lexeme?_eq_ok_iff.1 h with
    | symbol hsymbol => exact .symbol ((symbol?_append hlength more).trans hsymbol)
    | number hsymbol hnumber =>
      refine .number ((symbol?_append hlength more).trans hsymbol) (number?_append hnumber ?_ more)
      exact hsettled (kind_of_number? hnumber)
    | quoted hsymbol hnumber hquote hclosing =>
      exact .quoted ((symbol?_append hlength more).trans hsymbol)
        (number?_append_eq_none hnumber hlength more) hquote (closingQuote?_append hclosing more)
    | @function c rest _ hsymbol hnumber hquote hfunction =>
      refine .function ((symbol?_append hlength more).trans hsymbol)
        (number?_append_eq_none hnumber hlength more) hquote ?_
      have hname : rest.dropWhile isFunctionChar ≠ [] := by
        intro hnil
        simp [function?, drop_takeWhile, hnil] at hfunction
      exact (function?_append hname more).trans hfunction
    | word hsymbol hnumber hquote hfunction hword =>
      obtain ⟨hword', hname⟩ := word?_append hword hdrop more
      exact .word ((symbol?_append hlength more).trans hsymbol)
        (number?_append_eq_none hnumber hlength more) hquote
        ((function?_append hname more).trans hfunction) hword'

/-! ### What stands after a number -/

/-- What starts with the mark of an exponent is the name of a function or nothing. -/
theorem function?_of_mark {e : CodePoint} {more : List CodePoint} (he : e = 'e' ∨ e = 'E')
    (h : lexeme? (e :: more) = .ok (some lexeme)) : function? (e :: more) = some lexeme := by
  have hsymbol : symbol? (e :: more) = none :=
    symbol?_eq_none (p := fun c => c == 'e' || c == 'E') (by decide) (by simpa using he) more
  have hnumber : number? (e :: more) = none := by
    rcases he with rfl | rfl <;> exact number?_eq_none (by decide) (by decide) more
  cases lexeme?_eq_ok_iff.1 h with
  | symbol hsymbol' => cases hsymbol.symm.trans hsymbol'
  | number _ hnumber' => cases hnumber.symm.trans hnumber'
  | quoted _ _ hquote _ => rcases he with rfl | rfl <;> cases hquote
  | function _ _ _ hfunction => exact hfunction
  | word _ _ _ _ hword =>
    obtain ⟨text, rest, heq, hmem, -, -⟩ := exists_of_word? hword
    have hheads : ∀ entry ∈ words,
        entry.1.toList.head?.any (fun c : CodePoint => c == 'e' || c == 'E') = false := by decide
    have hne : ∀ entry ∈ words, entry.1.toList ≠ [] := by decide
    have hhead := hheads _ hmem
    obtain ⟨c, cs, hcs⟩ := List.exists_cons_of_ne_nil (hne _ hmem)
    rw [hcs] at heq hhead
    rw [(List.cons.inj heq).1] at he
    simp only [List.head?_cons, Option.any_some, Bool.or_eq_false_iff, beq_eq_false_iff_ne] at hhead
    exact absurd he (not_or.2 hhead)

/-! ### Names after dots -/

theorem takeWhile_append_of_head? {p : CodePoint → Bool} {more : List CodePoint}
    (h : ∀ c ∈ more.head?, p c = false) (cs : List CodePoint) :
    (cs ++ more).takeWhile p = cs.takeWhile p := by
  induction cs with
  | nil =>
    cases more with
    | nil => rfl
    | cons c more => simp [h c rfl]
  | cons c cs ih => cases hc : p c <;> simp [hc, ih]

theorem shorthand?_append {dots : TokenKind} {found? : Option Lexeme} {more : List CodePoint}
    (h : shorthand? dots cs = .ok found?) (hmore : ∀ c ∈ more.head?, isNameChar c = false) :
    shorthand? dots (cs ++ more) = .ok found? := by
  cases cs with
  | nil => cases h
  | cons c cs =>
    unfold shorthand? at h ⊢
    rw [List.cons_append]
    dsimp only at h ⊢
    rw [takeWhile_append_of_head? hmore]
    exact h

end Lexer

end JsonPath
