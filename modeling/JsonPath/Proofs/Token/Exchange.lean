import JsonPath.Proofs.Token.Seam
import Mathlib.Data.List.TakeWhile

/-!
# Another text after a token

No lexeme goes on with a blank or with a closing bracket. So what stands after a token can be
exchanged for any text that starts with such a character: the token stays, and so do all before it.
Only dots and names of functions look at what stands after them for its own sake.
-/

namespace JsonPath

namespace Lexer

/-- The text is empty or starts with a character that no lexeme goes on with. -/
def Severed (more : List CodePoint) : Prop :=
  ∀ c ∈ more.head?, c ∈ [(' ' : CodePoint), '\t', '\n', '\r', ')', ']']

theorem Severed.head_eq_false {more : List CodePoint} (h : Severed more) {p : CodePoint → Bool}
    (hp : [(' ' : CodePoint), '\t', '\n', '\r', ')', ']'].any p = false) :
    ∀ c ∈ more.head?, p c = false :=
  fun c hc => Bool.eq_false_iff.2 (List.any_eq_false.1 hp c (h c hc))

theorem Severed.of_isBlank {c : CodePoint} (h : Text.isBlank c = true) (cs : List CodePoint) :
    Severed (c :: cs) := by
  intro d hd
  cases hd
  simp only [Text.isBlank, decide_eq_true_eq] at h
  simp only [List.mem_cons]
  tauto

end Lexer

namespace Numeral

open Lexer (Severed)

/-- What the scanner takes off a text it also takes off where another text stands at the end, unless
it has gone into the end. -/
def Exchanges {α : Type} (scanner : List CodePoint → α × List CodePoint)
    (rest more : List CodePoint) : Prop :=
  ∀ cs : List CodePoint, rest.length ≤ (scanner (cs ++ rest)).2.length →
    ∃ cs', (scanner (cs ++ rest)).2 = cs' ++ rest ∧
      scanner (cs ++ more) = ((scanner (cs ++ rest)).1, cs' ++ more)

variable {digit : CodePoint → Bool} {cs rest more : List CodePoint}

theorem takeWhile_eq_nil {p : CodePoint → Bool} (hmore : ∀ c ∈ more.head?, p c = false) :
    more.takeWhile p = [] := by
  cases more with
  | nil => rfl
  | cons c more => exact List.takeWhile_cons_of_neg (Bool.eq_false_iff.1 (hmore c rfl))

theorem takeWhile_exchange_eq_nil {p : CodePoint → Bool} (h : (cs ++ rest).takeWhile p = [])
    (hmore : ∀ c ∈ more.head?, p c = false) : (cs ++ more).takeWhile p = [] := by
  cases cs with
  | nil => exact takeWhile_eq_nil hmore
  | cons c cs =>
    cases hc : p c with
    | true => simp [hc] at h
    | false => simp [hc]

theorem exchanges_spanDigits (hmore : ∀ c ∈ more.head?, digit c = false) :
    Exchanges (spanDigits digit) rest more := by
  intro cs hle
  induction cs with
  | nil =>
    have hdrop : rest.dropWhile digit = rest := (List.dropWhile_suffix digit).eq_of_length_le hle
    have htake : rest.takeWhile digit = [] := by
      have hboth := @List.takeWhile_append_dropWhile _ digit rest
      rwa [hdrop, List.append_left_eq_self] at hboth
    have htake' : more.takeWhile digit = [] := takeWhile_eq_nil hmore
    have hdrop' := @List.takeWhile_append_dropWhile _ digit more
    rw [htake', List.nil_append] at hdrop'
    refine ⟨[], hdrop, ?_⟩
    simp only [spanDigits, List.nil_append, htake, htake', hdrop']
  | cons c cs ih =>
    cases hc : digit c with
    | true =>
      simp only [spanDigits, List.cons_append, List.dropWhile_cons_of_pos hc] at hle ⊢
      obtain ⟨cs', hafter, hspan⟩ := ih hle
      simp only [spanDigits, Prod.mk.injEq] at hspan
      refine ⟨cs', hafter, ?_⟩
      rw [List.takeWhile_cons_of_pos hc, List.takeWhile_cons_of_pos hc, hspan.1, hspan.2]
    | false => exact ⟨c :: cs, by simp [spanDigits, hc], by simp [spanDigits, hc]⟩

theorem exchanges_splitMinus (hmore : Severed more) : Exchanges splitMinus rest more := by
  intro cs hle
  cases cs with
  | nil =>
    have hnot (cs : List CodePoint) (hcs : ∀ c ∈ cs.head?, (c == '-') = false) :
        splitMinus cs = (false, cs) := by
      unfold splitMinus
      split <;> simp_all
    have hrest : splitMinus rest = (false, rest) := by
      cases rest with
      | nil => rfl
      | cons c rest =>
        refine hnot _ fun d hd => ?_
        cases hd
        by_contra hc
        rw [Bool.not_eq_false, beq_iff_eq] at hc
        subst hc
        exact absurd hle (Nat.not_succ_le_self _)
    rw [List.nil_append, hrest]
    exact ⟨[], rfl, hnot _ (hmore.head_eq_false (by decide))⟩
  | cons c cs =>
    rw [splitMinus_append (List.cons_ne_nil c cs)]
    exact ⟨_, rfl, splitMinus_append (List.cons_ne_nil c cs) more⟩

theorem splitSign_of_severed (hmore : Severed more) : splitSign more = (false, more) := by
  have hsign := hmore.head_eq_false (p := fun c => c == '-' || c == '+') (by decide)
  unfold splitSign
  split <;> simp_all

theorem exchanges_splitSign (hmore : Severed more) : Exchanges splitSign rest more := by
  intro cs hle
  cases cs with
  | nil =>
    have hrest : splitSign rest = (false, rest) := by
      unfold splitSign
      split
      · exact absurd hle (Nat.not_succ_le_self _)
      · exact absurd hle (Nat.not_succ_le_self _)
      · rfl
    rw [List.nil_append, hrest]
    exact ⟨[], rfl, splitSign_of_severed hmore⟩
  | cons c cs =>
    rw [splitSign_append (List.cons_ne_nil c cs)]
    exact ⟨_, rfl, splitSign_append (List.cons_ne_nil c cs) more⟩

theorem exchanges_scanFraction (hmore : Severed more)
    (hdigit : ∀ c ∈ more.head?, digit c = false) :
    Exchanges (scanFraction digit) rest more := by
  intro cs hle
  cases cs with
  | nil =>
    have hrest : scanFraction digit rest = (none, rest) := by
      unfold scanFraction
      split
      next rest =>
        split
        · rfl
        next hdigits =>
          have hshort := (List.dropWhile_suffix digit (l := rest)).length_le
          simp only [List.nil_append, scanFraction_dot] at hle
          split at hle
          next hnil => exact absurd hnil hdigits
          · exact absurd hle (Nat.not_le_of_lt (Nat.lt_succ_of_le hshort))
      · rfl
    rw [List.nil_append, hrest]
    refine ⟨[], rfl, ?_⟩
    have hdot := hmore.head_eq_false (p := (· == '.')) (by decide)
    cases more with
    | nil => rfl
    | cons c more => exact scanFraction_of_ne (by simpa using hdot c rfl) more
  | cons c cs =>
    by_cases hc : c = '.'
    · simp only [hc, List.cons_append, scanFraction_dot] at hle ⊢
      by_cases htake : (cs ++ rest).takeWhile digit = []
      · rw [if_pos htake, if_pos (takeWhile_exchange_eq_nil htake hdigit)]
        exact ⟨'.' :: cs, rfl, rfl⟩
      · rw [if_neg htake] at hle ⊢
        obtain ⟨cs', hafter, hspan⟩ := exchanges_spanDigits hdigit cs hle
        simp only [spanDigits, Prod.mk.injEq] at hspan
        refine ⟨cs', hafter, ?_⟩
        rw [hspan.1, hspan.2, if_neg htake]
    · simp only [List.cons_append, scanFraction_of_ne hc]
      exact ⟨c :: cs, rfl, rfl⟩

theorem takeWhile_splitSign_exchange (hmore : Severed more)
    (hdigit : ∀ c ∈ more.head?, digit c = false)
    (h : (splitSign (cs ++ rest)).2.takeWhile digit = []) :
    (splitSign (cs ++ more)).2.takeWhile digit = [] := by
  cases cs with
  | nil =>
    rw [List.nil_append, splitSign_of_severed hmore]
    exact takeWhile_eq_nil hdigit
  | cons c cs =>
    rw [splitSign_append (List.cons_ne_nil c cs)] at h ⊢
    exact takeWhile_exchange_eq_nil h hdigit

theorem exchanges_scanExponent (hmore : Severed more)
    (hdigit : ∀ c ∈ more.head?, digit c = false) :
    Exchanges (scanExponent digit) rest more := by
  intro cs hle
  cases cs with
  | nil =>
    have hrest : scanExponent digit rest = (none, rest) := by
      unfold scanExponent
      split
      · rfl
      next e rest =>
        split
        next he =>
          dsimp only
          split
          · rfl
          next hdigits =>
            have hshort := (List.dropWhile_suffix digit (l := (splitSign rest).2)).length_le
            have hsign := length_splitSign_le rest
            simp only [List.nil_append, scanExponent_mark digit he] at hle
            split at hle
            next hnil => exact absurd hnil hdigits
            · simp only [List.length_cons] at hle
              omega
        · rfl
    rw [List.nil_append, hrest]
    refine ⟨[], rfl, ?_⟩
    have hmark := hmore.head_eq_false (p := fun c => c == 'e' || c == 'E') (by decide)
    cases more with
    | nil => rfl
    | cons c more =>
      have hc : ¬ (c = 'e' ∨ c = 'E') := by simpa using hmark c rfl
      simp only [List.nil_append, scanExponent, if_neg hc]
  | cons e cs =>
    by_cases he : e = 'e' ∨ e = 'E'
    · simp only [List.cons_append, scanExponent_mark digit he] at hle ⊢
      by_cases htake : (splitSign (cs ++ rest)).2.takeWhile digit = []
      · rw [if_pos htake, if_pos (takeWhile_splitSign_exchange hmore hdigit htake)]
        exact ⟨e :: cs, rfl, rfl⟩
      · rw [if_neg htake] at hle ⊢
        have hshort := (List.dropWhile_suffix digit (l := (splitSign (cs ++ rest)).2)).length_le
        obtain ⟨cs₁, hcs₁, hsplit⟩ := exchanges_splitSign hmore cs (hle.trans hshort)
        rw [hcs₁] at hle htake ⊢
        obtain ⟨cs₂, hcs₂, hspan⟩ := exchanges_spanDigits hdigit cs₁ hle
        simp only [spanDigits, Prod.mk.injEq] at hspan
        refine ⟨cs₂, hcs₂, ?_⟩
        simp only [hsplit, hspan.1, hspan.2, if_neg htake]
    · simp only [List.cons_append, scanExponent, if_neg he]
      exact ⟨e :: cs, rfl, rfl⟩

theorem scan?_exchange (hmore : Severed more) (hdigit : ∀ c ∈ more.head?, digit c = false)
    {n : Numeral} {after : List CodePoint}
    (h : scan? digit (spanDigits digit) (cs ++ rest) = some (n, after))
    (hle : rest.length ≤ after.length) :
    ∃ cs', after = cs' ++ rest ∧
      scan? digit (spanDigits digit) (cs ++ more) = some (n, cs' ++ more) := by
  unfold scan? at h ⊢
  dsimp only at h ⊢
  split at h
  · cases h
  next hwhole =>
    simp only [Option.some.injEq, Prod.mk.injEq] at h
    obtain ⟨rfl, rfl⟩ := h
    have hexponent := length_scanExponent_le digit
      (scanFraction digit (spanDigits digit (splitMinus (cs ++ rest)).2).2).2
    have hfraction := length_scanFraction_le digit (spanDigits digit (splitMinus (cs ++ rest)).2).2
    have hspan := (List.dropWhile_suffix digit (l := (splitMinus (cs ++ rest)).2)).length_le
    -- Each part ends before the rest of the text, since the last one does.
    obtain ⟨cs₁, hcs₁, hminus⟩ :=
      exchanges_splitMinus hmore cs (hle.trans (hexponent.trans (hfraction.trans hspan)))
    rw [hcs₁] at hle hwhole hexponent hfraction ⊢
    obtain ⟨cs₂, hcs₂, hdigits⟩ :=
      exchanges_spanDigits hdigit cs₁ (hle.trans (hexponent.trans hfraction))
    rw [hcs₂] at hle hexponent ⊢
    obtain ⟨cs₃, hcs₃, hscan⟩ := exchanges_scanFraction hmore hdigit cs₂ (hle.trans hexponent)
    rw [hcs₃] at hle ⊢
    obtain ⟨cs₄, hcs₄, hscan'⟩ := exchanges_scanExponent hmore hdigit cs₃ hle
    refine ⟨cs₄, hcs₄, ?_⟩
    simp only [hminus, hdigits, hscan, hscan', if_neg hwhole]

end Numeral

namespace Lexer

variable {cs rest more : List CodePoint} {lexeme : Lexeme}

/-! ### Lexemes -/

/-- A symbol that starts a text starts it before a character that no lexeme goes on with. -/
theorem prefix_of_severed (hmore : Severed more) (hcs : cs ≠ []) {entry : Text × TokenKind}
    (hentry : entry ∈ symbols) (h : entry.1.toList <+: cs ++ more) : entry.1.toList <+: cs := by
  have hsymbols : ∀ entry ∈ symbols, entry.1.toList.tail.any
      (fun c => decide (c ∈ [(' ' : CodePoint), '\t', '\n', '\r', ')', ']'])) = false := by decide
  obtain ⟨after, hafter⟩ := h
  rcases List.append_eq_append_iff.1 hafter with ⟨cs', rfl, -⟩ | ⟨cs', htext, rfl⟩
  · exact List.prefix_append _ _
  · cases cs' with
    | nil =>
      rw [List.append_nil] at htext
      exact htext ▸ List.prefix_rfl
    | cons c cs' =>
      obtain ⟨d, cs, rfl⟩ := List.exists_cons_of_ne_nil hcs
      have hc : c ∈ entry.1.toList.tail := by
        rw [htext]
        simp
      exact absurd (decide_eq_true (hmore c rfl)) (List.any_eq_false.1 (hsymbols entry hentry) c hc)

theorem symbol?_exchange (hmore : Severed more) (h : symbol? (cs ++ rest) = some lexeme)
    (hle : lexeme.length ≤ cs.length) : symbol? (cs ++ more) = some lexeme := by
  have hcs : cs ≠ [] := List.ne_nil_of_length_pos ((within_of_symbol? h).1.trans_le hle)
  obtain ⟨entry, hfound, rfl⟩ := Option.map_eq_some_iff.1 h
  obtain ⟨hentry, before, others, hsplit, hbefore⟩ := List.find?_eq_some_iff_append.1 hfound
  have hbegins {text : Text} {more : List CodePoint} :
      text.toList.isPrefixOf (cs ++ more) = true ↔ text.toList <+: cs ++ more :=
    List.isPrefixOf_iff_prefix
  refine Option.map_eq_some_iff.2 ⟨entry, List.find?_eq_some_iff_append.2 ⟨?_, before, others,
    hsplit, fun other hother => ?_⟩, rfl⟩
  · have hwithin : entry.1.toList <+: cs :=
      List.prefix_of_prefix_length_le (hbegins.1 hentry) (List.prefix_append cs rest)
        (Text.length_toList.symm ▸ hle)
    exact hbegins.2 (hwithin.trans (List.prefix_append cs more))
  · have hnot := hbefore other hother
    rw [Bool.not_eq_true', ← Bool.not_eq_true] at hnot ⊢
    intro hstarts
    apply hnot
    apply hbegins.2
    have hmem : other ∈ symbols := hsplit ▸ List.mem_append_left _ hother
    exact (prefix_of_severed hmore hcs hmem (hbegins.1 hstarts)).trans (List.prefix_append cs rest)

theorem symbol?_exchange_eq_none (hmore : Severed more) (hcs : cs ≠ [])
    (h : symbol? (cs ++ rest) = none) : symbol? (cs ++ more) = none := by
  unfold symbol? at h ⊢
  rw [Option.map_eq_none_iff, List.find?_eq_none] at h ⊢
  intro entry hentry hstarts
  refine h entry hentry ?_
  rw [List.isPrefixOf_iff_prefix] at hstarts ⊢
  exact (prefix_of_severed hmore hcs hentry hstarts).trans (List.prefix_append cs rest)

theorem not_isDigit_of_severed (hmore : Severed more) :
    ∀ c ∈ more.head?, Unicode.isDigit c = false := hmore.head_eq_false (by decide)

theorem number?_exchange (hmore : Severed more) (h : number? (cs ++ rest) = some lexeme)
    (hle : lexeme.length ≤ cs.length) : number? (cs ++ more) = some lexeme := by
  obtain ⟨⟨n, after⟩, hscan, rfl⟩ := Option.map_eq_some_iff.1 h
  have hafter : rest.length ≤ after.length := by
    simp only [List.length_append] at hle
    omega
  obtain ⟨cs', rfl, hscan'⟩ :=
    Numeral.scan?_exchange hmore (not_isDigit_of_severed hmore) hscan hafter
  refine Option.map_eq_some_iff.2 ⟨_, hscan', ?_⟩
  simp only [List.length_append, Nat.add_sub_add_right]

theorem number?_exchange_eq_none (hmore : Severed more) (hcs : cs ≠ [])
    (h : number? (cs ++ rest) = none) : number? (cs ++ more) = none := by
  unfold number? at h ⊢
  rw [Option.map_eq_none_iff, Numeral.scan?_eq_none_iff, Numeral.splitMinus_append hcs] at h ⊢
  exact Numeral.takeWhile_exchange_eq_nil h (not_isDigit_of_severed hmore)

theorem closingQuote?_pos {quote : CodePoint} {length : Nat}
    (h : closingQuote? quote cs = some length) : 0 < length := by
  unfold closingQuote? at h
  split at h
  · cases h
  · split at h
    · cases h
      exact Nat.one_pos
    · split at h
      · split at h
        · cases h
        · obtain ⟨n, -, rfl⟩ := Option.map_eq_some_iff.1 h
          exact Nat.succ_pos _
      · obtain ⟨n, -, rfl⟩ := Option.map_eq_some_iff.1 h
        exact Nat.succ_pos _

theorem closingQuote?_of_append {quote : CodePoint} {length : Nat}
    (h : closingQuote? quote (cs ++ rest) = some length) (hle : length ≤ cs.length) :
    closingQuote? quote cs = some length := by
  fun_induction closingQuote? quote cs generalizing length with
  | case1 => exact absurd hle (Nat.not_le_of_lt (closingQuote?_pos h))
  | case2 =>
    rw [List.cons_append, closingQuote?.eq_def] at h
    exact (if_pos rfl).symm.trans h
  | case3 hquote =>
    rw [List.cons_append, closingQuote?.eq_def] at h
    dsimp only at h
    rw [if_neg hquote, if_pos rfl] at h
    cases rest with
    | nil => cases h
    | cons d rest =>
      obtain ⟨n, -, rfl⟩ := Option.map_eq_some_iff.1 h
      exact absurd hle (by simp)
  | case4 d rest hquote ih =>
    rw [List.cons_append, List.cons_append, closingQuote?.eq_def] at h
    dsimp only at h
    rw [if_neg hquote, if_pos rfl] at h
    obtain ⟨n, hn, rfl⟩ := Option.map_eq_some_iff.1 h
    rw [ih hn (Nat.le_of_add_le_add_right hle)]
    rfl
  | case5 c rest hquote hescape ih =>
    rw [List.cons_append, closingQuote?.eq_def] at h
    dsimp only at h
    rw [if_neg hquote, if_neg hescape] at h
    obtain ⟨n, hn, rfl⟩ := Option.map_eq_some_iff.1 h
    rw [ih hn (Nat.le_of_succ_le_succ hle)]
    rfl

/-- What makes a function name is seen in a text that it does not take all of. -/
theorem function?_append_eq (h : cs.dropWhile isFunctionChar ≠ []) (c : CodePoint)
    (more rest : List CodePoint) :
    function? (c :: (cs ++ more)) = function? (c :: (cs ++ rest)) := by
  calc function? (c :: (cs ++ more))
    _ = function? (c :: cs) := function?_append h more
    _ = function? (c :: (cs ++ rest)) := (function?_append h rest).symm

theorem function?_exchange {c : CodePoint} (h : function? (c :: (cs ++ rest)) = some lexeme)
    (hlt : lexeme.length < (c :: cs).length) (more : List CodePoint) :
    function? (c :: (cs ++ more)) = some lexeme := by
  have hname : cs.dropWhile isFunctionChar ≠ [] := by
    intro hnil
    have hall := List.dropWhile_eq_nil_iff.1 hnil
    unfold function? at h
    simp only [Option.ite_none_right_eq_some, Option.some.injEq] at h
    obtain ⟨-, rfl⟩ := h
    rw [List.takeWhile_append_of_pos hall, List.length_append] at hlt
    exact absurd hlt (by simp)
  rwa [function?_append_eq hname c more rest]

theorem function?_exchange_eq_none (hmore : Severed more) {c : CodePoint}
    (h : function? (c :: (cs ++ rest)) = none) : function? (c :: (cs ++ more)) = none := by
  by_cases hname : cs.dropWhile isFunctionChar = []
  · have htake : (cs ++ more).takeWhile isFunctionChar = cs := by
      rw [takeWhile_append_of_head? (hmore.head_eq_false (by decide))]
      exact List.takeWhile_eq_self_iff.2 (List.dropWhile_eq_nil_iff.1 hname)
    have hparen := hmore.head_eq_false (p := (· == '(')) (by decide)
    unfold function?
    simp only [htake, List.drop_left, Bool.and_eq_true, beq_iff_eq]
    refine if_neg fun hcall => ?_
    simpa using hparen '(' hcall.2
  · rwa [function?_append_eq hname c more rest]

theorem word?_exchange (hmore : Severed more) (h : word? (cs ++ rest) = some lexeme)
    (hle : lexeme.length ≤ cs.length) : word? (cs ++ more) = some lexeme := by
  obtain ⟨text, after, heq, hmem, hlength, hhead⟩ := exists_of_word? h
  have hlexeme : lexeme = ⟨lexeme.kind, lexeme.length⟩ := rfl
  obtain ⟨cs', rfl⟩ : text.toList <+: cs :=
    List.prefix_of_prefix_length_le ⟨after, heq.symm⟩ (List.prefix_append cs rest) (hlength ▸ hle)
  rw [List.append_assoc, List.append_cancel_left_eq] at heq
  rw [hlexeme, hlength, List.append_assoc]
  refine word?_of_mem ?_ hmem
  cases cs' with
  | nil =>
    cases more with
    | nil => rfl
    | cons d more => exact hmore.head_eq_false (p := isNameChar) (by decide) d rfl
  | cons d cs' =>
    rw [← heq] at hhead
    exact hhead

/-- A lexeme stays if what stands after it is exchanged for a text that no lexeme goes on with.
After the name of a function the parenthesis has to stay as well. -/
theorem lexeme?_exchange (hmore : Severed more) (h : lexeme? (cs ++ rest) = .ok (some lexeme))
    (hle : lexeme.length ≤ cs.length)
    (hfunction : lexeme.kind = .function → lexeme.length < cs.length) :
    lexeme? (cs ++ more) = .ok (some lexeme) := by
  have hcs : cs ≠ [] := List.ne_nil_of_length_pos ((within_of_lexeme? h).1.trans_le hle)
  obtain ⟨c, cs, rfl⟩ := List.exists_cons_of_ne_nil hcs
  rw [lexeme?_eq_ok_iff] at h ⊢
  cases h with
  | symbol hsymbol => exact .symbol (symbol?_exchange hmore hsymbol hle)
  | number hsymbol hnumber =>
    exact .number (symbol?_exchange_eq_none hmore hcs hsymbol) (number?_exchange hmore hnumber hle)
  | quoted hsymbol hnumber hquote hclosing =>
    refine .quoted (symbol?_exchange_eq_none hmore hcs hsymbol)
      (number?_exchange_eq_none hmore hcs hnumber) hquote ?_
    exact closingQuote?_append (closingQuote?_of_append hclosing (Nat.le_of_succ_le_succ hle)) more
  | function hsymbol hnumber hquote hname =>
    refine .function (symbol?_exchange_eq_none hmore hcs hsymbol)
      (number?_exchange_eq_none hmore hcs hnumber) hquote (function?_exchange hname ?_ more)
    exact hfunction (isFunctionName_of_function? "" 0 hname).1
  | word hsymbol hnumber hquote hname hword =>
    exact .word (symbol?_exchange_eq_none hmore hcs hsymbol)
      (number?_exchange_eq_none hmore hcs hnumber) hquote
      (function?_exchange_eq_none hmore hname) (word?_exchange hmore hword hle)

theorem shorthand?_exchange (hmore : Severed more) {dots : TokenKind} {found? : Option Lexeme}
    (hcs : cs ≠ []) (h : shorthand? dots (cs ++ rest) = .ok found?)
    (hle : ∀ lexeme ∈ found?, lexeme.length ≤ cs.length) :
    shorthand? dots (cs ++ more) = .ok found? := by
  obtain ⟨c, cs, rfl⟩ := List.exists_cons_of_ne_nil hcs
  unfold shorthand? at h ⊢
  simp only [List.cons_append] at h ⊢
  split at h
  next hname =>
    cases h
    have hspan : rest.length ≤ ((cs ++ rest).dropWhile isNameChar).length := by
      have hboth := congrArg List.length
        (@List.takeWhile_append_dropWhile _ isNameChar (cs ++ rest))
      have hlength : ((cs ++ rest).takeWhile isNameChar).length + 1 ≤ cs.length + 1 := hle _ rfl
      rw [List.length_append, List.length_append] at hboth
      omega
    obtain ⟨_, -, hspan'⟩ :=
      Numeral.exchanges_spanDigits (hmore.head_eq_false (by decide)) cs hspan
    rw [if_pos hname, (Prod.mk.inj hspan').1]
    rfl
  next hname =>
    rw [if_neg hname]
    exact h

/-! ### Texts -/

/-- Where the last of the tokens ends that start at an offset. -/
def stopOf (offset : Nat) (ts : List Token) : Nat := (ts.getLast?.map Token.stop).getD offset

theorem stopOf_cons (offset : Nat) (t : Token) (ts : List Token) :
    stopOf offset (t :: ts) = stopOf t.stop ts := by
  unfold stopOf
  rw [List.getLast?_cons]
  cases ts.getLast? <;> rfl

theorem stopOf_concat (offset : Nat) (ts : List Token) (t : Token) :
    stopOf offset (ts ++ [t]) = t.stop := by
  unfold stopOf
  rw [List.getLast?_concat]
  rfl

variable {query : Text} {dots? : Option TokenKind} {offset : Nat} {a b x : List CodePoint}
  {ts us : List Token}

/-- The text is cut where the first tokens end. What stands there comes to tokens on its own, and
any other text that does so and that no lexeme goes on with can stand there instead. -/
structure Cut (query : Text) (dots? : Option TokenKind) (offset : Nat) (a b : List CodePoint)
    (ts us : List Token) : Prop where
  stop : stopOf offset ts = offset + a.length
  after : Tokenizes query none (offset + a.length) b us
  exchange : ∀ more vs, Severed more → Tokenizes query none (offset + a.length) more vs →
    Tokenizes query dots? offset (a ++ more) (ts ++ vs)

theorem token_exchange (h : lexeme.length ≤ cs.length) (query : Text) (offset : Nat)
    (rest more : List CodePoint) :
    lexeme.token query offset (cs ++ more) = lexeme.token query offset (cs ++ rest) :=
  (token_append h query offset more).trans (token_append h query offset rest).symm

namespace Cut

theorem ne_nil (h : Cut query dots? offset a b ts us) (hts : ts ≠ []) : a ≠ [] := by
  rintro rfl
  have hlength := (h.exchange [] _ (fun c hc => by cases hc) .done).of_nil
  rw [List.length_append, List.length_singleton] at hlength
  exact hts (List.length_eq_zero_iff.1 (Nat.succ.inj hlength))

theorem nil (h : Tokenizes query none offset cs us) : Cut query none offset [] cs [] us :=
  ⟨rfl, h, fun _ _ _ hmore => hmore⟩

theorem ofBracket {dots : TokenKind} (hnone : shorthand? dots (a ++ b) = .ok none) (hts : ts ≠ [])
    (h : Cut query none offset a b ts us) : Cut query (some dots) offset a b ts us where
  stop := h.stop
  after := h.after
  exchange more vs hmore hvs :=
    .bracket (shorthand?_exchange hmore (h.ne_nil hts) hnone (fun _ ht => by cases ht))
      (h.exchange more vs hmore hvs)

theorem ofShorthand {dots : TokenKind}
    (hlexeme : shorthand? dots (x ++ a ++ b) = .ok (some lexeme)) (hx : x.length = lexeme.length)
    (h : Cut query none (offset + lexeme.length) a b ts us) :
    Cut query (some dots) offset (x ++ a) b (lexeme.token query offset (x ++ a ++ b) :: ts) us := by
  have hle : lexeme.length ≤ (x ++ a).length := by
    rw [List.length_append, hx]
    exact Nat.le_add_right _ _
  have hne : x ++ a ≠ [] :=
    List.ne_nil_of_length_pos ((within_of_shorthand? hlexeme).1.trans_le hle)
  have hoffset : offset + (x ++ a).length = offset + lexeme.length + a.length := by
    rw [List.length_append, hx, Nat.add_assoc]
  refine ⟨?_, hoffset ▸ h.after, fun more vs hmore hvs => ?_⟩
  · rw [stopOf_cons, hoffset]
    exact h.stop
  · rw [List.cons_append, ← token_exchange hle query offset b more]
    refine .shorthand (shorthand?_exchange hmore hne hlexeme fun _ hfound => ?_) ?_
    · cases hfound
      exact hle
    · rw [List.append_assoc, ← hx, List.drop_left, hx]
      exact h.exchange more vs hmore (hoffset ▸ hvs)

theorem ofLexeme {blanks : List CodePoint} {c : CodePoint}
    (hblanks : ∀ d ∈ blanks, Text.isBlank d = true)
    (hc : Text.isBlank c = false) (hlexeme : lexeme? (c :: x ++ a ++ b) = .ok (some lexeme))
    (hx : (c :: x).length = lexeme.length) (hfunction : lexeme.kind = .function → a ≠ [])
    (h : Cut query lexeme.dots? (offset + blanks.length + lexeme.length) a b ts us) :
    Cut query none offset (blanks ++ (c :: x ++ a)) b
      (lexeme.token query (offset + blanks.length) (c :: x ++ a ++ b) :: ts) us := by
  have hle : lexeme.length ≤ (c :: x ++ a).length := by
    rw [List.length_append, hx]
    exact Nat.le_add_right _ _
  have hoffset : offset + (blanks ++ (c :: x ++ a)).length =
      offset + blanks.length + lexeme.length + a.length := by
    rw [List.length_append, List.length_append, hx]
    omega
  refine ⟨?_, hoffset ▸ h.after, fun more vs hmore hvs => ?_⟩
  · rw [stopOf_cons, hoffset]
    exact h.stop
  · have hsame : lexeme? (c :: x ++ a ++ more) = .ok (some lexeme) := by
      refine lexeme?_exchange hmore hlexeme hle fun hkind => ?_
      rw [List.length_append, hx]
      exact Nat.lt_add_of_pos_right (List.length_pos_iff.2 (hfunction hkind))
    have hnext : Tokenizes query lexeme.dots? (offset + blanks.length + lexeme.length)
        ((c :: x ++ a ++ more).drop lexeme.length) (ts ++ vs) := by
      rw [List.append_assoc, ← hx, List.drop_left, hx]
      exact h.exchange more vs hmore (hoffset ▸ hvs)
    rw [← token_exchange hle _ _ b more, List.append_assoc]
    exact .lexeme hblanks hc hsame hnext

end Cut

theorem exists_eq_append_of_within (h : lexeme.Within cs) :
    ∃ x cs', cs = x ++ cs' ∧ x.length = lexeme.length :=
  ⟨cs.take lexeme.length, cs.drop lexeme.length, (List.take_append_drop _ _).symm,
    List.length_take_of_le h.2⟩

theorem exists_cons_append_of_lexeme? (h : lexeme? (c :: cs) = .ok (some lexeme)) :
    ∃ x cs', cs = x ++ cs' ∧ (c :: x).length = lexeme.length := by
  obtain ⟨hpos, hle⟩ := within_of_lexeme? h
  obtain ⟨n, hn⟩ := Nat.exists_eq_succ_of_ne_zero hpos.ne'
  rw [hn] at hle ⊢
  refine ⟨cs.take n, cs.drop n, (List.take_append_drop _ _).symm, ?_⟩
  exact congrArg (· + 1) (List.length_take_of_le (Nat.le_of_succ_le_succ hle))

/-- A text can be cut behind any token but dots and names of functions. -/
theorem Tokenizes.exists_cut (h : Tokenizes query dots? offset cs (ts ++ us)) (hus : us ≠ [])
    (hnil : ts = [] → dots? = none)
    (hlast : ∀ t ∈ ts.getLast?, t.kind ∉ [TokenKind.dot, .doubleDot, .function]) :
    ∃ a b, cs = a ++ b ∧ Cut query dots? offset a b ts us := by
  have htail {t : Token} {ts : List Token}
      (h : ∀ u ∈ (t :: ts).getLast?, u.kind ∉ [TokenKind.dot, .doubleDot, .function]) :
      ∀ u ∈ ts.getLast?, u.kind ∉ [TokenKind.dot, .doubleDot, .function] := by
    intro u hu
    refine h u ?_
    rw [List.getLast?_cons, Option.mem_def.1 hu]
    rfl
  generalize htokens : ts ++ us = tokens at h
  induction h generalizing ts with
  | done =>
    cases ts with
    | nil =>
      rw [List.nil_append] at htokens
      exact ⟨[], [], rfl, .nil (htokens ▸ .done)⟩
    | cons t ts => exact absurd (List.append_eq_nil_iff.1 (List.cons.inj htokens).2).2 hus
  | bracket hnone hnext ih =>
    have hts : ts ≠ [] := fun hts => by cases hnil hts
    obtain ⟨a, b, rfl, hcut⟩ := ih (fun hts' => absurd hts' hts) hlast htokens
    exact ⟨a, b, rfl, hcut.ofBracket hnone hts⟩
  | shorthand hlexeme hnext ih =>
    cases ts with
    | nil => cases hnil rfl
    | cons t ts =>
      obtain ⟨rfl, hrest⟩ := List.cons.inj htokens
      obtain ⟨x, cs, rfl, hx⟩ := exists_eq_append_of_within (within_of_shorthand? hlexeme)
      rw [← hx, List.drop_left, hx] at ih
      obtain ⟨a, b, rfl, hcut⟩ := ih (fun _ => rfl) (htail hlast) hrest
      rw [← List.append_assoc] at hlexeme ⊢
      exact ⟨x ++ a, b, rfl, hcut.ofShorthand hlexeme hx⟩
  | @lexeme offset blanks c cs lexeme tokens hblanks hc hlexeme hnext ih =>
    cases ts with
    | nil =>
      rw [List.nil_append] at htokens
      exact ⟨[], _, rfl, .nil (htokens ▸ .lexeme hblanks hc hlexeme hnext)⟩
    | cons t ts =>
      obtain ⟨rfl, hrest⟩ := List.cons.inj htokens
      obtain ⟨x, cs', rfl, hx⟩ := exists_cons_append_of_lexeme? hlexeme
      rw [← List.cons_append, ← hx, List.drop_left, hx] at ih
      have hkind (hts : ts = []) : lexeme.kind ∉ [TokenKind.dot, .doubleDot, .function] := by
        subst hts
        exact hlast _ rfl
      have hdots (hts : ts = []) : lexeme.dots? = none := by
        have hnot := hkind hts
        simp only [List.mem_cons, List.not_mem_nil, or_false, not_or] at hnot
        exact if_neg (not_or.2 ⟨hnot.1, hnot.2.1⟩)
      obtain ⟨a, b, rfl, hcut⟩ := ih hdots (htail hlast) hrest
      have hassoc : c :: (x ++ (a ++ b)) = c :: x ++ a ++ b := by
        rw [List.cons_append, List.cons_append, List.append_assoc]
      rw [hassoc] at hlexeme ⊢
      refine ⟨blanks ++ (c :: x ++ a), b, (List.append_assoc blanks _ b).symm, ?_⟩
      refine hcut.ofLexeme hblanks hc hlexeme hx fun hfunction => hcut.ne_nil fun hts => ?_
      exact hkind hts (by rw [hfunction]; decide)

end Lexer

end JsonPath
