import JsonPath.Proofs.Canonical.Joined

/-!
# Legible texts

A text that is written without a mark at its end can be told from what follows it, if what may
follow is limited. The numbers, names and literals of canonical texts are legible so, and so are
lists of legible items between brackets.
-/

namespace JsonPath

open Lexer (Stops)

/-- No other valid thing starts the same text, whatever follows the one and the other within what
may follow; so the thing, but for what is not written of it, and the rest can be told. -/
def Legible {α β : Type} (text : α → Text) (written : α → β) (Valid : α → Prop)
    (Follows : List CodePoint → Prop) (a : α) : Prop :=
  ∀ ⦃a' rest rest'⦄, Valid a' → Follows rest → Follows rest' →
    (text a).toList ++ rest = (text a').toList ++ rest' → written a = written a' ∧ rest = rest'

theorem Legible.mono {α β : Type} {text : α → Text} {written : α → β} {Valid : α → Prop}
    {Follows Follows' : List CodePoint → Prop} {a : α} (h : Legible text written Valid Follows a)
    (hfollows : ∀ rest, Follows' rest → Follows rest) : Legible text written Valid Follows' a :=
  fun _ _ _ hvalid hrest hrest' => h hvalid (hfollows _ hrest) (hfollows _ hrest')

/-! ### Numbers -/

theorem legible_integer (i : Int) : Legible Text.ofInt id (fun _ => True) Numeral.EndsNumber i := by
  intro j rest rest' _ hrest hrest' heq
  have hscan := Numeral.scan?_of_spells (Numeral.spells_ofInteger i) hrest
  have hscan' := Numeral.scan?_of_spells (Numeral.spells_ofInteger j) hrest'
  rw [heq, hscan'] at hscan
  obtain ⟨hnumeral, hsame⟩ := Prod.mk.inj (Option.some.inj hscan)
  refine ⟨?_, hsame.symm⟩
  rw [id, id, ← Numeral.integerValue_ofInteger i, ← hnumeral, Numeral.integerValue_ofInteger]

/-- What stops an operand starts no number. -/
theorem Lexer.Stops.ne_append_integer {rest : List CodePoint} (h : Stops rest) (i : Int)
    (rest' : List CodePoint) : rest ≠ (Text.ofInt i).toList ++ rest' := by
  rintro rfl
  obtain ⟨c, more, htext, hc⟩ := Lexer.exists_head_of_spells (Numeral.spells_ofInteger i)
  have hno := h.any_eq_false (p := fun c => Unicode.isDigit c || c == '-') (by decide)
  rw [htext, List.cons_append, List.head?_cons, Option.any_some, hc] at hno
  cases hno

/-- A bound of a slice, which may be absent. -/
theorem legible_bound (i? : Option Int) :
    Legible (fun i? : Option Int => (i?.map Text.ofInt).getD "") id (fun _ => True) Stops i? := by
  intro j? rest rest' _ hrest hrest' heq
  match i?, j? with
  | none, none => exact ⟨rfl, heq⟩
  | none, some j => exact absurd heq (hrest.ne_append_integer j rest')
  | some i, none => exact absurd heq.symm (hrest'.ne_append_integer i rest)
  | some i, some j =>
    obtain ⟨hi, hsame⟩ := legible_integer i trivial hrest.endsNumber hrest'.endsNumber heq
    exact ⟨congrArg some hi, hsame⟩

/-! ### Quoted texts -/

section

variable {single : CodePoint → Prop} {quote : CodePoint} {encode : CodePoint → List CodePoint}

/-- What closes a quoted text is found, so as much can be told as is said between the quotes. -/
theorem legible_quoted {written : Text → Text} (hquote : quote = '\'' ∨ quote = '"')
    (hencode : ∀ c, StringLiteral.Spelled single quote c (encode c))
    (hwritten : ∀ s s' : Text, s.toList.flatMap encode = s'.toList.flatMap encode →
      written s = written s') (s : Text) :
    Legible (fun s => Text.ofList (quote :: s.toList.flatMap encode ++ [quote])) written
      (fun _ => True) (fun _ => True) s := by
  intro s' rest rest' _ _ _ heq
  simp only [List.cons_append, List.append_assoc, List.nil_append, List.cons.injEq, true_and]
    at heq
  have hclosing := Lexer.closingQuote?_flatMap hquote hencode s.toList rest
  have hclosing' := Lexer.closingQuote?_flatMap hquote hencode s'.toList rest'
  rw [heq, hclosing', Option.some.injEq, Nat.add_right_cancel_iff] at hclosing
  obtain ⟨hbody, hrest⟩ := List.append_inj heq hclosing.symm
  exact ⟨hwritten s s' hbody, (List.cons.inj hrest).2⟩

end

theorem legible_normalizedName (name : Text) :
    Legible Text.normalizedName id (fun _ => True) (fun _ => True) name := by
  refine legible_quoted (.inl rfl) Text.spelled_nameChar (fun s s' hbody => ?_) name
  have hdecode (s : Text) : StringLiteral.decode '\'' (s.toList.flatMap Text.nameChar) =
      .ok s.toList := StringLiteral.decode_flatMap (.inl rfl) fun c _ => Text.spelled_nameChar c
  have hsame := hdecode s
  rw [hbody, hdecode s'] at hsame
  exact Text.toList_injective (Except.ok.inj hsame).symm

theorem legible_jsonLiteral (s : Text) :
    Legible Text.jsonLiteral Text.joined (fun _ => True) (fun _ => True) s := by
  have hspelled (c : CodePoint) : StringLiteral.Spelled (fun _ => True) '"' c (Text.jsonChar c) :=
    Text.spelled_jsonChar trivial
  refine legible_quoted (.inr rfl) hspelled (fun s s' hbody => ?_) s
  have hunits := congrArg (StringLiteral.units '"') hbody
  rw [Text.units_jsonChar, Text.units_jsonChar] at hunits
  exact congrArg (Text.ofList ∘ Text.ofUnits) hunits

/-! ### Literals -/

/-- The number that a numeral writes, whatever its length. -/
def Numeral.literal (n : Numeral) : Literal :=
  .number (if n.isInteger then .integer n.integerValue else .double n.decimal.toDouble)

/-- The literal is written by digits. -/
def Literal.isNumeral : Literal → Bool
  | .number (.integer _) => true
  | .number (.double (.finite _ _)) => true
  | _ => false

theorem Literal.scan?_text (literal : Literal) (hproper : literal.Proper) {rest : List CodePoint}
    (hrest : Stops rest) :
    (Numeral.scan? Unicode.isDigit (Numeral.spanDigits Unicode.isDigit)
        (literal.text.toList ++ rest)).map (fun scanned => (scanned.1.literal, scanned.2)) =
      if literal.isNumeral then some (literal, rest) else none := by
  match literal, hproper with
  | .null, _ | .boolean true, _ | .boolean false, _ => rfl
  | .string s, _ =>
    have htext : (Literal.string s).text.toList =
      ('"' : CodePoint) :: s.toList.flatMap Text.jsonChar ++ [('"' : CodePoint)] :=
      Text.toList_ofList
    rw [htext]
    rfl
  | .number (.double (.infinite negative)), _ =>
    have htext : (Literal.number (.double (.infinite negative))).text.toList =
        Numeral.minus negative ++ ("Infinity" : Text).toList :=
          Layout.toList_double_infinite .json negative
    rw [htext]
    cases negative <;> rfl
  | .number (.integer n), _ =>
    have hscan := Numeral.scan?_of_spells (Numeral.spells_ofInteger n) hrest.endsNumber
    change Option.map _ (Numeral.scan? _ _ ((Text.ofInt n).toList ++ rest)) = _
    have hinteger : (Numeral.ofInteger n).isInteger = true := rfl
    rw [hscan]
    simp [Numeral.literal, hinteger, Numeral.integerValue_ofInteger, isNumeral]
  | .number (.double (.finite negative m)), _ =>
    obtain ⟨n, hspells, hinteger, -, hdouble⟩ := Layout.reads_magnitude .json negative m
    have htext : (Literal.number (.double (.finite negative m))).text.toList =
        Numeral.minus negative ++ Layout.json.magnitude m :=
      Layout.toList_double_finite .json negative m
    rw [htext, Numeral.scan?_of_spells hspells hrest.endsNumber]
    simp [Numeral.literal, hinteger, hdouble, isNumeral]

/-- The literal with a fixed text, by its first character. -/
def Literal.ofInitial? : CodePoint → Option Literal
  | 'n' => some .null
  | 't' => some (.boolean true)
  | 'f' => some (.boolean false)
  | 'I' => some (.number (.double (.infinite false)))
  | '-' => some (.number (.double (.infinite true)))
  | _ => none

/-- Of the literals without digits, the strings alone have no fixed text. -/
theorem Literal.ofInitial?_text (literal : Literal) (hproper : literal.Proper)
    (h : literal.isNumeral = false) (rest : List CodePoint) :
    (literal.text.toList ++ rest).head?.bind ofInitial? = some literal ∨
      (literal.text.toList ++ rest).head?.bind ofInitial? = none ∧ ∃ s, literal = .string s := by
  match literal, hproper, h with
  | .null, _, _ | .boolean true, _, _ | .boolean false, _, _ => exact .inl rfl
  | .number (.double (.infinite true)), _, _ => exact .inl rfl
  | .number (.double (.infinite false)), _, _ => exact .inl rfl
  | .string s, _, _ =>
    have htext : (Literal.string s).text.toList =
      ('"' : CodePoint) :: s.toList.flatMap Text.jsonChar ++ [('"' : CodePoint)] :=
      Text.toList_ofList
    rw [htext]
    exact .inr ⟨rfl, s, rfl⟩

theorem Literal.legible (literal : Literal) (hproper : literal.Proper) :
    Legible Literal.text Literal.joined Literal.Proper Stops literal := by
  intro literal' rest rest' hproper' hrest hrest' heq
  have hscan := literal.scan?_text hproper hrest
  have hscan' := literal'.scan?_text hproper' hrest'
  rw [heq, hscan'] at hscan
  cases h : literal.isNumeral <;> cases h' : literal'.isNumeral <;>
    simp only [h, h', if_true, Bool.false_eq_true, if_false, reduceCtorEq] at hscan
  · have hinitial := literal.ofInitial?_text hproper h rest
    rw [heq] at hinitial
    rcases hinitial with hsome | ⟨hnone, s, rfl⟩ <;>
      rcases literal'.ofInitial?_text hproper' h' rest' with hsome' | ⟨hnone', s', rfl⟩
    · obtain rfl := Option.some.inj (hsome.symm.trans hsome')
      exact ⟨rfl, List.append_cancel_left heq⟩
    · cases hnone'.symm.trans hsome
    · cases hnone.symm.trans hsome'
    · obtain ⟨hs, hsame⟩ := legible_jsonLiteral s trivial trivial trivial heq
      exact ⟨congrArg Literal.string hs, hsame⟩
  · obtain ⟨rfl, hsame⟩ := Prod.mk.inj (Option.some.inj hscan)
    exact ⟨rfl, hsame.symm⟩

/-! ### Lists -/

/-- A comma, or what closes the list. -/
def FollowsItem (closing : CodePoint) (rest : List CodePoint) : Prop :=
  ∃ c more, rest = c :: more ∧ (c = ',' ∨ c = closing)

section

variable {α β : Type} {text : α → Text} {written : α → β} {Valid : α → Prop} {closing : CodePoint}

theorem toList_intercalate_cons (item : Text) (items : List Text) :
    (Text.intercalate ", " (item :: items)).toList =
      item.toList ++ items.flatMap ((", " : Text).toList ++ ·.toList) := by
  induction items generalizing item with
  | nil =>
    rw [Text.intercalate_singleton, List.flatMap_nil, List.append_nil]
  | cons next items ih =>
    rw [Text.intercalate_cons_cons, Text.toList_append, Text.toList_append, ih,
      List.flatMap_cons, List.append_assoc, List.append_assoc]

theorem followsItem_items (items : List Text) (rest : List CodePoint) :
    FollowsItem closing (items.flatMap ((", " : Text).toList ++ ·.toList) ++ closing :: rest) := by
  cases items with
  | nil => exact ⟨closing, rest, rfl, .inr rfl⟩
  | cons item items => exact ⟨',', _, rfl, .inl rfl⟩

theorem legible_more_items (hclosing : closing ≠ ',') (as as' : List α)
    (has : ∀ a ∈ as, Legible text written Valid (FollowsItem closing) a)
    (hvalid : ∀ a ∈ as', Valid a) {rest rest' : List CodePoint}
    (heq : (as.map text).flatMap ((", " : Text).toList ++ ·.toList) ++ closing :: rest =
      (as'.map text).flatMap ((", " : Text).toList ++ ·.toList) ++ closing :: rest') :
    as.map written = as'.map written ∧ rest = rest' := by
  induction as generalizing as' with
  | nil =>
    cases as' with
    | nil => exact ⟨rfl, (List.cons.inj heq).2⟩
    | cons => exact absurd (List.cons.inj heq).1 hclosing
  | cons a as ih =>
    cases as' with
    | nil => exact absurd (List.cons.inj heq).1.symm hclosing
    | cons a' as' =>
      obtain ⟨ha, has⟩ := List.forall_mem_cons.1 has
      obtain ⟨hvalid', hvalid⟩ := List.forall_mem_cons.1 hvalid
      simp only [List.map_cons, List.flatMap_cons, List.append_assoc, List.append_cancel_left_eq]
        at heq
      obtain ⟨hhead, hmore⟩ := ha hvalid' (followsItem_items _ _) (followsItem_items _ _) heq
      obtain ⟨htail, hrest⟩ := ih as' has hvalid hmore
      exact ⟨List.cons_eq_cons.2 ⟨hhead, htail⟩, hrest⟩

/-- Items that are legible before a comma and the closing bracket are so as a list. -/
theorem legible_items (hclosing : closing ≠ ',') {as as' : List α} (hne : as ≠ []) (hne' : as' ≠ [])
    (has : ∀ a ∈ as, Legible text written Valid (FollowsItem closing) a)
    (hvalid : ∀ a ∈ as', Valid a) {rest rest' : List CodePoint}
    (heq : (Text.intercalate ", " (as.map text)).toList ++ closing :: rest =
      (Text.intercalate ", " (as'.map text)).toList ++ closing :: rest') :
    as.map written = as'.map written ∧ rest = rest' := by
  obtain ⟨a, more, rfl⟩ := List.exists_cons_of_ne_nil hne
  obtain ⟨a', more', rfl⟩ := List.exists_cons_of_ne_nil hne'
  refine legible_more_items hclosing _ _ has hvalid ?_
  simp only [List.map_cons, toList_intercalate_cons, List.append_assoc] at heq
  simp only [List.map_cons, List.flatMap_cons, List.append_assoc, heq]

end

end JsonPath
