import JsonPath.Proofs.Parser.Grammar
import JsonPath.Proofs.Parser.Steps

/-!
# The leaves of the parser

The readers of numbers and the static checks, in the terms of the grammar. A number is read from a
token whose text is known to be a numeral, as the tokens of the lexer are.
-/

namespace JsonPath

namespace Parser

variable {dialect : Dialect} {token : Token} {n : Numeral}

theorem readNumeral_eq_ok_iff {α : Type} {x : Except NumeralFault α} {a : α} :
    readNumeral x = .ok a ↔ x = .ok a := by
  cases x <;> simp [readNumeral]

theorem check_eq_ok_iff {α : Type} {p : Prop} [Decidable p] {fault : QueryFault}
    {x : Except CompileError α} {a : α} :
    (if p then fail fault token >>= fun _ : PUnit => x else x) = .ok a ↔ ¬ p ∧ x = .ok a := by
  split <;> simp_all [fail, bind, Except.bind]

theorem index_eq_ok_iff (h : n.Spells token.text.toList) (hinteger : n.isInteger) {i : Int} :
    index dialect token = .ok i ↔ hasIdleZero token.text.toList = false ∧
      n.whole.length ≤ longestInteger ∧ n.integerValue = i ∧
        dialect.leastIndex ≤ i ∧ i ≤ dialect.greatestIndex := by
  have hread (j : Int) := Numeral.readInteger_eq_ok_iff h hinteger (i := j)
  have hbounds (j : Int) : (if dialect.leastIndex ≤ j ∧ j ≤ dialect.greatestIndex then pure j
      else fail (.indexOutOfRange token.text) token) = .ok i ↔
      (dialect.leastIndex ≤ j ∧ j ≤ dialect.greatestIndex) ∧ j = i := by
    split
    next hin => simp [hin, pure, Except.pure]
    next hout => simp only [fail, reduceCtorEq, hout, false_and]
  refine Iff.trans check_eq_ok_iff ?_
  simp only [bind_eq_ok_iff, readNumeral_eq_ok_iff, hread, hbounds, Bool.not_eq_true]
  refine and_congr_right fun _ => ⟨?_, ?_⟩
  · rintro ⟨_, ⟨hlength, rfl⟩, hin, rfl⟩
    exact ⟨hlength, rfl, hin⟩
  · rintro ⟨hlength, rfl, hin⟩
    exact ⟨_, ⟨hlength, rfl⟩, hin, rfl⟩

theorem number_eq_ok_iff_of_integer (h : n.Spells token.text.toList) (hinteger : n.isInteger)
    (hkind : token.kind = .integer) {number : Number} :
    Parser.number token = .ok number ↔ hasLeadingZero token.text.toList = false ∧
      n.whole.length ≤ longestInteger ∧ .integer n.integerValue = number := by
  have hread (j : Int) := Numeral.readInteger_eq_ok_iff h hinteger (i := j)
  unfold Parser.number
  simp only [if_pos hkind]
  refine Iff.trans check_eq_ok_iff ?_
  simp only [bind_eq_ok_iff, readNumeral_eq_ok_iff, hread, Bool.not_eq_true]
  refine and_congr_right fun _ => ⟨?_, ?_⟩
  · rintro ⟨_, ⟨hlength, rfl⟩, hnumber⟩
    exact ⟨hlength, Except.ok.inj hnumber⟩
  · rintro ⟨hlength, rfl⟩
    exact ⟨_, ⟨hlength, rfl⟩, rfl⟩

theorem number_eq_ok_iff_of_decimal (h : n.Spells token.text.toList)
    (hkind : token.kind = .decimal) {number : Number} :
    Parser.number token = .ok number ↔ hasLeadingZero token.text.toList = false ∧
      .double n.decimal.toDouble = number := by
  have hne : token.kind ≠ .integer := by simp [hkind]
  unfold Parser.number
  simp only [if_neg hne]
  refine Iff.trans check_eq_ok_iff ?_
  rw [Numeral.readDouble_of_spells h, Bool.not_eq_true]
  refine and_congr_right fun _ => ?_
  simp [readNumeral, bind, Except.bind, pure, Except.pure]

end Parser

/-! ### Static checks -/

theorem Expr.checkTest_eq_ok_iff {signatures : Signatures} {e : Expr} :
    e.checkTest signatures = .ok () ↔ ¬ e.IsLiteral ∧ Grammar.IsTest signatures e := by
  unfold Expr.checkTest Expr.IsLiteral Grammar.IsTest
  cases e <;> simp [Expr.resultType?]

theorem Expr.checkComparable_eq_ok_iff {signatures : Signatures} {e : Expr} :
    e.checkComparable signatures = .ok () ↔
      e.IsLiteral ∨ e.isSingularQuery = true ∨ e.resultType? signatures = some .value := by
  unfold Expr.checkComparable Expr.IsLiteral
  cases e <;> simp [Expr.resultType?, Expr.isSingularQuery]

theorem misfit?_eq_none_iff {signatures : Signatures} {given : List Expr}
    {parameters : List ExprType} (hlength : given.length = parameters.length) (place : Nat) :
    misfit? signatures place given parameters = none ↔
      List.Forall₂ (fun argument parameter => argument.fits signatures parameter = true) given
        parameters := by
  induction given generalizing parameters place with
  | nil =>
    obtain rfl := List.length_eq_zero_iff.1 hlength.symm
    simp [misfit?]
  | cons argument given ih =>
    cases parameters with
    | nil => cases hlength
    | cons parameter parameters =>
      rw [misfit?, List.forall₂_cons]
      split
      next hfits => simp [hfits, ih (Nat.succ.inj hlength)]
      next hfits => simp [hfits]

theorem checkCall_eq_ok_iff {signatures : Signatures} {token : Token} {name : Text}
    {given : List Expr} :
    checkCall signatures token name given = .ok () ↔ Grammar.Declared signatures name given := by
  unfold checkCall Grammar.Declared
  cases signatures name with
  | none => simp
  | some signature =>
    simp only [Option.some.injEq, exists_eq_left']
    split
    next hlength =>
      rw [← misfit?_eq_none_iff hlength 1]
      split <;> simp_all
    next hlength =>
      simp only [reduceCtorEq, false_iff]
      exact fun hall => hlength hall.length_eq

end JsonPath
