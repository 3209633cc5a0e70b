import JsonPath.Regex.Iregexp

/-!
# The units of a pattern

A pattern is read in units: a backslash with the character after it, a class from bracket to
bracket, or else a single character. The mapping of I-Regexps goes through a pattern character by
character, and comes to a pattern that again has brackets, backslashes and a caret. Read in units,
it does no more than to replace a few of them: what replaces a unit is a unit, wherever it stands.
-/

namespace JsonPath.Regex

/-! ### Reading in units -/

/-- How far a class goes from behind its opening bracket on: through the bracket that closes it, or
to the end. A backslash takes the next character along. -/
def classLength : List CodePoint → Nat
  | [] => 0
  | ']' :: _ => 1
  | '\\' :: _ :: rest => classLength rest + 2
  | _ :: rest => classLength rest + 1

/-- The units of a pattern from left to right. -/
def units : List CodePoint → List (List CodePoint)
  | [] => []
  | '\\' :: c :: rest => ['\\', c] :: units rest
  | '[' :: rest => ('[' :: rest.take (classLength rest)) :: units (rest.drop (classLength rest))
  | c :: rest => [c] :: units rest
termination_by cs => cs.length
decreasing_by all_goals simp only [List.length_cons, List.length_drop]; omega

/-- What stands for a unit of an I-Regexp: a class for a dot, and a character behind a backslash for
what would be an anchor. -/
def replaced : List CodePoint → List CodePoint
  | ['.'] => ("[^\\n\\r]" : Text).toList
  | ['^'] => ['\\', '^']
  | ['$'] => ['\\', '$']
  | unit => unit

/-- A dot, a caret or a dollar sign that is no part of a larger unit. -/
def IsBare (unit : List CodePoint) : Prop :=
  unit = [('.' : CodePoint)] ∨ unit = [('^' : CodePoint)] ∨ unit = [('$' : CodePoint)]

variable {c : CodePoint} {cs unit : List CodePoint}

theorem flatten_units (cs : List CodePoint) : (units cs).flatten = cs := by
  fun_induction units cs with
  | case1 => rfl
  | case2 c rest ih =>
    rw [List.flatten_cons, ih]
    rfl
  | case3 rest ih => rw [List.flatten_cons, ih, List.cons_append, List.take_append_drop]
  | case4 c rest _ _ ih =>
    rw [List.flatten_cons, ih]
    rfl

theorem replaced_of_not_isBare (h : ¬ IsBare unit) : replaced unit = unit := by
  unfold replaced
  split <;> simp_all [IsBare]

theorem not_isBare_replaced (unit : List CodePoint) : ¬ IsBare (replaced unit) := by
  unfold replaced
  split <;> simp_all [IsBare]

/-! ### Single characters

A backslash is a single character only where nothing comes after it.
-/

theorem classLength_cons (hclose : c ≠ ']') (hescape : c = '\\' → cs = []) :
    classLength (c :: cs) = classLength cs + 1 := by
  rw [classLength]
  · exact hclose
  · rintro d rest rfl rfl
    exact absurd (hescape rfl) (List.cons_ne_nil d rest)

theorem units_cons (hopen : c ≠ '[') (hescape : c = '\\' → cs = []) :
    units (c :: cs) = [c] :: units cs := by
  rw [units]
  · rintro d rest rfl rfl
    exact absurd (hescape rfl) (List.cons_ne_nil d rest)
  · exact hopen

theorem insideClass_cons (hclose : c ≠ ']') (hescape : c = '\\' → cs = []) :
    insideClass (c :: cs) = c :: insideClass cs := by
  by_cases hc : c = '\\'
  · rw [hc, hescape hc]
    rfl
  · rw [insideClass]
    · exact fun h => absurd h hc
    · exact fun _ _ h => absurd h hc
    · exact hclose

theorem outsideClass_cons (hopen : c ≠ '[') (hescape : c = '\\' → cs = []) (hbare : ¬ IsBare [c]) :
    outsideClass (c :: cs) = c :: outsideClass cs := by
  by_cases hc : c = '\\'
  · rw [hc, hescape hc]
    rfl
  · rw [outsideClass] <;> simp_all [IsBare]

/-- The condition as the cases of a function by its patterns give it. -/
theorem eq_nil_of_no_escape (h : ∀ d rest, c = '\\' → cs = d :: rest → False) (hc : c = '\\') :
    cs = [] := by
  cases cs with
  | nil => rfl
  | cons d rest => exact (h d rest hc rfl).elim

/-! ### Classes -/

/-- What is inside a class is not mapped. -/
theorem insideClass_eq (cs : List CodePoint) :
    insideClass cs = cs.take (classLength cs) ++ outsideClass (cs.drop (classLength cs)) := by
  fun_induction classLength cs with
  | case1 => rfl
  | case2 rest => simp [insideClass]
  | case3 c rest ih => simp [insideClass, ih]
  | case4 c rest hclose hescape ih =>
    rw [insideClass_cons hclose (eq_nil_of_no_escape hescape), ih]
    rfl

/-- A class that does not go to the end ends at the same bracket whatever comes after it. -/
theorem classLength_take_append (h : cs.drop (classLength cs) ≠ []) (more : List CodePoint) :
    classLength (cs.take (classLength cs) ++ more) = classLength cs := by
  fun_induction classLength cs with
  | case1 => exact absurd rfl h
  | case2 rest => rfl
  | case3 c rest ih =>
    have htake := ih h
    rw [List.take_succ_cons, List.take_succ_cons, List.cons_append, List.cons_append, classLength,
      htake]
  | case4 c rest hclose hescape ih =>
    have htake := ih h
    have hlast : c = '\\' → rest.take (classLength rest) ++ more = [] := by
      intro hc
      rw [eq_nil_of_no_escape hescape hc] at h
      exact absurd rfl h
    rw [List.take_succ_cons, List.cons_append, classLength_cons hclose hlast, htake]

/-- A class stays one unit before what the rest of the pattern is mapped to. -/
theorem units_class (cs : List CodePoint) :
    units (outsideClass ('[' :: cs)) =
      (('[' : CodePoint) :: cs.take (classLength cs)) ::
        units (outsideClass (cs.drop (classLength cs))) := by
  have hmapped : outsideClass ('[' :: cs) =
      ('[' : CodePoint) ::
        (cs.take (classLength cs) ++ outsideClass (cs.drop (classLength cs))) := by
    rw [outsideClass, insideClass_eq]
  by_cases hmore : cs.drop (classLength cs) = []
  · -- The class goes to the end, so all of the pattern is kept.
    have htake : cs.take (classLength cs) = cs :=
      List.take_of_length_le (List.drop_eq_nil_iff.1 hmore)
    have hunits : units ('[' :: cs) = [('[' : CodePoint) :: cs] := by
      rw [units, htake, hmore, units]
    rw [hmapped, hmore, htake, outsideClass, List.append_nil, hunits, units]
  · have hlength := classLength_take_append hmore (outsideClass (cs.drop (classLength cs)))
    have hle : classLength cs ≤ cs.length :=
      Nat.le_of_not_le fun hle => hmore (List.drop_eq_nil_of_le hle)
    have htake : (cs.take (classLength cs)).length = classLength cs := List.length_take_of_le hle
    rw [hmapped, units, hlength, List.take_left' htake, List.drop_left' htake]

/-! ### The mapping -/

theorem units_dotClass (cs : List CodePoint) : units (dotClass ++ cs) = dotClass :: units cs := by
  have hlength : classLength (("^\\n\\r]" : Text).toList ++ cs) = 6 := rfl
  have hdot : dotClass ++ cs = ('[' : CodePoint) :: (("^\\n\\r]" : Text).toList ++ cs) := rfl
  rw [hdot, units, hlength]
  rfl

/-- The units of a pattern are mapped one by one. -/
theorem units_outsideClass (cs : List CodePoint) :
    units (outsideClass cs) = (units cs).map replaced := by
  fun_induction units cs with
  | case1 => rw [outsideClass, units, List.map_nil]
  | case2 c rest ih =>
    rw [outsideClass, units, ih]
    rfl
  | case3 rest ih =>
    rw [units_class, ih]
    rfl
  | case4 c rest hescape hopen ih =>
    have hlast := eq_nil_of_no_escape hescape
    by_cases hbare : IsBare [c]
    · rw [List.map_cons, ← ih]
      rcases hbare with hdot | hcaret | hdollar
      · obtain rfl := List.singleton_inj.1 hdot
        exact units_dotClass (outsideClass rest)
      · obtain rfl := List.singleton_inj.1 hcaret
        rw [outsideClass, units]
        rfl
      · obtain rfl := List.singleton_inj.1 hdollar
        rw [outsideClass, units]
        rfl
    · have hlast' : c = '\\' → outsideClass rest = [] := by
        intro hc
        rw [hlast hc, outsideClass]
      rw [outsideClass_cons hopen hlast hbare, units_cons hopen hlast', ih, List.map_cons,
        replaced_of_not_isBare hbare]

theorem not_isBare_of_mem (h : unit ∈ units (outsideClass cs)) : ¬ IsBare unit := by
  rw [units_outsideClass] at h
  obtain ⟨unit, -, rfl⟩ := List.mem_map.1 h
  exact not_isBare_replaced unit

theorem outsideClass_outsideClass (cs : List CodePoint) :
    outsideClass (outsideClass cs) = outsideClass cs := by
  have hunits : units (outsideClass (outsideClass cs)) = units (outsideClass cs) :=
    calc units (outsideClass (outsideClass cs))
        = (units (outsideClass cs)).map replaced := units_outsideClass _
      _ = (units (outsideClass cs)).map id :=
          List.map_congr_left fun _ hunit => replaced_of_not_isBare (not_isBare_of_mem hunit)
      _ = units (outsideClass cs) := List.map_id _
  rw [← flatten_units (outsideClass (outsideClass cs)), hunits, flatten_units]

/-- **Units are mapped one by one.** A pattern consists of its units, and what it is mapped to has
as many units in the same order: a class for each dot, a character behind a backslash for each caret
and dollar sign, and every other unit as it was. So no bare dot, caret or dollar sign is left,
nothing in a class or behind a backslash changes, and mapping the pattern again changes nothing. -/
theorem units_ofIregexp (pattern : Text) :
    (units pattern.toList).flatten = pattern.toList ∧
    units (ofIregexp pattern).toList = (units pattern.toList).map replaced ∧
    (∀ unit ∈ units (ofIregexp pattern).toList, ¬ IsBare unit) ∧
    (∀ unit ∈ units pattern.toList, unit.head? = some '\\' ∨ unit.head? = some '[' →
      replaced unit = unit) ∧
    ofIregexp (ofIregexp pattern) = ofIregexp pattern := by
  have hmapped : (ofIregexp pattern).toList = outsideClass pattern.toList := Text.toList_ofList
  refine ⟨flatten_units _, ?_, ?_, ?_, ?_⟩
  · rw [hmapped]
    exact units_outsideClass _
  · rw [hmapped]
    exact fun unit => not_isBare_of_mem
  · intro unit _ hhead
    apply replaced_of_not_isBare
    rintro (rfl | rfl | rfl) <;> simp at hhead
  · change Text.ofList (outsideClass (ofIregexp pattern).toList) = ofIregexp pattern
    rw [hmapped, outsideClass_outsideClass]
    rfl

/-- An escaped bracket does not close a class, and a class that is not closed takes all the rest. -/
example : ofIregexp "^[.\\].].\\.[$." = "\\^[.\\].][^\\n\\r]\\.[$." := by decide

end JsonPath.Regex
