import JsonPath.Proofs.Cache.Recency
import JsonPath.Proofs.Evaluation.Registered

/-!
# Functions as rules

What a function does apart from its cache is a rule: a signature, and a result for each list of
arguments. A function that tests patterns goes by its rule as long as its cache holds under each
pattern what the pattern is compiled to, and calls leave the cache so.
-/

namespace JsonPath

/-- A signature, and what arguments come to. -/
structure Rule where
  signature : Signature
  apply : List Operand → Except Fault Operand

abbrev Rules := Text → Option Rule

/-- What the function does to arguments now. -/
def Extension.rule (extension : Extension) : Rule :=
  ⟨extension.signature, fun given => (extension.call given).result⟩

def Registry.rules (registry : Registry) : Rules := fun name =>
  (registry.find? name).map Extension.rule

/-- A way in which functions go by rules that calls do not end. -/
structure Lasting (P : Rule → Extension → Prop) : Prop where
  rule : ∀ {rule : Rule} {extension : Extension}, P rule extension → extension.rule = rule
  after : ∀ {rule : Rule} {extension : Extension}, P rule extension →
    ∀ given, P rule (extension.call given).after

/-! ### Functions that depend on their arguments only -/

namespace Extension

/-- Earlier calls do not change what a call comes to. -/
def DependsOnArguments (extension : Extension) : Prop :=
  ∀ (calls : List (List Operand)) (given : List Operand),
    ((extension.afterCalls calls).call given).result = (extension.call given).result

theorem DependsOnArguments.rule_after {extension : Extension} (h : extension.DependsOnArguments)
    (given : List Operand) : (extension.call given).after.rule = extension.rule := by
  have hresult : ∀ given', ((extension.call given).after.call given').result =
      (extension.call given').result := h [given]
  unfold rule
  rw [signature_after_call, funext hresult]

theorem DependsOnArguments.lasting :
    Lasting fun rule extension => extension.rule = rule ∧ extension.DependsOnArguments where
  rule h := h.1
  after := by
    rintro rule extension ⟨rfl, h⟩ given
    refine ⟨h.rule_after given, fun calls given' => ?_⟩
    calc (((extension.call given).after.afterCalls calls).call given').result
      _ = (extension.call given').result := h (given :: calls) given'
      _ = ((extension.call given).after.call given').result := (h [given] given').symm

end Extension

/-! ### Functions that test patterns -/

namespace PatternTester

variable {tester : PatternTester}

/-- The cache holds under each pattern what the pattern is compiled to. -/
def Sound (tester : PatternTester) : Prop :=
  tester.cache.Holds fun pattern regex => tester.compileIregexp pattern = .ok regex

def renewed (size : Nat) (tester : PatternTester) : PatternTester :=
  { tester with cache := .empty size }

theorem sound_renewed (size : Nat) : (tester.renewed size).Sound := by
  intro entry hentry
  cases hentry

theorem Sound.run_result (h : tester.Sound) (size : Nat) (label text pattern : Text) :
    (tester.run label text pattern).result =
      ((tester.renewed size).run label text pattern).result := by
  have hnone : (tester.renewed size).cache.get? pattern = none := rfl
  have hcompile : (tester.renewed size).compileIregexp pattern = tester.compileIregexp pattern :=
    rfl
  unfold run
  rw [hnone, hcompile]
  cases hget : tester.cache.get? pattern with
  | some regex =>
    dsimp only
    rw [h.get? hget]
    rfl
  | none =>
    cases tester.compileIregexp pattern with
    | ok regex => rfl
    | error error =>
      obtain ⟨test, strict, compile, cache⟩ := tester
      cases strict <;> cases error <;> rfl

theorem Sound.run_after (h : tester.Sound) (label text pattern : Text) :
    (tester.run label text pattern).after.Sound ∧
      ∃ cache, (tester.run label text pattern).after = { tester with cache } := by
  unfold run
  split
  · exact ⟨Cache.Holds.touch h, _, rfl⟩
  · split
    -- The cache is only given what the pattern has just been compiled to.
    next regex hregex => exact ⟨Cache.Holds.put h hregex, _, rfl⟩
    next => split <;> split <;> exact ⟨h, _, rfl⟩

theorem Sound.call_result (h : tester.Sound) (size : Nat) (label : Text) (given : List Operand) :
    (tester.call label given).result = ((tester.renewed size).call label given).result := by
  unfold call
  split
  · exact h.run_result size label _ _
  · rfl
  · rfl

theorem Sound.call_after (h : tester.Sound) (label : Text) (given : List Operand) :
    (tester.call label given).after.Sound ∧
      ∃ cache, (tester.call label given).after = { tester with cache } := by
  unfold call
  split
  · exact h.run_after label _ _
  · exact ⟨h, _, rfl⟩
  · exact ⟨h, _, rfl⟩

end PatternTester

namespace Extension

/-- If the function tests patterns, its cache is sound. -/
def Sound (extension : Extension) : Prop :=
  match extension.behaviour with
  | .plain _ => True
  | .pattern tester => tester.Sound

/-- The function with an empty cache of a size. -/
def renewed (size : Nat) (extension : Extension) : Extension :=
  match extension.behaviour with
  | .plain _ => extension
  | .pattern tester => { extension with behaviour := .pattern (tester.renewed size) }

variable {extension : Extension}

theorem sound_renewed (size : Nat) : (extension.renewed size).Sound := by
  unfold renewed
  split
  next h =>
    unfold Sound
    rw [h]
    trivial
  next tester _ => exact tester.sound_renewed size

/-- A sound cache can be emptied, and its size changed, with no effect on what calls come to. -/
theorem Sound.rule_renewed (h : extension.Sound) (size : Nat) :
    (extension.renewed size).rule = extension.rule := by
  obtain ⟨label, signature, behaviour⟩ := extension
  cases behaviour with
  | plain apply => rfl
  | pattern tester =>
    have hcall : ∀ given, (tester.call label given).result =
        ((tester.renewed size).call label given).result := h.call_result size label
    exact congrArg (Rule.mk signature) (funext fun given => (hcall given).symm)

/-- Calls leave the cache sound, and a function that differs in its cache only. -/
theorem Sound.after (h : extension.Sound) (given : List Operand) :
    (extension.call given).after.Sound ∧
      (extension.call given).after.renewed 0 = extension.renewed 0 := by
  obtain ⟨label, signature, behaviour⟩ := extension
  cases behaviour with
  | plain apply => exact ⟨trivial, rfl⟩
  | pattern tester =>
    obtain ⟨hsound, cache, hafter⟩ := PatternTester.Sound.call_after h label given
    refine ⟨hsound, ?_⟩
    change Extension.mk label signature (.pattern ((tester.call label given).after.renewed 0)) = _
    rw [hafter]
    rfl

theorem Sound.rule_after (h : extension.Sound) (given : List Operand) :
    (extension.call given).after.rule = extension.rule := by
  obtain ⟨hsound, hrenewed⟩ := h.after given
  rw [← hsound.rule_renewed 0, hrenewed, h.rule_renewed 0]

theorem Sound.lasting : Lasting fun rule extension => extension.rule = rule ∧ extension.Sound where
  rule h := h.1
  after := by
    rintro rule extension ⟨rfl, h⟩ given
    exact ⟨h.rule_after given, (h.after given).1⟩

theorem Sound.clearCache (h : extension.Sound) :
    extension.clearCache.Sound ∧ extension.clearCache.rule = extension.rule := by
  obtain ⟨label, signature, behaviour⟩ := extension
  cases behaviour with
  | plain apply => exact ⟨trivial, rfl⟩
  | pattern tester => exact ⟨tester.sound_renewed tester.cache.capacity, h.rule_renewed _⟩

theorem Sound.dependsOnArguments (h : extension.Sound) : extension.DependsOnArguments := by
  intro calls given
  induction calls generalizing extension with
  | nil => rfl
  | cons first rest ih =>
    have hrule := congrFun (congrArg Rule.apply (h.rule_after first)) given
    exact (ih (h.after first).1).trans hrule

theorem sound_of_standard {settings : PatternSettings} {name : Text}
    (h : Registry.find? name (standard settings) = some extension) : extension.Sound := by
  obtain ⟨entry, hfind, rfl⟩ := Option.map_eq_some_iff.1 h
  have hmem := List.mem_of_find?_eq_some hfind
  simp only [standard, List.mem_cons, List.not_mem_nil, or_false] at hmem
  have hempty (test : PatternTest) :
      PatternTester.Sound ⟨test, settings.strict, settings.compile, .empty settings.cacheSize⟩ :=
    @PatternTester.sound_renewed ⟨test, settings.strict, settings.compile,
      .empty 0⟩ settings.cacheSize
  rcases hmem with rfl | rfl | rfl | rfl | rfl
  · trivial
  · trivial
  · trivial
  · exact hempty _
  · exact hempty _

end Extension

end JsonPath
