import Mathlib
import JsonPath.Proofs.Extension.Rules

/-!
# The patterns in a cache

A function that tests strings against patterns looks a pattern up in its cache, compiles it if it is
not there, and stores it only if that succeeds. Either way the pattern becomes the one that was used
last, so after any calls the cache holds as many of the patterns that could be compiled as it has
room for, and which they are depends on the latest call for each. All other calls leave no trace.
-/

namespace JsonPath

/-! ### The latest occurrences in a list -/

section Lists

variable {α : Type} [DecidableEq α]

theorem dedup_concat (as : List α) (a : α) : (as ++ [a]).dedup = as.dedup.erase a ++ [a] := by
  induction as with
  | nil => rfl
  | cons b as ih =>
    rw [List.cons_append]
    by_cases hb : b ∈ as
    · rw [List.dedup_cons_of_mem (List.mem_append_left _ hb), List.dedup_cons_of_mem hb, ih]
    rw [List.dedup_cons_of_notMem hb]
    by_cases hba : b = a
    · subst hba
      have hdedup : b ∉ as.dedup := mt List.mem_dedup.1 hb
      rw [List.dedup_cons_of_mem (by simp), ih, List.erase_cons_head, List.erase_of_not_mem hdedup]
    · rw [List.dedup_cons_of_notMem (by simp [hb, hba]), ih,
        List.erase_cons_tail (by simpa using hba), List.cons_append]

/-- What is added at the end of a list comes to the front of its latest occurrences. -/
theorem reverse_dedup_concat (as : List α) (a : α) :
    (as ++ [a]).dedup.reverse = toFront a as.dedup.reverse := by
  have hnodup := as.nodup_dedup
  rw [dedup_concat, List.reverse_append, toFront, hnodup.erase_eq_filter,
    (List.nodup_reverse.2 hnodup).erase_eq_filter, List.filter_reverse]
  rfl

end Lists

/-- The cache holds as many of the patterns as it has room for, by their latest occurrences, and
under each pattern what it is compiled to. -/
structure Cache.Recalls (compile : Text → Except PatternError Regex)
    (cache : Cache Text Regex) (patterns : List Text) : Prop where
  sound : cache.Holds fun pattern regex => compile (Regex.ofIregexp pattern) = .ok regex
  recency : cache.recency = patterns.dedup.reverse.take cache.capacity

namespace Cache.Recalls

variable {compile : Text → Except PatternError Regex} {cache : Cache Text Regex}
  {patterns : List Text} {pattern : Text} {regex : Regex}

theorem wellFormed (h : cache.Recalls compile patterns) : cache.WellFormed :=
  .of_recency_eq (List.nodup_reverse.2 patterns.nodup_dedup) h.recency

theorem take_toFront (h : cache.Recalls compile patterns) (pattern : Text) :
    (toFront pattern cache.recency).take cache.capacity =
      (patterns ++ [pattern]).dedup.reverse.take cache.capacity := by
  rw [h.recency, take_toFront_take, reverse_dedup_concat]

theorem touch (h : cache.Recalls compile patterns) (hget : cache.get? pattern = some regex) :
    (cache.touch pattern).Recalls compile (patterns ++ [pattern]) where
  sound := h.sound.touch
  recency := by
    have hmem : pattern ∈ cache.recency := get?_isSome.1 (by rw [hget]; rfl)
    have hlength := length_toFront_of_mem hmem ▸ h.wellFormed.length_le
    rw [recency_touch h.wellFormed hmem, capacity_touch, ← h.take_toFront,
      List.take_of_length_le hlength]

theorem put (h : cache.Recalls compile patterns)
    (hregex : compile (Regex.ofIregexp pattern) = .ok regex) :
    (cache.put pattern regex).Recalls compile (patterns ++ [pattern]) where
  sound := h.sound.put hregex
  recency := by rw [recency_put h.wellFormed, capacity_put, h.take_toFront]

theorem keys_eq (h : cache.Recalls compile patterns) :
    cache.keys = patterns.dedup.rtake cache.capacity := by
  rw [List.rtake_eq_reverse_take_reverse, ← h.recency, Cache.recency, List.reverse_reverse]

end Cache.Recalls

/-! ### Calls -/

/-- The pattern of a call with two strings, if it can be compiled. -/
def acceptedPattern? (compile : Text → Except PatternError Regex) : List Operand → Option Text
  | [.value (.string _), .value (.string pattern)] =>
    if (compile (Regex.ofIregexp pattern)).isOk then some pattern else none
  | _ => none

namespace PatternTester

variable {tester : PatternTester} {patterns : List Text} {given : List Operand}

/-- A pattern that can be compiled becomes the latest, whether it was in the cache or not. -/
theorem recalls_run (h : tester.cache.Recalls tester.compile patterns)
    (label text : Text) {pattern : Text}
    {regex : Regex} (hregex : tester.compileIregexp pattern = .ok regex) :
    ∃ cache : Cache Text Regex, (tester.run label text pattern).after = { tester with cache } ∧
      cache.capacity = tester.cache.capacity ∧
        cache.Recalls tester.compile (patterns ++ [pattern]) := by
  unfold run
  split
  next hget => exact ⟨_, rfl, Cache.capacity_touch .., h.touch hget⟩
  next =>
    rw [hregex]
    exact ⟨_, rfl, Cache.capacity_put .., h.put hregex⟩

/-- A pattern that cannot be compiled is not in the cache, and does not come into it. -/
theorem run_after_of_error (h : tester.Sound) (label text : Text) {pattern : Text}
    {error : PatternError} (herror : tester.compileIregexp pattern = .error error) :
    (tester.run label text pattern).after = tester := by
  unfold run
  split
  next hget => cases herror.symm.trans (h.get? hget)
  next =>
    rw [herror]
    dsimp only
    rw [apply_ite CallOutcome.after, ite_self]

theorem call_after_of_acceptedPattern?_eq_none (h : tester.Sound) (label : Text)
    (hgiven : acceptedPattern? tester.compile given = none) :
    (tester.call label given).after = tester := by
  unfold call
  split
  next text pattern =>
    cases hregex : tester.compileIregexp pattern with
    | ok regex =>
      rw [PatternTester.compileIregexp] at hregex
      simp [acceptedPattern?, hregex, Except.isOk, Except.toBool] at hgiven
    | error error => exact run_after_of_error h label text hregex
  · rfl
  · rfl

/-- What one call does to the cache. -/
theorem recalls_call (h : tester.cache.Recalls tester.compile patterns) (label : Text)
    (given : List Operand) :
    ∃ cache : Cache Text Regex, (tester.call label given).after = { tester with cache } ∧
      cache.capacity = tester.cache.capacity ∧
        cache.Recalls tester.compile
          (patterns ++ (acceptedPattern? tester.compile given).toList) := by
  cases hgiven : acceptedPattern? tester.compile given with
  | none =>
    refine ⟨tester.cache, call_after_of_acceptedPattern?_eq_none h.sound label hgiven, rfl, ?_⟩
    rwa [Option.toList_none, List.append_nil]
  | some pattern =>
    unfold acceptedPattern? at hgiven
    split at hgiven
    next text _ =>
      obtain ⟨hok, ⟨⟩⟩ := Option.ite_none_right_eq_some.1 hgiven
      cases hregex : tester.compileIregexp pattern with
      | ok regex => exact recalls_run h label text hregex
      | error error =>
        rw [PatternTester.compileIregexp] at hregex
        rw [hregex] at hok
        cases hok
    · cases hgiven

end PatternTester

namespace Extension

variable {label : Text} {test : PatternTest} {settings : PatternSettings}

/-- A test against patterns after calls, which have changed its cache and nothing else. -/
theorem recalls_afterCalls (label : Text) (test : PatternTest) (settings : PatternSettings)
    (calls : List (List Operand)) :
    ∃ cache : Cache Text Regex,
      (patternTest label test settings).afterCalls calls =
        { patternTest label test settings with
          behaviour := .pattern ⟨test, settings.strict, settings.compile, cache⟩ } ∧
      cache.capacity = settings.cacheSize ∧
        cache.Recalls settings.compile (calls.filterMap (acceptedPattern? settings.compile)) := by
  induction calls using List.reverseRecOn with
  | nil => exact ⟨.empty settings.cacheSize, rfl, rfl, nofun, List.take_nil.symm⟩
  | append_singleton calls given ih =>
    obtain ⟨cache, hafter, hcapacity, hrecalls⟩ := ih
    let tester : PatternTester := ⟨test, settings.strict, settings.compile, cache⟩
    have hrecalls : tester.cache.Recalls tester.compile _ := hrecalls
    obtain ⟨cache', hcall, hcapacity', hrecalls'⟩ := PatternTester.recalls_call hrecalls label given
    refine ⟨cache', ?_, hcapacity'.trans hcapacity, ?_⟩
    · unfold afterCalls at hafter ⊢
      rw [List.foldl_append, hafter]
      change Extension.mk _ _ (.pattern (PatternTester.call label given _).after) = _
      rw [hcall]
    · have hmap : [given].filterMap (acceptedPattern? settings.compile) =
          (acceptedPattern? settings.compile given).toList := by
        cases h : acceptedPattern? settings.compile given <;> simp [h]
      rwa [List.filterMap_append, hmap]

/-- **The last patterns that could be compiled.** Whatever compiles the patterns of a test, whatever
calls it has answered, and whether or not it is strict, its cache has, by the latest call for each
of them, the last of the patterns that were given with a string and could be compiled, as many as
there is room for, and the least recently used first. Each is stored with what it is compiled to. A
call with anything but two strings, or with a pattern that cannot be compiled, changes nothing. -/
theorem cache_afterCalls (label : Text) (test : PatternTest) (settings : PatternSettings)
    (calls : List (List Operand)) :
    let extension := (patternTest label test settings).afterCalls calls
    ∃ cache : Cache Text Regex, extension.cache? = some cache ∧
      cache.keys =
        (calls.filterMap (acceptedPattern? settings.compile)).dedup.rtake settings.cacheSize ∧
      (∀ entry ∈ cache.entries, settings.compile (Regex.ofIregexp entry.1) = .ok entry.2) ∧
      ∀ given, acceptedPattern? settings.compile given = none →
        (extension.call given).after = extension := by
  intro extension
  obtain ⟨cache, hafter, hcapacity, hrecalls⟩ := recalls_afterCalls label test settings calls
  have hextension : extension = _ := hafter
  refine ⟨cache, by rw [hextension]; rfl, hcapacity ▸ hrecalls.keys_eq, hrecalls.sound, ?_⟩
  intro given hgiven
  rw [hextension]
  let tester : PatternTester := ⟨test, settings.strict, settings.compile, cache⟩
  have hsound : tester.cache.Holds _ := hrecalls.sound
  have hcall := PatternTester.call_after_of_acceptedPattern?_eq_none hsound label hgiven
  exact congrArg (fun tester => Extension.mk _ _ (.pattern tester)) hcall

/-- With room for two, the second of three patterns gives way, since the first has been used again.
What is no pattern leaves no trace, strict as the function is. -/
theorem cache_afterCalls_evicted :
    let compile := Regex.ofPattern .none
    let call (pattern : Text) : List Operand := [.value (.string "x"), .value (.string pattern)]
    let calls := [call "a", call "b", call "a", call "(", call "c.", [.value .null, .value .null]]
    let extension := (matchTest ⟨2, true, compile⟩).afterCalls calls
    ∃ cache : Cache Text Regex, extension.cache? = some cache ∧ cache.keys = ["a", "c."] ∧
      (∀ entry ∈ cache.entries, compile (Regex.ofIregexp entry.1) = .ok entry.2) ∧
      acceptedPattern? compile (call "(") = none ∧
      (extension.call (call "(")).after = extension := by
  have ha : (Regex.ofPattern .none (Regex.ofIregexp "a")).isOk = true := by cbv
  have hb : (Regex.ofPattern .none (Regex.ofIregexp "b")).isOk = true := by cbv
  have hc : (Regex.ofPattern .none (Regex.ofIregexp "c.")).isOk = true := by cbv
  have hopen : (Regex.ofPattern .none (Regex.ofIregexp "(")).isOk = false := by cbv
  intro compile call calls extension
  have hpatterns : calls.filterMap (acceptedPattern? compile) = ["a", "b", "a", "c."] := by
    simp [calls, call, compile, acceptedPattern?, ha, hb, hc, hopen]
  have hrefused : acceptedPattern? compile (call "(") = none := by
    simp [call, compile, acceptedPattern?, hopen]
  obtain ⟨cache, hcache, hkeys, hentries, hrest⟩ :=
    cache_afterCalls "Match" .whole ⟨2, true, compile⟩ calls
  rw [hpatterns] at hkeys
  exact ⟨cache, hcache, hkeys, hentries, hrefused, hrest _ hrefused⟩

end Extension

end JsonPath
