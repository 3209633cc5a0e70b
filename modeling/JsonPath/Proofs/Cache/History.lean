import JsonPath.Proofs.Cache.Recency
import Mathlib.Data.Finset.Card

/-!
# Histories of a cache

A cache is used in the order in which its operations come, and whether a lookup is a use depends on
what it holds by then. What a history comes to is a list of the keys that were put since the cache
was last cleared, in the order of their last uses, and the cache holds as much of the front of that
list as it has room for. A history lists the latest operation first.
-/

namespace JsonPath

namespace Cache

/-- What can be asked of a cache. -/
inductive Operation (κ α : Type) where
  | put (key : κ) (value : α)
  | get (key : κ) (default : α)
  | contains (key : κ)
  | size
  | keys
  | clear

inductive Answer (κ α : Type) where
  | done
  | value (value : α)
  | truth (b : Bool)
  | count (n : Nat)
  | keys (keys : List κ)
deriving DecidableEq

variable {κ α : Type} {cache : Cache κ α} {op : Operation κ α} {history : List (Operation κ α)}
  {capacity : Nat} {key : κ}

def Operation.isClear : Operation κ α → Bool
  | clear => true
  | _ => false

/-- What was put since the last clear, the latest first. -/
def puts : List (Operation κ α) → List (κ × α)
  | [] => []
  | .put key value :: earlier => (key, value) :: puts earlier
  | .clear :: _ => []
  | _ :: earlier => puts earlier

def putKeys (history : List (Operation κ α)) : List κ := (puts history).map Prod.fst

variable [DecidableEq κ]

/-- What the operation answers, and the cache afterwards. -/
def perform (cache : Cache κ α) : Operation κ α → Answer κ α × Cache κ α
  | .put key value => (.done, cache.put key value)
  | .get key default => (.value ((cache.get? key).getD default), cache.touch key)
  | .contains key => (.truth (cache.contains key), cache)
  | .size => (.count cache.size, cache)
  | .keys => (.keys cache.keys, cache)
  | .clear => (.done, cache.clear)

/-- A new cache after a history. -/
def after (capacity : Nat) : List (Operation κ α) → Cache κ α
  | [] => empty capacity
  | op :: earlier => ((after capacity earlier).perform op).2

/-- The key that the operation uses: one that is put, or one that is asked for and found. -/
def used? (cache : Cache κ α) : Operation κ α → Option κ
  | .put key _ => some key
  | .get key _ => if cache.contains key then some key else none
  | _ => none

/-- The keys as they were used, the latest use first. -/
def uses (capacity : Nat) : List (Operation κ α) → List κ
  | [] => []
  | op :: earlier => ((after capacity earlier).used? op).toList ++ uses capacity earlier

/-- How many uses have come after the last use of the key. -/
def age (capacity : Nat) (history : List (Operation κ α)) (key : κ) : Nat :=
  (uses capacity history).idxOf key

/-- What the operation makes of keys that are listed in the order of use. -/
def reorder (cache : Cache κ α) (op : Operation κ α) (keys : List κ) : List κ :=
  if op.isClear then [] else
    match cache.used? op with
    | some key => toFront key keys
    | none => keys

/-- The keys that were put since the last clear, the latest used first. -/
def ranking (capacity : Nat) : List (Operation κ α) → List κ
  | [] => []
  | op :: earlier => (after capacity earlier).reorder op (ranking capacity earlier)

/-! ### One operation -/

theorem capacity_perform (cache : Cache κ α) (op : Operation κ α) :
    (cache.perform op).2.capacity = cache.capacity := by
  cases op with
  | put key value => exact capacity_put key value cache
  | get key => exact capacity_touch key cache
  | contains | size | keys | clear => rfl

theorem take_reorder_take (cache : Cache κ α) (op : Operation κ α) (keys : List κ) (n : Nat) :
    (cache.reorder op (keys.take n)).take n = (cache.reorder op keys).take n := by
  unfold reorder
  split
  · rfl
  · split
    · exact take_toFront_take _ keys n
    · rw [List.take_take, Nat.min_self]

theorem nodup_reorder {keys : List κ} (h : keys.Nodup) : (cache.reorder op keys).Nodup := by
  unfold reorder
  split
  · exact List.nodup_nil
  · split
    · exact nodup_toFront h
    · exact h

theorem reorder_get_of_mem (h : key ∈ cache.recency) (default : α) (keys : List κ) :
    cache.reorder (.get key default) keys = toFront key keys := by
  rw [reorder, used?, if_pos (contains_iff.2 h)]
  rfl

theorem reorder_get_of_notMem (h : key ∉ cache.recency) (default : α) (keys : List κ) :
    cache.reorder (.get key default) keys = keys := by
  rw [reorder, used?, if_neg (mt contains_iff.1 h)]
  rfl

theorem recency_perform (h : cache.WellFormed) (op : Operation κ α) :
    (cache.perform op).2.recency = (cache.reorder op cache.recency).take cache.capacity := by
  have hsame : cache.recency = cache.recency.take cache.capacity :=
    (List.take_of_length_le h.length_le).symm
  cases op with
  | put key value => exact recency_put h key value
  | get key default =>
    by_cases hmem : key ∈ cache.recency
    · rw [reorder_get_of_mem hmem,
        List.take_of_length_le (length_toFront_of_mem hmem ▸ h.length_le)]
      exact recency_touch h hmem
    · rw [reorder_get_of_notMem hmem, ← hsame]
      exact congrArg recency (touch_of_notMem hmem)
  | contains | size | keys => exact hsame
  | clear => exact List.take_nil.symm

/-! ### A whole history -/

theorem capacity_after (capacity : Nat) (history : List (Operation κ α)) :
    (after capacity history).capacity = capacity := by
  induction history with
  | nil => rfl
  | cons op earlier ih => exact (capacity_perform _ op).trans ih

theorem nodup_ranking (capacity : Nat) (history : List (Operation κ α)) :
    (ranking capacity history).Nodup := by
  induction history with
  | nil => exact List.nodup_nil
  | cons op earlier ih => exact nodup_reorder ih

/-- The cache holds the front of the ranking. -/
theorem recency_after (capacity : Nat) (history : List (Operation κ α)) :
    (after capacity history).recency = (ranking capacity history).take capacity := by
  induction history with
  | nil => exact List.take_nil.symm
  | cons op earlier ih =>
    have hcapacity := capacity_after capacity earlier
    have hformed : (after capacity earlier).WellFormed :=
      .of_recency_eq (nodup_ranking capacity earlier) (by rw [ih, hcapacity])
    -- The ranking is cut off once, after the operation, whether or not it was before.
    rw [after, recency_perform hformed, hcapacity, ih, take_reorder_take]
    rfl

theorem wellFormed_after (capacity : Nat) (history : List (Operation κ α)) :
    (after capacity history).WellFormed :=
  .of_recency_eq (nodup_ranking capacity history)
    (by rw [recency_after, capacity_after])

theorem mem_ranking : key ∈ ranking capacity history ↔ key ∈ putKeys history := by
  induction history with
  | nil => exact Iff.rfl
  | cons op earlier ih =>
    cases op with
    | put other value =>
      calc key ∈ ranking capacity (.put other value :: earlier)
        _ ↔ key = other ∨ key ∈ ranking capacity earlier := mem_toFront
        _ ↔ key = other ∨ key ∈ putKeys earlier := or_congr_right ih
        _ ↔ key ∈ putKeys (.put other value :: earlier) := List.mem_cons.symm
    | get other default =>
      by_cases hmem : other ∈ (after capacity earlier).recency
      · have hother : other ∈ ranking capacity earlier := by
          rw [recency_after] at hmem
          exact List.mem_of_mem_take hmem
        rw [ranking, reorder_get_of_mem hmem, mem_toFront, or_iff_right_of_imp (· ▸ hother)]
        exact ih
      · rw [ranking, reorder_get_of_notMem hmem]
        exact ih
    | contains | size | keys => exact ih
    | clear => exact Iff.rfl

theorem ranking_subset_uses (capacity : Nat) (history : List (Operation κ α)) :
    ranking capacity history ⊆ uses capacity history := by
  induction history with
  | nil => exact List.Subset.refl _
  | cons op earlier ih =>
    rw [ranking, uses, reorder]
    split
    · exact List.nil_subset _
    · split
      next key hkey =>
        intro other hother
        rw [hkey]
        exact List.mem_cons.2 ((mem_toFront.1 hother).imp_right (@ih other))
      next hnone =>
        rw [hnone]
        exact ih

theorem pairwise_toFront {used keys : List κ} (hnodup : keys.Nodup)
    (h : keys.Pairwise fun k k' => used.idxOf k < used.idxOf k') :
    (toFront key keys).Pairwise fun k k' => (key :: used).idxOf k < (key :: used).idxOf k' := by
  -- The use leaves every other key one use older.
  have hother : ∀ k ∈ keys.erase key, (key :: used).idxOf k = used.idxOf k + 1 := fun k hk =>
    List.idxOf_cons_ne used (Ne.symm (hnodup.mem_erase_iff.1 hk).1)
  refine List.pairwise_cons.2 ⟨fun k hk => ?_, ?_⟩
  · rw [hother k hk, List.idxOf_cons_self]
    exact Nat.succ_pos _
  · refine (h.sublist List.erase_sublist).imp_of_mem fun {k k'} hk hk' hlt => ?_
    rw [hother k hk, hother k' hk']
    exact Nat.succ_lt_succ hlt

/-- Of two keys in the ranking, the first is the one that was last used later. -/
theorem pairwise_ranking (capacity : Nat) (history : List (Operation κ α)) :
    (ranking capacity history).Pairwise fun k k' =>
      age capacity history k < age capacity history k' := by
  induction history with
  | nil => exact List.Pairwise.nil
  | cons op earlier ih =>
    unfold age
    rw [ranking, uses, reorder]
    split
    · exact List.Pairwise.nil
    · split
      next key hkey =>
        rw [hkey]
        exact pairwise_toFront (nodup_ranking capacity earlier) ih
      next hnone =>
        rw [hnone]
        exact ih

/-- What is stored was put last. -/
theorem holds_after (capacity : Nat) (history : List (Operation κ α)) :
    (after capacity history).Holds fun key value => (puts history).lookup key = some value := by
  induction history with
  | nil => exact nofun
  | cons op earlier ih =>
    cases op with
    | put key value =>
      intro entry hentry
      rcases mem_put hentry with rfl | ⟨hold, hzero | hne⟩
      · exact List.lookup_cons_self
      -- Without room nothing is stored that could be out of date.
      · have hlength := (wellFormed_after capacity earlier).length_le
        have hpos := List.length_pos_of_mem (mem_recency_of_mem hold)
        omega
      · rw [puts, List.lookup_cons, beq_false_of_ne hne]
        exact ih entry hold
    | get key => exact ih.touch
    | contains | size | keys => exact ih
    | clear => exact nofun

/-! ### Keys and values -/

theorem keys_after (capacity : Nat) (history : List (Operation κ α)) :
    (after capacity history).keys = ((ranking capacity history).take capacity).reverse := by
  rw [← recency_after, recency, List.reverse_reverse]

theorem length_ranking (capacity : Nat) (history : List (Operation κ α)) :
    (ranking capacity history).length = (putKeys history).toFinset.card := by
  rw [← List.toFinset_card_of_nodup (nodup_ranking capacity history)]
  congr 1
  ext key
  rw [List.mem_toFinset, List.mem_toFinset, mem_ranking]

/-- A key that has given way was last used before all that are left. -/
theorem age_lt_of_notMem (hkey : key ∈ (after capacity history).keys) {other : κ}
    (hput : other ∈ putKeys history) (hother : other ∉ (after capacity history).keys) :
    age capacity history key < age capacity history other := by
  rw [mem_keys, recency_after] at hkey hother
  have hranking : other ∈ (ranking capacity history).take capacity ++
      (ranking capacity history).drop capacity := by
    rw [List.take_append_drop]
    exact mem_ranking.2 hput
  have hpairwise := pairwise_ranking capacity history
  rw [← List.take_append_drop capacity (ranking capacity history), List.pairwise_append]
    at hpairwise
  exact hpairwise.2.2 key hkey other ((List.mem_append.1 hranking).resolve_left hother)

theorem perform_get_of_mem (h : key ∈ (after capacity history).keys) (default : α) :
    ∃ value, (puts history).lookup key = some value ∧
      ((after capacity history).perform (.get key default)).1 = .value value := by
  obtain ⟨value, hvalue⟩ := Option.isSome_iff_exists.1 (get?_isSome.2 (mem_keys.1 h))
  refine ⟨value, (holds_after capacity history).get? hvalue, ?_⟩
  rw [perform, hvalue]
  rfl

theorem perform_get_of_notMem (h : key ∉ cache.keys) (default : α) :
    cache.perform (.get key default) = (.value default, cache) := by
  rw [mem_keys] at h
  rw [perform, get?_eq_none h, touch_of_notMem h]
  rfl

theorem perform_contains (cache : Cache κ α) (key : κ) :
    cache.perform (.contains key) = (.truth (decide (key ∈ cache.keys)), cache) := by
  have hcontains : cache.contains key = decide (key ∈ cache.keys) := by
    rw [Bool.eq_iff_iff, contains_iff, decide_eq_true_iff, mem_keys]
  rw [perform, hcontains]

theorem ofCapacity_natCast (capacity : Nat) :
    (ofCapacity capacity : Except NegativeCapacity (Cache κ α)) = .ok (after capacity []) :=
  if_neg (Int.natCast_nonneg capacity).not_gt

/-- **The most recently used entries.** After any history of a new cache, its keys are as many of
those put since the last clear as it has room for, each of them once. They come in the order of
their last uses, the oldest first, and every other key that was put was last used before all of
them. A key that is there is answered with the value of its last put and any other with the default,
and only what is put, what is found and a clear have an effect. -/
theorem after_exact (capacity : Nat) (history : List (Operation κ α)) :
    let cache := after capacity history
    let age := age capacity history
    (ofCapacity capacity : Except NegativeCapacity (Cache κ α)) = .ok (after capacity []) ∧
    cache.keys.Nodup ∧
    cache.keys ⊆ putKeys history ∧
    cache.keys.length = min capacity (putKeys history).toFinset.card ∧
    putKeys history ⊆ uses capacity history ∧
    cache.keys.Pairwise (fun k k' => age k' < age k) ∧
    (∀ k ∈ cache.keys, ∀ k' ∈ putKeys history, k' ∉ cache.keys → age k < age k') ∧
    (∀ k default, k ∈ cache.keys → ∃ value, (puts history).lookup k = some value ∧
      (cache.perform (.get k default)).1 = .value value) ∧
    (∀ k default, k ∉ cache.keys → cache.perform (.get k default) = (.value default, cache)) ∧
    (∀ k, cache.perform (.contains k) = (.truth (decide (k ∈ cache.keys)), cache)) ∧
    cache.perform .size = (.count cache.keys.length, cache) ∧
    cache.perform .keys = (.keys cache.keys, cache) := by
  intro cache age
  have hpairwise := (pairwise_ranking capacity history).sublist (List.take_sublist capacity _)
  refine ⟨ofCapacity_natCast capacity, ?_, fun k hk => ?_, ?_, fun k hk => ?_, ?_,
    fun k hk k' => age_lt_of_notMem hk, fun k default hk => perform_get_of_mem hk default,
    fun k default hk => perform_get_of_notMem hk default, perform_contains cache, ?_, rfl⟩
  · exact List.nodup_reverse.1 (wellFormed_after capacity history).nodup
  · rw [mem_keys, recency_after] at hk
    exact mem_ranking.1 (List.mem_of_mem_take hk)
  · rw [keys_after, List.length_reverse, List.length_take, length_ranking]
  · exact ranking_subset_uses capacity history (mem_ranking.2 hk)
  · rw [keys_after]
    exact List.pairwise_reverse.2 hpairwise
  · rw [perform, size_eq_length_recency, recency, List.length_reverse]

/-- With room for two, the second of three keys gives way, since the first has been used again. -/
theorem after_exact_evicted :
    let history : List (Operation Text Nat) :=
      [.put "c" 3, .get "a" 0, .put "b" 2, .get "c" 0, .put "a" 1]
    let cache := after 2 history
    cache.keys = ["a", "c"] ∧ uses 2 history = ["c", "a", "b", "a"] ∧
      age 2 history "c" < age 2 history "a" ∧ age 2 history "a" < age 2 history "b" ∧
      (cache.perform (.get "a" 0)).1 = .value 1 ∧
        cache.perform (.get "b" 0) = (.value 0, cache) := by
  intro history cache
  have hkeys : cache.keys = ["a", "c"] := rfl
  obtain ⟨-, -, -, -, -, hsorted, hlater, hfound, hmissing, -⟩ := after_exact 2 history
  have hgone : ("b" : Text) ∉ cache.keys := by decide
  obtain ⟨value, hvalue, hanswer⟩ := hfound "a" 0 (by decide)
  obtain rfl : 1 = value := Option.some.inj hvalue
  rw [hkeys] at hsorted
  refine ⟨hkeys, rfl, List.rel_of_pairwise_cons hsorted (by simp), ?_, hanswer,
    hmissing "b" 0 hgone⟩
  exact hlater "a" (by decide) "b" (by decide) hgone

end Cache

end JsonPath
