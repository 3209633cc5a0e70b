import JsonPath.Cache
import Mathlib.Data.List.Basic
import Mathlib.Data.List.Nodup

/-!
# The order of use

A cache lists its entries with the latest use last. Read from there, what a use does is to bring its
key to the front, and what a capacity does is to cut the list off: a key that is stored anew comes
to the front of what then may be one too many. Since cutting off commutes with bringing to the
front, a cache can be compared with the list that is never cut off.
-/

namespace JsonPath

section Lists

variable {κ : Type} [DecidableEq κ] {key other : κ} {keys : List κ}

/-- The keys with one brought, or added, to the front. -/
def toFront (key : κ) (keys : List κ) : List κ := key :: keys.erase key

theorem mem_toFront : other ∈ toFront key keys ↔ other = key ∨ other ∈ keys := by
  by_cases h : other = key
  · simp [toFront, h]
  · simp [toFront, h, List.mem_erase_of_ne h]

theorem nodup_toFront (h : keys.Nodup) : (toFront key keys).Nodup :=
  List.nodup_cons.2 ⟨h.not_mem_erase, h.erase key⟩

theorem length_toFront_of_mem (h : key ∈ keys) : (toFront key keys).length = keys.length := by
  rw [toFront, List.length_cons, List.length_erase_add_one h]

theorem take_erase_take (key : κ) (keys : List κ) (n : Nat) :
    ((keys.take (n + 1)).erase key).take n = (keys.erase key).take n := by
  induction keys generalizing n with
  | nil => simp
  | cons first rest ih =>
    rw [List.take_succ_cons]
    by_cases h : first = key
    · subst h
      rw [List.erase_cons_head, List.erase_cons_head, List.take_take, Nat.min_self]
    · rw [List.erase_cons_tail (by simpa using h), List.erase_cons_tail (by simpa using h)]
      cases n with
      | zero => rfl
      | succ n => rw [List.take_succ_cons, List.take_succ_cons, ih]

/-- To the front of a list that has been cut off comes what comes to the front of the whole. -/
theorem take_toFront_take (key : κ) (keys : List κ) (n : Nat) :
    (toFront key (keys.take n)).take n = (toFront key keys).take n := by
  cases n with
  | zero => rfl
  | succ n => rw [toFront, toFront, List.take_succ_cons, List.take_succ_cons, take_erase_take]

end Lists

namespace Cache

variable {κ α : Type} {P : κ → α → Prop} {cache : Cache κ α} {key : κ} {value : α} {entry : κ × α}

/-- The keys, the latest used first. -/
def recency (cache : Cache κ α) : List κ := cache.keys.reverse

/-- The cache has no key twice, and no more of them than it has room for. -/
structure WellFormed (cache : Cache κ α) : Prop where
  nodup : cache.recency.Nodup
  length_le : cache.recency.length ≤ cache.capacity

theorem recency_eq (capacity : Nat) (entries : List (κ × α)) :
    recency ⟨capacity, entries⟩ = (entries.map Prod.fst).reverse := rfl

theorem mem_keys : key ∈ cache.keys ↔ key ∈ cache.recency := List.mem_reverse.symm

theorem mem_recency_of_mem (h : entry ∈ cache.entries) : entry.1 ∈ cache.recency :=
  List.mem_reverse.2 (List.mem_map_of_mem h)

/-- What is cut off from a list without repetition makes a cache well-formed. -/
theorem WellFormed.of_recency_eq {keys : List κ} (hnodup : keys.Nodup)
    (h : cache.recency = keys.take cache.capacity) : cache.WellFormed := by
  constructor
  · rw [h]
    exact hnodup.sublist (List.take_sublist ..)
  · rw [h]
    exact List.length_take_le ..

theorem size_eq_length_recency (cache : Cache κ α) : cache.size = cache.recency.length := by
  rw [recency, List.length_reverse, keys, List.length_map, size]

variable [DecidableEq κ]

theorem contains_iff : cache.contains key = true ↔ key ∈ cache.recency := by
  simp [contains, recency, keys]

theorem get?_isSome : (cache.get? key).isSome = true ↔ key ∈ cache.recency := by
  simp [get?, recency, keys]

theorem mem_of_get? (h : cache.get? key = some value) : (key, value) ∈ cache.entries := by
  obtain ⟨⟨key', value'⟩, hfind, rfl⟩ := Option.map_eq_some_iff.1 h
  obtain rfl : key' = key := by simpa using List.find?_some hfind
  exact List.mem_of_find?_eq_some hfind

theorem get?_eq_none (h : key ∉ cache.recency) : cache.get? key = none := by
  rwa [← Option.not_isSome_iff_eq_none, get?_isSome]

/-! ### What uses do -/

theorem touch_of_notMem (h : key ∉ cache.recency) : cache.touch key = cache := by
  rw [touch, get?_eq_none h]

theorem recency_append_without (hnodup : cache.recency.Nodup) (capacity : Nat) (value : α) :
    recency ⟨capacity, cache.without key ++ [(key, value)]⟩ = toFront key cache.recency := by
  have hwithout : (cache.without key).map Prod.fst = cache.keys.filter (· != key) := by
    rw [without, keys, List.filter_map]
    refine congrArg _ (List.filter_congr fun entry _ => ?_)
    rw [Bool.eq_iff_iff]
    simp
  calc recency ⟨capacity, cache.without key ++ [(key, value)]⟩
    _ = (cache.keys.filter (· != key) ++ [key]).reverse := by
      rw [recency_eq, List.map_append, hwithout]
      rfl
    _ = key :: cache.recency.filter (· != key) := by
      rw [List.reverse_concat', recency, List.filter_reverse]
    _ = toFront key cache.recency := by rw [toFront, hnodup.erase_eq_filter]

theorem recency_touch (h : cache.WellFormed) (hmem : key ∈ cache.recency) :
    (cache.touch key).recency = toFront key cache.recency := by
  obtain ⟨value, hvalue⟩ := Option.isSome_iff_exists.1 (get?_isSome.2 hmem)
  rw [touch, hvalue]
  exact recency_append_without h.nodup cache.capacity value

theorem recency_put (h : cache.WellFormed) (key : κ) (value : α) :
    (cache.put key value).recency = (toFront key cache.recency).take cache.capacity := by
  by_cases hzero : cache.capacity = 0
  · have hnil : cache.recency.length = 0 := Nat.le_zero.1 (hzero ▸ h.length_le)
    rw [put, if_pos hzero, hzero, List.take_zero, List.eq_nil_of_length_eq_zero hnil]
  by_cases hmem : key ∈ cache.recency
  · rw [put, if_neg hzero, if_pos (contains_iff.2 hmem), recency_append_without h.nodup,
      List.take_of_length_le (length_toFront_of_mem hmem ▸ h.length_le)]
  rw [put, if_neg hzero, if_neg (mt contains_iff.1 hmem), size_eq_length_recency, toFront,
    List.erase_of_not_mem hmem]
  by_cases hroom : cache.recency.length < cache.capacity
  · rw [if_pos hroom, List.take_of_length_le hroom, recency_eq, List.map_append,
      List.reverse_append]
    rfl
  -- What gives way is the last of the keys, the only one there is no room for.
  obtain ⟨n, hn⟩ := Nat.exists_eq_succ_of_ne_zero hzero
  have hlength : cache.recency.length = n + 1 := by
    have hle := h.length_le
    omega
  have htail : cache.keys.tail.reverse = cache.recency.take n := by
    rw [← List.dropLast_reverse, List.dropLast_eq_take]
    exact congrArg (List.take · cache.recency) (Nat.sub_eq_of_eq_add hlength)
  rw [if_neg hroom, hn, List.take_succ_cons, ← htail, recency_eq, List.map_append, List.map_tail,
    List.reverse_append]
  rfl

/-! ### What is stored afterwards -/

@[simp]
theorem capacity_put (key : κ) (value : α) (cache : Cache κ α) :
    (cache.put key value).capacity = cache.capacity := by
  unfold put
  split_ifs <;> rfl

@[simp]
theorem capacity_touch (key : κ) (cache : Cache κ α) :
    (cache.touch key).capacity = cache.capacity := by
  unfold touch
  split <;> rfl

theorem mem_touch (h : entry ∈ (cache.touch key).entries) : entry ∈ cache.entries := by
  unfold touch at h
  split at h
  next value hvalue =>
    rcases List.mem_append.1 h with hother | hone
    · exact List.mem_of_mem_filter hother
    · obtain rfl := List.mem_singleton.1 hone
      exact mem_of_get? hvalue
  · exact h

theorem mem_put (h : entry ∈ (cache.put key value).entries) :
    entry = (key, value) ∨ entry ∈ cache.entries ∧ (cache.capacity = 0 ∨ entry.1 ≠ key) := by
  -- Whatever gives way, the entry that is put comes behind others that were stored before.
  have hcases {others : List (κ × α)} (hentry : entry ∈ others ++ [(key, value)])
      (hothers : entry ∈ others → entry ∈ cache.entries ∧ entry.1 ≠ key) :
      entry = (key, value) ∨ entry ∈ cache.entries ∧ (cache.capacity = 0 ∨ entry.1 ≠ key) := by
    rcases List.mem_append.1 hentry with hother | hone
    · exact .inr ⟨(hothers hother).1, .inr (hothers hother).2⟩
    · exact .inl (List.mem_singleton.1 hone)
  by_cases hzero : cache.capacity = 0
  · rw [put, if_pos hzero] at h
    exact .inr ⟨h, .inl hzero⟩
  by_cases hcontains : cache.contains key = true
  · rw [put, if_neg hzero, if_pos hcontains] at h
    exact hcases h fun hother => by simpa [without] using hother
  have hkeys : ∀ entry ∈ cache.entries, entry.1 ≠ key := by
    rintro entry hentry rfl
    exact hcontains (contains_iff.2 (mem_recency_of_mem hentry))
  rw [put, if_neg hzero, if_neg hcontains] at h
  split at h
  · exact hcases h fun hother => ⟨hother, hkeys entry hother⟩
  · refine hcases h fun hother => ?_
    exact ⟨List.mem_of_mem_tail hother, hkeys entry (List.mem_of_mem_tail hother)⟩

/-! ### Properties of all that is stored -/

/-- All that the cache stores has the property. -/
def Holds (P : κ → α → Prop) (cache : Cache κ α) : Prop :=
  ∀ entry ∈ cache.entries, P entry.1 entry.2

theorem Holds.get? (h : cache.Holds P) (hget : cache.get? key = some value) : P key value :=
  h _ (mem_of_get? hget)

theorem Holds.put (h : cache.Holds P) (hvalue : P key value) : (cache.put key value).Holds P := by
  intro entry hentry
  rcases mem_put hentry with rfl | ⟨hold, -⟩
  · exact hvalue
  · exact h entry hold

theorem Holds.touch (h : cache.Holds P) : (cache.touch key).Holds P :=
  fun entry hentry => h entry (mem_touch hentry)

end Cache

end JsonPath
