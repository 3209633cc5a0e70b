import JsonPath.Proofs.Cache.History

/-!
# Caches of two sizes

Two caches of different sizes go through one history. A lookup that fails in the smaller one can
succeed in the larger one and count as a use there, so the two evict at different times and evict
different keys. Yet the larger cache never lacks what the smaller one has. What carries this is the
order of use: the keys of the smaller cache stand in the larger one in their own order, so if a key
of theirs is the next to go there, it is the next to go in the smaller cache as well, unless that
has room left. Then it has given up nothing so far, and holds all that the larger one holds.
-/

namespace JsonPath

section Lists

variable {κ : Type} {keys keys' : List κ}

/-- What is left of a list stands in what is left of a longer one that loses no more. -/
theorem sublist_take_take {n n' : Nat} (h : keys.Sublist keys')
    (hlost : keys'.length - n' ≤ keys.length - n) : (keys.take n).Sublist (keys'.take n') := by
  have hdrop : (keys.reverse.drop (keys.length - n)).Sublist
      (keys'.reverse.drop (keys'.length - n')) :=
    (List.drop_sublist_drop_left _ hlost).trans (h.reverse.drop _)
  rw [← List.reverse_take, ← List.reverse_take] at hdrop
  exact List.reverse_sublist.1 hdrop

variable [DecidableEq κ]

theorem sublist_toFront (h : keys.Sublist keys') (key : κ) :
    (toFront key keys).Sublist (toFront key keys') := (h.erase key).cons_cons key

theorem length_toFront_of_notMem {key : κ} (h : key ∉ keys) :
    (toFront key keys).length = keys.length + 1 := by
  rw [toFront, List.length_cons, List.erase_of_not_mem h]

end Lists

namespace Cache

variable {κ α : Type}

/-- The first cache has keys of the second only, in the same order of use, and unless it is full it
has all of them. -/
structure Within (small large : Cache κ α) : Prop where
  capacity_le : small.capacity ≤ large.capacity
  sublist : small.recency.Sublist large.recency
  same_of_room : small.recency.length < small.capacity → small.recency = large.recency

variable [DecidableEq κ] {small large : Cache κ α} {key : κ}

namespace Within

/-- A key that is put comes to the front of both, and what then is too much for the larger cache is
too much for the smaller one. -/
theorem put (h : small.Within large) (hsmall : small.WellFormed) (hlarge : large.WellFormed)
    (key : κ) (value : α) : (small.put key value).Within (large.put key value) := by
  have hfront := sublist_toFront h.sublist key
  have hcapacity := h.capacity_le
  have hfits := hlarge.length_le
  refine ⟨?_, ?_, ?_⟩
  · rwa [capacity_put, capacity_put]
  · rw [recency_put hsmall, recency_put hlarge]
    apply sublist_take_take hfront
    by_cases hmem : key ∈ large.recency
    · rw [length_toFront_of_mem hmem]
      omega
    · have hmem' : key ∉ small.recency := fun hkey => hmem (h.sublist.subset hkey)
      rw [length_toFront_of_notMem hmem, length_toFront_of_notMem hmem']
      by_cases hroom : small.recency.length < small.capacity
      · have hsame := congrArg List.length (h.same_of_room hroom)
        omega
      · omega
  · intro hroom
    rw [recency_put hsmall, capacity_put, List.length_take] at hroom
    have hshort : (toFront key small.recency).length < small.capacity := by omega
    have hle : small.recency.length ≤ (toFront key small.recency).length := by
      by_cases hmem : key ∈ small.recency
      · rw [length_toFront_of_mem hmem]
      · rw [length_toFront_of_notMem hmem]
        exact Nat.le_succ _
    have hsame := h.same_of_room (Nat.lt_of_le_of_lt hle hshort)
    rw [recency_put hsmall, recency_put hlarge, ← hsame, List.take_of_length_le hshort.le,
      List.take_of_length_le (hshort.le.trans hcapacity)]

/-- A key that is looked up comes to the front where it is found. In the larger cache alone, it
passes by the keys of the smaller one and leaves their order as it is. -/
theorem touch (h : small.Within large) (hsmall : small.WellFormed) (hlarge : large.WellFormed)
    (key : κ) : (small.touch key).Within (large.touch key) := by
  by_cases hmem : key ∈ small.recency
  · have hmem' := h.sublist.subset hmem
    refine ⟨?_, ?_, ?_⟩
    · rw [capacity_touch, capacity_touch]
      exact h.capacity_le
    · rw [recency_touch hsmall hmem, recency_touch hlarge hmem']
      exact sublist_toFront h.sublist key
    · intro hroom
      rw [recency_touch hsmall hmem, length_toFront_of_mem hmem, capacity_touch] at hroom
      rw [recency_touch hsmall hmem, recency_touch hlarge hmem', h.same_of_room hroom]
  rw [touch_of_notMem hmem]
  by_cases hmem' : key ∈ large.recency
  · refine ⟨?_, ?_, ?_⟩
    · rw [capacity_touch]
      exact h.capacity_le
    · have herase := h.sublist.erase key
      rw [List.erase_of_not_mem hmem] at herase
      rw [recency_touch hlarge hmem']
      exact herase.cons key
    · intro hroom
      rw [h.same_of_room hroom] at hmem
      exact absurd hmem' hmem
  · rw [touch_of_notMem hmem']
    exact h

theorem perform (h : small.Within large) (hsmall : small.WellFormed) (hlarge : large.WellFormed)
    (op : Operation κ α) : (small.perform op).2.Within (large.perform op).2 := by
  cases op with
  | put key value => exact h.put hsmall hlarge key value
  | get key => exact h.touch hsmall hlarge key
  | contains | size | keys => exact h
  | clear => exact ⟨h.capacity_le, List.Sublist.refl _, fun _ => rfl⟩

end Within

/-- New caches of two sizes after one history. -/
theorem within_after {capacity capacity' : Nat} (h : capacity ≤ capacity')
    (history : List (Operation κ α)) :
    (after capacity history).Within (after capacity' history) := by
  induction history with
  | nil => exact ⟨h, List.Sublist.refl _, fun _ => rfl⟩
  | cons op earlier ih =>
    exact ih.perform (wellFormed_after capacity earlier) (wellFormed_after capacity' earlier) op

/-- What two caches hold under one key after the same history is what was put last. -/
theorem get?_eq_of_after {capacity capacity' : Nat} {history : List (Operation κ α)}
    {value value' : α} (h : (after capacity history).get? key = some value)
    (h' : (after capacity' history).get? key = some value') : value = value' := by
  have hput := (holds_after capacity history).get? h
  have hput' := (holds_after capacity' history).get? h'
  exact Option.some.inj (hput.symm.trans hput')

/-- **Inclusion.** Of two new caches that go through the same history, the larger one has every key
of the smaller one with the same value, and the keys of the smaller one come in the same order of
eviction in both. -/
theorem after_inclusion {capacity capacity' : Nat} (h : capacity ≤ capacity')
    (history : List (Operation κ α)) :
    let small := after capacity history
    let large := after capacity' history
    (ofCapacity capacity : Except NegativeCapacity (Cache κ α)) = .ok (after capacity []) ∧
    (ofCapacity capacity' : Except NegativeCapacity (Cache κ α)) = .ok (after capacity' []) ∧
    (∀ key ∈ small.keys, key ∈ large.keys ∧
      ∃ value, small.get? key = some value ∧ large.get? key = some value) ∧
    small.keys.Sublist large.keys := by
  intro small large
  have hsublist : small.keys.Sublist large.keys :=
    List.reverse_sublist.1 (within_after h history).sublist
  refine ⟨ofCapacity_natCast capacity, ofCapacity_natCast capacity', fun key hkey => ?_, hsublist⟩
  have hkey' : key ∈ large.keys := hsublist.subset hkey
  obtain ⟨value, hvalue⟩ := Option.isSome_iff_exists.1 (get?_isSome.2 (mem_keys.1 hkey))
  obtain ⟨value', hvalue'⟩ := Option.isSome_iff_exists.1 (get?_isSome.2 (mem_keys.1 hkey'))
  obtain rfl := get?_eq_of_after hvalue hvalue'
  exact ⟨hkey', value, hvalue, hvalue'⟩

/-- A lookup that only the larger cache can answer is a use there, so the two then evict different
keys. -/
theorem after_inclusion_diverged :
    let history : List (Operation Text Nat) :=
      [.put "d" 4, .get "a" 0, .put "c" 3, .put "b" 2, .put "a" 1]
    let small := after 2 history
    let large := after 3 history
    2 ≤ 3 ∧ small.keys = ["c", "d"] ∧ large.keys = ["c", "a", "d"] ∧
      small.keys.Sublist large.keys ∧
      ∃ value, small.get? ("c" : Text) = some value ∧ large.get? ("c" : Text) = some value := by
  intro history small large
  obtain ⟨-, -, hkeys, hsublist⟩ := after_inclusion (by decide : 2 ≤ 3) history
  exact ⟨by decide, rfl, rfl, hsublist, (hkeys "c" (by decide)).2⟩

end Cache

end JsonPath
