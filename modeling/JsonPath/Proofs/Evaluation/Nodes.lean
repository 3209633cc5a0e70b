import JsonPath.Proofs.Evaluation.Slices

/-!
# Where nodes are found

Every selector picks children of the node that it is applied to, and every node of the descendant
walk is found by going from child to child. What holds of a node and passes on to its children
therefore holds of all nodes that a query can find.
-/

namespace JsonPath

/-! ### Children -/

theorem mem_indexed {α : Type} {start : Nat} {items : List α} {step : Step} {item : α} :
    (step, item) ∈ indexed start items ↔
      ∃ n : Nat, items[n]? = some item ∧ step = .index (start + n : Nat) := by
  induction items generalizing start with
  | nil => simp [indexed]
  | cons first rest ih =>
    rw [indexed, List.mem_cons, ih]
    constructor
    · rintro (h | ⟨n, hn, rfl⟩)
      · cases h
        exact ⟨0, rfl, rfl⟩
      · exact ⟨n + 1, hn, by rw [Nat.add_right_comm, Nat.add_assoc]⟩
    · rintro ⟨_ | n, hn, rfl⟩
      · cases hn
        exact .inl rfl
      · exact .inr ⟨n, hn, by rw [Nat.add_right_comm, Nat.add_assoc]⟩

namespace Node

variable {node child : Node}

theorem mem_children_iff : child ∈ node.children ↔
    ∃ step value, (step, value) ∈ node.value.children ∧ child = node.child step value := by
  simp only [children, List.mem_map, Prod.exists]
  exact exists_congr fun _ => exists_congr fun _ => and_congr_right fun _ => eq_comm

theorem mem_named_iff {name : Text} : child ∈ node.named name ↔
    ∃ members value, node.value = .object members ∧ Value.lookup? name members = some value ∧
      child = node.child (.name name) value := by
  unfold named
  split
  next members hvalue =>
    simp only [hvalue, Value.object.injEq]
    split
    next value hlookup => simp [hlookup]
    next hlookup => simp [hlookup]
  next hother =>
    simp only [List.not_mem_nil, false_iff]
    rintro ⟨members, -, hvalue, -⟩
    exact hother members hvalue

theorem children_of_items? {value : Value} {items : List Value} (h : value.items? = some items) :
    value.children = JsonPath.indexed 0 items := by
  cases value <;> cases h <;> rfl

theorem mem_children_of_item {items : List Value} (h : node.value.items? = some items) {i : Int}
    {value : Value} (hi : 0 ≤ i) (hvalue : items[i.toNat]? = some value) :
    node.child (.index i) value ∈ node.children := by
  refine mem_children_iff.2 ⟨_, _, ?_, rfl⟩
  rw [children_of_items? h, mem_indexed]
  exact ⟨i.toNat, hvalue, by rw [Nat.zero_add, Int.toNat_of_nonneg hi]⟩

theorem named_subset {name : Text} : node.named name ⊆ node.children := by
  intro child h
  obtain ⟨members, value, hvalue, hlookup, rfl⟩ := mem_named_iff.1 h
  obtain ⟨member, hfind, rfl⟩ := Option.map_eq_some_iff.1 hlookup
  have hname : member.1 = name := by simpa using List.find?_some hfind
  refine mem_children_iff.2 ⟨_, _, ?_, rfl⟩
  rw [hvalue, ← hname]
  exact List.mem_map_of_mem (List.mem_of_find?_eq_some hfind)

theorem item?_eq_some {items : List Value} {index i : Int} {value : Value}
    (h : item? items index = some (i, value)) : 0 ≤ i ∧ items[i.toNat]? = some value := by
  unfold item? at h
  dsimp only at h
  generalize (if index < 0 ∧ -index ≤ items.length then index + items.length else index) = j at h
  split at h
  · cases h
  next hj =>
    obtain ⟨_, hvalue, heq⟩ := Option.map_eq_some_iff.1 h
    cases heq
    exact ⟨Int.not_lt.1 hj, hvalue⟩

theorem indexed_subset {index : Int} : node.indexed index ⊆ node.children := by
  intro child h
  unfold indexed at h
  split at h
  next items hitems =>
    simp only [List.mem_map, Option.mem_toList, Prod.exists] at h
    obtain ⟨i, value, hitem, rfl⟩ := h
    obtain ⟨hi, hvalue⟩ := item?_eq_some hitem
    exact mem_children_of_item hitems hi hvalue
  · cases h

theorem sliced_subset {start? stop? step? : Option Int} :
    node.sliced start? stop? step? ⊆ node.children := by
  intro child h
  unfold sliced at h
  split at h
  next items hitems =>
    simp only [List.mem_filterMap, Option.map_eq_some_iff] at h
    obtain ⟨i, hi, value, hvalue, rfl⟩ := h
    exact mem_children_of_item hitems (Slice.mem_indices hi).1 hvalue
  · cases h

/-! ### Descendants -/

/-- The second node is found from the first by going from child to child. -/
inductive Reaches : Node → Node → Prop
  | here {a : Node} : Reaches a a
  | down {a b c : Node} : Reaches a b → c ∈ b.children → Reaches a c

theorem Reaches.trans {a b c : Node} (h : Reaches a b) (h' : Reaches b c) : Reaches a c := by
  induction h' with
  | here => exact h
  | down _ hchild ih => exact .down ih hchild

/-- What passes on to children holds of all that is found below. -/
theorem Reaches.preserves {P : Node → Prop} (hchild : ∀ a, P a → ∀ b ∈ a.children, P b)
    {a b : Node} (h : Reaches a b) (ha : P a) : P b := by
  induction h with
  | here => exact ha
  | down _ hmem ih => exact hchild _ ih _ hmem

mutual

theorem reaches_of_mem_descendants (root : Value) (location location' : Location)
    (value' : Value) : ∀ value : Value, (location', value') ∈ value.descendants location →
      Reaches ⟨value, location, root⟩ ⟨value', location', root⟩
  | .array items, h => by
    rcases List.mem_cons.1 h with heq | h
    · cases heq
      exact .here
    · obtain ⟨n, item, hitem, hreaches⟩ :=
        reaches_of_mem_itemDescendants root location location' value' items 0 h
      refine .trans (.down .here (mem_children_iff.2 ⟨_, _, ?_, rfl⟩)) hreaches
      exact mem_indexed.2 ⟨n, hitem, rfl⟩
  | .sequence form items, h => by
    rcases List.mem_cons.1 h with heq | h
    · cases heq
      exact .here
    · obtain ⟨n, item, hitem, hreaches⟩ :=
        reaches_of_mem_itemDescendants root location location' value' items 0 h
      refine .trans (.down .here (mem_children_iff.2 ⟨_, _, ?_, rfl⟩)) hreaches
      exact mem_indexed.2 ⟨n, hitem, rfl⟩
  | .object members, h => by
    rcases List.mem_cons.1 h with heq | h
    · cases heq
      exact .here
    · obtain ⟨member, hmember, hreaches⟩ :=
        reaches_of_mem_memberDescendants root location location' value' members h
      refine .trans (.down .here (mem_children_iff.2 ⟨_, _, ?_, rfl⟩)) hreaches
      exact List.mem_map_of_mem hmember
  | .null, h | .boolean _, h | .number _, h | .string _, h | .octets _, h | .nothing, h => by
    cases List.mem_singleton.1 h
    exact .here

theorem reaches_of_mem_itemDescendants (root : Value) (location location' : Location)
    (value' : Value) : ∀ (items : List Value) (place : Nat),
      (location', value') ∈ itemDescendants location place items →
        ∃ (n : Nat) (item : Value), items[n]? = some item ∧
          Reaches ⟨item, location ++ [.index (place + n : Nat)], root⟩ ⟨value', location', root⟩
  | [], _, h => by cases h
  | item :: rest, place, h => by
    rcases List.mem_append.1 h with h | h
    · exact ⟨0, item, rfl, reaches_of_mem_descendants root _ location' value' item h⟩
    · obtain ⟨n, found, hfound, hreaches⟩ :=
        reaches_of_mem_itemDescendants root location location' value' rest (place + 1) h
      rw [Nat.add_assoc, Nat.add_comm 1] at hreaches
      exact ⟨n + 1, found, hfound, hreaches⟩

theorem reaches_of_mem_memberDescendants (root : Value) (location location' : Location)
    (value' : Value) : ∀ members : List (Text × Value),
      (location', value') ∈ memberDescendants location members →
        ∃ member ∈ members,
          Reaches ⟨member.2, location ++ [.name member.1], root⟩ ⟨value', location', root⟩
  | [], h => by cases h
  | (name, value) :: rest, h => by
    rcases List.mem_append.1 h with h | h
    · exact ⟨_, List.mem_cons_self, reaches_of_mem_descendants root _ location' value' value h⟩
    · obtain ⟨member, hmember, hreaches⟩ :=
        reaches_of_mem_memberDescendants root location location' value' rest h
      exact ⟨member, List.mem_cons_of_mem _ hmember, hreaches⟩

end

theorem reaches_of_mem_nodeDescendants {visited : Node} (h : visited ∈ node.descendants) :
    Reaches node visited := by
  obtain ⟨⟨location, value⟩, hmem, rfl⟩ := List.mem_map.1 h
  exact reaches_of_mem_descendants node.root node.location location value node.value hmem

end Node

end JsonPath
