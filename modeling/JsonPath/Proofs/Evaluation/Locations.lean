import JsonPath.Proofs.Evaluation.Found
import JsonPath.Proofs.Evaluation.TypeSoundness

/-!
# What is at a location

A location leads from a value down to one value at most. In a document no two children of a value
share their step, so a node that is reached from the root stands at its location.
-/

namespace JsonPath

open Node (Reaches)

namespace Value

/-- The child to which a step leads. -/
def child? (step : Step) (value : Value) : Option Value :=
  (value.children.find? (·.1 = step)).map (·.2)

/-- The value to which a location leads. -/
def at? : Location → Value → Option Value
  | [], value => some value
  | step :: rest, value => (value.child? step).bind (at? rest)

mutual

/-- Whether no sequence in the value has more items than the bound. -/
def hasItemsWithin (bound : Nat) : Value → Bool
  | .array items => decide (items.length ≤ bound) && itemsHaveItemsWithin bound items
  | .sequence _ items => decide (items.length ≤ bound) && itemsHaveItemsWithin bound items
  | .object members => membersHaveItemsWithin bound members
  | _ => true

def itemsHaveItemsWithin (bound : Nat) : List Value → Bool
  | [] => true
  | item :: rest => item.hasItemsWithin bound && itemsHaveItemsWithin bound rest

def membersHaveItemsWithin (bound : Nat) : List (Text × Value) → Bool
  | [] => true
  | (_, value) :: rest => value.hasItemsWithin bound && membersHaveItemsWithin bound rest

end

variable {value child : Value} {step : Step} {bound : Nat}

theorem at?_append (location location' : Location) (value : Value) :
    value.at? (location ++ location') = (value.at? location).bind (at? location') := by
  induction location generalizing value with
  | nil => rfl
  | cons step rest ih =>
    rw [List.cons_append, at?, at?, Option.bind_assoc]
    exact Option.bind_congr fun child _ => ih child

theorem mem_children_of_child? (h : value.child? step = some child) :
    (step, child) ∈ value.children := by
  obtain ⟨⟨step', child'⟩, hfind, rfl⟩ := Option.map_eq_some_iff.1 h
  obtain rfl : step' = step := by simpa using List.find?_some hfind
  exact List.mem_of_find?_eq_some hfind

theorem nodup_children (h : value.isJson = true) : (value.children.map Prod.fst).Nodup := by
  have hitems {α : Type} (items : List α) (start : Nat) :
      ((indexed start items).map Prod.fst).Nodup := by
    induction items generalizing start with
    | nil => exact List.nodup_nil
    | cons item rest ih =>
      refine List.nodup_cons.2 ⟨fun hmem => ?_, ih (start + 1)⟩
      obtain ⟨⟨step, item'⟩, hitem, hstep⟩ := List.mem_map.1 hmem
      obtain ⟨n, -, rfl⟩ := mem_indexed.1 hitem
      simp only [Step.index.injEq] at hstep
      omega
  cases value with
  | array items | sequence _ items => exact hitems items 0
  | object members =>
    simp only [isJson, Bool.and_eq_true, decide_eq_true_eq] at h
    have hnames : (members.map fun member => (Step.name member.1, member.2)).map Prod.fst =
        (members.map Prod.fst).map Step.name := by simp
    rw [children, hnames]
    exact h.1.map fun _ _ heq => Step.name.inj heq
  | null | boolean | number | string | octets | nothing => exact List.nodup_nil

theorem child?_of_mem_children (h : value.isJson = true) (hmem : (step, child) ∈ value.children) :
    value.child? step = some child := by
  have hnodup := nodup_children h
  unfold child?
  generalize value.children = children at hmem hnodup
  induction children with
  | nil => cases hmem
  | cons first rest ih =>
    obtain ⟨hfirst, hrest⟩ := List.nodup_cons.1 hnodup
    rcases List.mem_cons.1 hmem with rfl | hmem
    · rw [List.find?_cons_of_pos (by simp)]
      rfl
    · have hne : first.1 ≠ step := by
        rintro rfl
        exact hfirst (List.mem_map.2 ⟨_, hmem, rfl⟩)
      rw [List.find?_cons_of_neg (by simpa using hne)]
      exact ih hmem hrest

theorem itemsHaveItemsWithin_iff {items : List Value} :
    itemsHaveItemsWithin bound items = true ↔ ∀ item ∈ items, item.hasItemsWithin bound = true := by
  induction items with
  | nil => simp [itemsHaveItemsWithin]
  | cons item rest ih => simp [itemsHaveItemsWithin, ih]

theorem membersHaveItemsWithin_iff {members : List (Text × Value)} :
    membersHaveItemsWithin bound members = true ↔
      ∀ member ∈ members, member.2.hasItemsWithin bound = true := by
  induction members with
  | nil => simp [membersHaveItemsWithin]
  | cons member rest ih => simp [membersHaveItemsWithin, ih]

/-- The index of a child is below the bound, and the bound holds in the child as well. -/
theorem hasItemsWithin_child (h : value.hasItemsWithin bound = true)
    (hmem : (step, child) ∈ value.children) :
    child.hasItemsWithin bound = true ∧ ∀ i, step = .index i → 0 ≤ i ∧ i < bound := by
  have hitems (items : List Value)
      (hitems : (decide (items.length ≤ bound) && itemsHaveItemsWithin bound items) = true)
      (hmem : (step, child) ∈ indexed 0 items) :
      child.hasItemsWithin bound = true ∧ ∀ i, step = .index i → 0 ≤ i ∧ i < bound := by
    obtain ⟨n, hn, rfl⟩ := mem_indexed.1 hmem
    obtain ⟨hlength, hall⟩ := Bool.and_eq_true_iff.1 hitems
    obtain ⟨hlt, -⟩ := List.getElem?_eq_some_iff.1 hn
    have hle := of_decide_eq_true hlength
    refine ⟨itemsHaveItemsWithin_iff.1 hall child (List.mem_of_getElem? hn), ?_⟩
    rintro _ ⟨⟩
    omega
  cases value with
  | array items | sequence _ items => exact hitems items h hmem
  | object members =>
    obtain ⟨member, hmember, heq⟩ := List.mem_map.1 hmem
    cases heq
    exact ⟨membersHaveItemsWithin_iff.1 h member hmember, by simp⟩
  | null | boolean | number | string | octets | nothing => cases hmem

theorem index_lt_of_at? {location : Location} (h : value.hasItemsWithin bound = true)
    (hat : (value.at? location).isSome = true) {i : Int} (hi : .index i ∈ location) :
    0 ≤ i ∧ i < bound := by
  induction location generalizing value with
  | nil => cases hi
  | cons step rest ih =>
    rw [at?] at hat
    cases hchild : value.child? step with
    | none =>
      rw [hchild] at hat
      cases hat
    | some child =>
      rw [hchild] at hat
      obtain ⟨hwithin, hindex⟩ := hasItemsWithin_child h (mem_children_of_child? hchild)
      rcases List.mem_cons.1 hi with heq | hi
      · exact hindex i heq.symm
      · exact ih hwithin hat hi

end Value

theorem Node.nodup_locations_children {node : Node} (h : node.value.isJson = true) :
    (node.children.map Node.location).Nodup := by
  have hmap : node.children.map Node.location =
      (node.value.children.map Prod.fst).map fun step => node.location ++ [step] := by
    unfold children child
    rw [List.map_map, List.map_map]
    rfl
  rw [hmap]
  refine (Value.nodup_children h).map fun step step' heq => ?_
  exact List.singleton_inj.1 (List.append_cancel_left heq)

/-- What is reached from the root of a document stands at its location, under the same root. -/
theorem Node.at?_of_reaches {data : Value} (hdata : data.isJson = true) {node : Node}
    (h : Reaches ⟨data, [], data⟩ node) :
    data.at? node.location = some node.value ∧ node.root = data := by
  induction h with
  | here => exact ⟨rfl, rfl⟩
  | down hreaches hchild ih =>
    obtain ⟨hat, hroot⟩ := ih
    have hjson : Node.IsJson ⟨data, [], data⟩ := ⟨hdata, hdata⟩
    have hparent := hreaches.preserves (fun _ ha _ hb => ha.child hb) hjson
    obtain ⟨step, value, hmem, rfl⟩ := mem_children_iff.1 hchild
    refine ⟨?_, hroot⟩
    rw [Node.child, Value.at?_append, hat, Option.bind_some, Value.at?,
      Value.child?_of_mem_children hparent.value hmem]
    rfl

end JsonPath
