import JsonPath.Proofs.Evaluation.Composition
import JsonPath.Proofs.Evaluation.Locations

/-!
# The descendant walk

The walk goes to a value and then through its children in turn, so what it does below a value is
what it does from each of the children, behind the step to the child. All that is said here follows
from this one equation by going down a location: the walk comes once to each location, with the
value that stands there, and of two locations that part at some value it comes first to the one
whose child of this value stands first.
-/

namespace JsonPath

/-- Of two elements of a list without repetitions one stands before the other. -/
theorem pair_sublist_iff_not {α : Type} {l : List α} {a b : α} (h : l.Nodup) (ha : a ∈ l)
    (hb : b ∈ l) (hne : a ≠ b) : [a, b].Sublist l ↔ ¬ [b, a].Sublist l := by
  induction l with
  | nil => cases ha
  | cons c l ih =>
    obtain ⟨hc, hl⟩ := List.nodup_cons.1 h
    have hnot {x y : α} (hx : x ∉ l) : ¬ [x, y].Sublist l := fun h => hx (h.subset (by simp))
    have hnot' {x y : α} (hy : y ∉ l) : ¬ [x, y].Sublist l := fun h => hy (h.subset (by simp))
    simp only [List.cons_sublist_cons', List.singleton_sublist]
    rcases List.mem_cons.1 ha with rfl | hal <;> rcases List.mem_cons.1 hb with rfl | hbl
    · exact absurd rfl hne
    · simp [hnot hc, hnot' hc, hne.symm, hbl]
    · simp [hnot hc, hnot' hc, hne, hal]
    · have hac : a ≠ c := fun heq => hc (heq ▸ hal)
      have hbc : b ≠ c := fun heq => hc (heq ▸ hbl)
      simpa [hac, hbc] using ih hl hal hbl

theorem itemDescendants_eq_flatMap (location : Location) (place : Nat) (items : List Value) :
    itemDescendants location place items =
      (indexed place items).flatMap fun entry => entry.2.descendants (location ++ [entry.1]) := by
  induction items generalizing place with
  | nil => rfl
  | cons item rest ih => rw [itemDescendants, ih, indexed, List.flatMap_cons]

theorem memberDescendants_eq_flatMap (location : Location) (members : List (Text × Value)) :
    memberDescendants location members =
      (members.map fun member => (Step.name member.1, member.2)).flatMap fun entry =>
        entry.2.descendants (location ++ [entry.1]) := by
  induction members with
  | nil => rfl
  | cons member rest ih => rw [memberDescendants, ih, List.map_cons, List.flatMap_cons]

namespace Value

/-- What the walk comes to from a value, each with the location below it. -/
def walk (value : Value) : List (Location × Value) := value.descendants []

theorem descendants_eq_map_walk (value : Value) (location : Location) :
    value.descendants location = value.walk.map fun entry => (location ++ entry.1, entry.2) := by
  have happend := value.descendants_append location []
  rwa [List.append_nil] at happend

/-- The walk goes to the value itself, and then through its children in turn. -/
theorem walk_eq (value : Value) :
    value.walk = ([], value) :: value.children.flatMap fun child =>
      child.2.walk.map fun entry => (child.1 :: entry.1, entry.2) := by
  have hbelow (children : List (Step × Value)) :
      (children.flatMap fun entry => entry.2.descendants ([] ++ [entry.1])) =
        children.flatMap fun child =>
          child.2.walk.map fun entry => (child.1 :: entry.1, entry.2) :=
    List.flatMap_congr fun child _ => descendants_eq_map_walk child.2 [child.1]
  unfold walk
  cases value with
  | array items | sequence _ items =>
    rw [descendants, itemDescendants_eq_flatMap, hbelow]
    rfl
  | object members =>
    rw [descendants, memberDescendants_eq_flatMap, hbelow]
    rfl
  | null | boolean | number | string | octets | nothing => rfl

/-- The locations in the order in which the walk comes to them. -/
def locations (value : Value) : List Location := value.walk.map Prod.fst

theorem locations_eq (value : Value) :
    value.locations = [] :: value.children.flatMap fun child =>
      child.2.locations.map (child.1 :: ·) := by
  unfold locations
  rw [walk_eq, List.map_cons, List.map_flatMap]
  simp only [List.map_map]
  rfl

variable {value child parent : Value} {location rest rest' : Location} {step step' : Step}

/-- The walk comes to every location in the value, with the value that stands there, and to nothing
else. -/
theorem mem_walk_iff (h : value.isJson = true) {found : Value} :
    (location, found) ∈ value.walk ↔ value.at? location = some found := by
  induction location generalizing value with
  | nil =>
    rw [walk_eq]
    simp [at?, eq_comm]
  | cons step rest ih =>
    rw [walk_eq, at?, Option.bind_eq_some_iff]
    simp only [List.mem_cons, Prod.mk.injEq, reduceCtorEq, false_and, false_or, List.mem_flatMap,
      List.mem_map, Prod.exists, List.cons.injEq]
    constructor
    · rintro ⟨_, child, hchild, _, _, hmem, ⟨rfl, rfl⟩, rfl⟩
      exact ⟨child, child?_of_mem_children h hchild,
        (ih (isJson_of_mem_children h hchild)).1 hmem⟩
    · rintro ⟨child, hchild, hat⟩
      have hmem := mem_children_of_child? hchild
      exact ⟨step, child, hmem, rest, found, (ih (isJson_of_mem_children h hmem)).2 hat,
        ⟨rfl, rfl⟩, rfl⟩

theorem mem_locations_iff (h : value.isJson = true) :
    location ∈ value.locations ↔ (value.at? location).isSome = true := by
  rw [locations, List.mem_map, Option.isSome_iff_exists]
  constructor
  · rintro ⟨⟨_, found⟩, hmem, rfl⟩
    exact ⟨found, (mem_walk_iff h).1 hmem⟩
  · rintro ⟨found, hat⟩
    exact ⟨(location, found), (mem_walk_iff h).2 hat, rfl⟩

theorem at?_cons_of_mem (h : value.isJson = true) (hmem : (step, child) ∈ value.children) :
    value.at? (step :: rest) = child.at? rest := by
  rw [at?, child?_of_mem_children h hmem]
  rfl

theorem mem_steps_of_at? (h : (value.at? (step :: rest)).isSome = true) :
    step ∈ value.children.map Prod.fst := by
  obtain ⟨found, hat⟩ := Option.isSome_iff_exists.1 h
  obtain ⟨child, hchild, -⟩ := Option.bind_eq_some_iff.1 hat
  exact List.mem_map.2 ⟨_, mem_children_of_child? hchild, rfl⟩

theorem sizeOf_lt_of_mem_children (h : (step, child) ∈ value.children) :
    sizeOf child < sizeOf value := by
  have hitems {items : List Value} (h : (step, child) ∈ indexed 0 items) :
      sizeOf child < sizeOf items := by
    obtain ⟨n, hn, -⟩ := mem_indexed.1 h
    exact List.sizeOf_lt_of_mem (List.mem_of_getElem? hn)
  cases value with
  | array items =>
    have hlt := hitems h
    simp only [array.sizeOf_spec]
    omega
  | sequence form items =>
    have hlt := hitems h
    simp only [sequence.sizeOf_spec]
    omega
  | object members =>
    obtain ⟨⟨name, _⟩, hmember, heq⟩ := List.mem_map.1 h
    cases heq
    have hlt := List.sizeOf_lt_of_mem hmember
    simp only [object.sizeOf_spec, Prod.mk.sizeOf_spec] at hlt ⊢
    omega
  | null | boolean | number | string | octets | nothing => cases h

/-- What passes from the children of a value to the value holds of all values. -/
theorem induction_on_children {P : Value → Prop}
    (h : ∀ value : Value, (∀ step child, (step, child) ∈ value.children → P child) → P value)
    (value : Value) : P value := by
  induction hsize : sizeOf value using Nat.strongRecOn generalizing value with
  | ind size ih =>
    refine h value fun step child hmem => ?_
    have hlt := sizeOf_lt_of_mem_children hmem
    exact ih _ (hsize ▸ hlt) child rfl

/-- The walk comes to no location twice. -/
theorem nodup_locations (h : value.isJson = true) : value.locations.Nodup := by
  induction value using induction_on_children with
  | h value ih =>
    rw [locations_eq]
    refine List.nodup_cons.2 ⟨by simp, List.nodup_flatMap.2 ⟨fun child hchild => ?_, ?_⟩⟩
    · have hnodup := ih child.1 child.2 hchild (isJson_of_mem_children h hchild)
      exact hnodup.map fun _ _ heq => (List.cons.inj heq).2
    · -- Behind the steps to two children no two locations are the same.
      have hsteps := List.pairwise_map.1 (nodup_children h)
      refine hsteps.imp fun {a b} hne => ?_
      intro location hlocation hlocation'
      obtain ⟨_, -, rfl⟩ := List.mem_map.1 hlocation
      obtain ⟨_, -, heq⟩ := List.mem_map.1 hlocation'
      exact hne (List.cons.inj heq).1.symm

/-! ### The order of the walk -/

/-- The walk below some children is a part of the whole walk. -/
theorem locations_children_sublist {children : List (Step × Value)}
    (h : children.Sublist value.children) :
    (children.flatMap fun child => child.2.locations.map (child.1 :: ·)).Sublist
      value.locations := by
  rw [locations_eq value]
  exact .cons _ (h.flatMap _)

/-- So is the walk below whatever stands at a location. -/
theorem locations_sublist (h : value.at? location = some parent) :
    (parent.locations.map (location ++ ·)).Sublist value.locations := by
  induction location generalizing value with
  | nil =>
    cases h
    simp
  | cons step rest ih =>
    obtain ⟨child, hchild, hat⟩ := Option.bind_eq_some_iff.1 h
    have hmem := List.singleton_sublist.2 (mem_children_of_child? hchild)
    have hsublist := (ih hat).map (step :: ·)
    rw [List.map_map] at hsublist
    exact hsublist.trans (by simpa using locations_children_sublist hmem)

theorem isJson_of_at? (hvalue : value.isJson = true) (h : value.at? location = some parent) :
    parent.isJson = true := by
  induction location generalizing value with
  | nil =>
    cases h
    exact hvalue
  | cons step rest ih =>
    obtain ⟨child, hchild, hat⟩ := Option.bind_eq_some_iff.1 h
    exact ih (isJson_of_mem_children hvalue (mem_children_of_child? hchild)) hat

/-- In the walk below a value two locations come as they do in the whole walk. -/
theorem pair_sublist_locations_iff (hvalue : value.isJson = true)
    (h : value.at? location = some parent) {a b : Location}
    (ha : (parent.at? a).isSome = true) (hb : (parent.at? b).isSome = true) (hne : a ≠ b) :
    [location ++ a, location ++ b].Sublist value.locations ↔ [a, b].Sublist parent.locations := by
  have hparent := isJson_of_at? hvalue h
  have hmem := (mem_locations_iff hparent).2 ha
  have hmem' := (mem_locations_iff hparent).2 hb
  have hinto {a b : Location} (hab : [a, b].Sublist parent.locations) :
      [location ++ a, location ++ b].Sublist value.locations :=
    (hab.map (location ++ ·)).trans (locations_sublist h)
  refine ⟨fun hab => ?_, hinto⟩
  have hsublist := (locations_sublist h).subset
  rw [pair_sublist_iff_not (nodup_locations hparent) hmem hmem' hne]
  intro hba
  exact (pair_sublist_iff_not (nodup_locations hvalue) (hsublist (List.mem_map_of_mem hmem))
    (hsublist (List.mem_map_of_mem hmem')) (by simpa using hne)).1 hab (hinto hba)

/-- A value comes before everything below it. -/
theorem nil_sublist_locations (hvalue : value.isJson = true)
    (h : (value.at? (step :: rest)).isSome = true) :
    [[], step :: rest].Sublist value.locations := by
  have hmem := (mem_locations_iff hvalue).2 h
  rw [locations_eq] at hmem ⊢
  rcases List.mem_cons.1 hmem with heq | hmem
  · cases heq
  · exact (List.singleton_sublist.2 hmem).cons_cons []

/-- What is below one child comes before what is below another if the one child stands first. -/
theorem sublist_locations_iff (hvalue : value.isJson = true)
    (h : (value.at? (step :: rest)).isSome = true)
    (h' : (value.at? (step' :: rest')).isSome = true) (hne : step ≠ step') :
    [step :: rest, step' :: rest'].Sublist value.locations ↔
      [step, step'].Sublist (value.children.map Prod.fst) := by
  have hinto {step step' : Step} {rest rest' : Location}
      (h : (value.at? (step :: rest)).isSome = true)
      (h' : (value.at? (step' :: rest')).isSome = true)
      (hsteps : [step, step'].Sublist (value.children.map Prod.fst)) :
      [step :: rest, step' :: rest'].Sublist value.locations := by
    obtain ⟨children, hchildren, heq⟩ := List.sublist_map_iff.1 hsteps
    match children, heq with
    | [(_, child), (_, child')], rfl =>
      have hmem := hchildren.subset (.head _)
      have hmem' := hchildren.subset (.tail _ (.head _))
      rw [at?_cons_of_mem hvalue hmem,
        ← mem_locations_iff (isJson_of_mem_children hvalue hmem)] at h
      rw [at?_cons_of_mem hvalue hmem',
        ← mem_locations_iff (isJson_of_mem_children hvalue hmem')] at h'
      have hpair := (List.singleton_sublist.2 (List.mem_map_of_mem (f := (step :: ·)) h)).append
        (List.singleton_sublist.2 (List.mem_map_of_mem (f := (step' :: ·)) h'))
      exact hpair.trans (by simpa using locations_children_sublist hchildren)
  refine ⟨fun hab => ?_, hinto h h'⟩
  rw [pair_sublist_iff_not (nodup_children hvalue) (mem_steps_of_at? h) (mem_steps_of_at? h') hne]
  intro hba
  exact (pair_sublist_iff_not (nodup_locations hvalue) ((mem_locations_iff hvalue).2 h)
    ((mem_locations_iff hvalue).2 h') (by simp [hne])).1 hab (hinto h' h hba)

end Value

/-! ### Descendants of a node -/

namespace Node

variable {node n : Node}

theorem locations_descendants (node : Node) :
    node.descendants.map Node.location = node.value.locations.map (node.location ++ ·) := by
  unfold descendants Value.locations
  rw [Value.descendants_eq_map_walk, List.map_map, List.map_map, List.map_map]
  rfl

theorem mem_descendants_iff (h : node.value.isJson = true) : n ∈ node.descendants ↔
    ∃ inner, node.value.at? inner = some n.value ∧ n.location = node.location ++ inner ∧
      n.root = node.root := by
  unfold descendants
  rw [Value.descendants_eq_map_walk, List.map_map, List.mem_map]
  obtain ⟨value, location, root⟩ := n
  simp only [Function.comp_apply, Node.mk.injEq, Prod.exists, Value.mem_walk_iff h]
  constructor
  · rintro ⟨inner, _, hat, rfl, rfl, rfl⟩
    exact ⟨inner, hat, rfl, rfl⟩
  · rintro ⟨inner, hat, rfl, rfl⟩
    exact ⟨inner, value, hat, rfl, rfl, rfl⟩

theorem nodup_descendants (h : node.value.isJson = true) :
    (node.descendants.map Node.location).Nodup := by
  rw [locations_descendants]
  exact (Value.nodup_locations h).map (List.append_right_injective _)

theorem pair_sublist_descendants_iff (a b : Location) :
    [node.location ++ a, node.location ++ b].Sublist (node.descendants.map Node.location) ↔
      [a, b].Sublist node.value.locations := by
  rw [locations_descendants]
  refine ⟨fun h => ?_, fun h => h.map (node.location ++ ·)⟩
  obtain ⟨inner, hinner, heq⟩ := List.sublist_map_iff.1 h
  have hpair : [a, b].map (node.location ++ ·) = inner.map (node.location ++ ·) := heq
  rwa [List.map_injective_iff.2 (List.append_right_injective _) hpair]

/-- The children of all nodes of the walk are the nodes of the walk but the first. -/
theorem mem_flatMap_children_iff (h : node.value.isJson = true) :
    n ∈ node.descendants.flatMap children ↔
      ∃ inner, inner ≠ [] ∧ node.value.at? inner = some n.value ∧
        n.location = node.location ++ inner ∧ n.root = node.root := by
  have hchild {inner : Location} {parent child : Value} {step : Step}
      (hat : node.value.at? inner = some parent) :
      node.value.at? (inner ++ [step]) = some child ↔ parent.child? step = some child := by
    rw [Value.at?_append, hat, Option.bind_some, Value.at?]
    cases parent.child? step <;> simp [Value.at?]
  rw [List.mem_flatMap]
  constructor
  · rintro ⟨visited, hvisited, hn⟩
    obtain ⟨inner, hat, hlocation, hroot⟩ := (mem_descendants_iff h).1 hvisited
    obtain ⟨step, value, hmem, rfl⟩ := mem_children_iff.1 hn
    have hfound := Value.child?_of_mem_children (Value.isJson_of_at? h hat) hmem
    exact ⟨inner ++ [step], by simp, (hchild hat).2 hfound,
      by rw [child, hlocation, List.append_assoc], hroot⟩
  · rintro ⟨inner, hne, hat, hlocation, hroot⟩
    obtain ⟨above, step, rfl⟩ := (List.eq_nil_or_concat inner).resolve_left hne
    rw [List.concat_eq_append] at hat hlocation
    obtain ⟨parent, hparent, -⟩ := Option.bind_eq_some_iff.1 ((Value.at?_append ..).symm.trans hat)
    have hmem := Value.mem_children_of_child? ((hchild hparent).1 hat)
    refine ⟨⟨parent, node.location ++ above, node.root⟩, (mem_descendants_iff h).2
      ⟨above, hparent, rfl, rfl⟩, mem_children_iff.2 ⟨step, n.value, hmem, ?_⟩⟩
    obtain ⟨value, location, root⟩ := n
    obtain rfl : location = node.location ++ (above ++ [step]) := hlocation
    cases hroot
    rw [child, List.append_assoc]

end Node

end JsonPath
