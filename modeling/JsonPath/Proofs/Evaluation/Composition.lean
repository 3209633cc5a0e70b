import JsonPath.Proofs.Evaluation.Anchored
import JsonPath.Proofs.Evaluation.Eagerness

/-!
# Queries one after the other

What a query finds from a node depends on the value and the root of the node; its location only
comes before the locations of what is found. So to follow the second part of a query from a node
that the first part has found is to evaluate the second part on the value of the node, with the same
root.
-/

namespace JsonPath

/-- The node as it is found from further up. -/
def Node.under (location : Location) (node : Node) : Node :=
  { node with location := location ++ node.location }

/-! ### Selectors -/

namespace Node

variable (location : Location) (node : Node)

theorem child_under (step : Step) (value : Value) :
    (node.under location).child step value = (node.child step value).under location := by
  unfold child under
  rw [List.append_assoc]

theorem children_under :
    (node.under location).children = node.children.map (under location) := by
  unfold children
  rw [List.map_map]
  exact List.map_congr_left fun entry _ => node.child_under location entry.1 entry.2

theorem named_under (name : Text) :
    (node.under location).named name = (node.named name).map (under location) := by
  obtain ⟨value, place, root⟩ := node
  cases value with
  | object members =>
    unfold named under
    dsimp only
    cases Value.lookup? name members with
    | none => rfl
    | some value => exact congrArg ([·]) (child_under location ⟨_, place, root⟩ _ _)
  | _ => rfl

theorem indexed_under (index : Int) :
    (node.under location).indexed index = (node.indexed index).map (under location) := by
  obtain ⟨value, place, root⟩ := node
  unfold indexed under
  dsimp only
  cases value.items? with
  | none => rfl
  | some items =>
    dsimp only
    cases item? items index with
    | none => rfl
    | some entry => exact congrArg ([·]) (child_under location ⟨_, place, root⟩ _ _)

theorem sliced_under (start? stop? step? : Option Int) :
    (node.under location).sliced start? stop? step? =
      (node.sliced start? stop? step?).map (under location) := by
  obtain ⟨value, place, root⟩ := node
  unfold sliced under
  dsimp only
  cases value.items? with
  | none => rfl
  | some items =>
    dsimp only
    rw [List.map_filterMap]
    refine List.filterMap_congr fun index _ => ?_
    cases items[index.toNat]? with
    | none => rfl
    | some item => exact congrArg some (child_under location ⟨_, place, root⟩ _ _)

end Node

mutual

theorem Value.descendants_append (above : Location) : ∀ (value : Value) (location : Location),
    value.descendants (above ++ location) =
      (value.descendants location).map fun entry => (above ++ entry.1, entry.2)
  | .array items, location | .sequence _ items, location => by
    rw [Value.descendants, Value.descendants, List.map_cons,
      itemDescendants_append above items 0 location]
  | .object members, location => by
    rw [Value.descendants, Value.descendants, List.map_cons,
      memberDescendants_append above members location]
  | .null, _ | .boolean _, _ | .number _, _ | .string _, _ | .octets _, _ | .nothing, _ => rfl

theorem itemDescendants_append (above : Location) : ∀ (items : List Value) (place : Nat)
    (location : Location),
    itemDescendants (above ++ location) place items =
      (itemDescendants location place items).map fun entry => (above ++ entry.1, entry.2)
  | [], _, _ => rfl
  | item :: rest, place, location => by
    rw [itemDescendants, itemDescendants, List.map_append, List.append_assoc,
      Value.descendants_append above item, itemDescendants_append above rest]

theorem memberDescendants_append (above : Location) : ∀ (members : List (Text × Value))
    (location : Location),
    memberDescendants (above ++ location) members =
      (memberDescendants location members).map fun entry => (above ++ entry.1, entry.2)
  | [], _ => rfl
  | (name, value) :: rest, location => by
    rw [memberDescendants, memberDescendants, List.map_append, List.append_assoc,
      Value.descendants_append above value, memberDescendants_append above rest]

end

theorem Node.descendants_under (location : Location) (node : Node) :
    (node.under location).descendants = node.descendants.map (under location) := by
  have happend := node.value.descendants_append location node.location
  unfold descendants under
  dsimp only
  rw [happend, List.map_map, List.map_map]
  rfl

section

variable {m : Type → Type} [Monad m] [LawfulMonad m] {α β γ : Type}

theorem gather_map_right (f : α → m (List β)) (g : β → γ) (items : List α) :
    gather (fun a => List.map g <$> f a) items = List.map g <$> gather f items := by
  induction items with
  | nil => simp only [gather, map_pure, List.map_nil]
  | cons a rest ih =>
    simp only [gather, ih, map_bind, bind_map_left, map_pure, List.map_append]

theorem keep_map (test : β → m Bool) (g : α → β) (items : List α) :
    keep test (items.map g) = List.map g <$> keep (fun a => test (g a)) items := by
  induction items with
  | nil => simp only [keep, map_pure, List.map_nil]
  | cons a rest ih =>
    simp only [List.map_cons, keep, ih, map_bind, bind_map_left, map_pure]
    refine bind_congr fun kept => bind_congr fun more => ?_
    cases kept <;> rfl

variable {host : Host m} (location : Location)

theorem Selector.select_under (node : Node) (selector : Selector) :
    selector.select host (node.under location) =
      List.map (Node.under location) <$> selector.select host node := by
  cases selector with
  | name _ name => simp [Selector.select, Node.named_under]
  | index _ index => simp [Selector.select, Node.indexed_under]
  | wildcard _ => simp [Selector.select, Node.children_under]
  | slice _ start? stop? step? => simp [Selector.select, Node.sliced_under]
  | filter _ expression =>
    simp only [Selector.select, Node.children_under]
    exact keep_map _ _ _

variable {follow : Node → m (List Node)} (hfollow : ∀ node,
  follow (node.under location) = List.map (Node.under location) <$> follow node)

include hfollow

theorem selectEach_under (node : Node) (selectors : List Selector) :
    selectEach host (node.under location) follow selectors =
      List.map (Node.under location) <$> selectEach host node follow selectors := by
  rw [selectEach_eq_gather, selectEach_eq_gather, ← gather_map_right]
  congr 1
  funext selector
  rw [Selector.select_under, bind_map_left, map_bind]
  refine bind_congr fun picked => ?_
  rw [gather_map, ← gather_map_right]
  exact congrArg (gather · picked) (funext hfollow)

theorem Segment.apply_under (node : Node) (segment : Segment) :
    segment.apply host follow (node.under location) =
      List.map (Node.under location) <$> segment.apply host follow node := by
  cases segment with
  | child _ selectors => exact selectEach_under location hfollow node selectors
  | descendant _ selectors =>
    rw [Segment.apply, Segment.apply, Node.descendants_under, gather_map, ← gather_map_right]
    congr 1
    funext visited
    exact selectEach_under location hfollow visited selectors

omit hfollow in
theorem depthFirst_under : ∀ (segments : List Segment) (node : Node),
    depthFirst host segments (node.under location) =
      List.map (Node.under location) <$> depthFirst host segments node := by
  intro segments
  induction segments with
  | nil => simp [depthFirst]
  | cons segment rest ih => exact fun node => Segment.apply_under location ih node segment

end

/-! ### Evaluations -/

theorem gather_eq_ok {α β : Type} {f : α → Option (List β)} {g : α → List β} {items : List α}
    (h : ∀ a ∈ items, f a = some (g a)) : gather f items = some (items.flatMap g) := by
  induction items with
  | nil => rfl
  | cons a rest ih =>
    obtain ⟨ha, hrest⟩ := List.forall_mem_cons.1 h
    rw [gather, ha, ih hrest]
    rfl

/-- The start of an evaluation on the value of a node with its root. -/
theorem Node.IsAnchored.start_under {node : Node} {root : Value} (h : node.IsAnchored root) :
    (Node.start node.value (some root)).under node.location = node := by
  have hstart : Node.start node.value (some root) = ⟨node.value, [], root⟩ := by
    by_cases hnull : root = .null
    · rw [h.value_eq hnull, hnull]
      rfl
    · exact start_of_ne_null hnull node.value
  obtain ⟨value, location, root⟩ := node
  obtain rfl := h.root_eq
  rw [hstart, Node.under, List.append_nil]

namespace Rules

variable (rules : Rules) (first second : Query) (data : Value)

/-- What two queries find that are written one after the other, if nothing fails on the way. -/
theorem find_append :
    rules.find (first ++ second) (Node.start data none) =
      rules.find first (Node.start data none) >>= gather fun node =>
        List.map (Node.under node.location) <$>
          rules.find second (Node.start node.value (some data)) := by
  have hanchored : (Node.start data none).IsAnchored data := (Node.IsAnchored.start data none).1
  unfold find
  rw [depthFirst_append]
  refine (depthFirst_yields first _).congr _ _ fun nodes hnodes => gather_congr fun node hnode => ?_
  have hnode : node.IsAnchored data := hanchored.reaches (hnodes node hnode)
  -- A null that stands for no root does no harm: nothing but null is found under it.
  rw [← depthFirst_under, hnode.start_under]

theorem find_append_eq_some {nodes : List Node} {found : Node → List Node}
    (hfirst : rules.find first (Node.start data none) = some nodes)
    (hsecond : ∀ node ∈ nodes,
      rules.find second (Node.start node.value (some data)) = some (found node)) :
    rules.find (first ++ second) (Node.start data none) =
      some (nodes.flatMap fun node => (found node).map (Node.under node.location)) := by
  rw [find_append, hfirst]
  refine gather_eq_ok fun node hnode => ?_
  rw [hsecond node hnode]
  rfl

end Rules

end JsonPath
