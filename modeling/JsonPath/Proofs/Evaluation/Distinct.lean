import JsonPath.Proofs.Evaluation.Walk

/-!
# No node twice

A selector picks each child of a node once, so a query that goes from child to child finds no
location twice. A descendant segment comes to nodes that lie below one another. It may not be given
such nodes, but the segments before it lead to nodes of one depth, and of these none lies below
another. After it distinct locations are enough: all that follows lies the same number of steps
below, so two nodes from which one location is found stand at one location themselves.
-/

namespace JsonPath

namespace Node

/-- No two of the nodes stand at the same location. -/
def Distinct (nodes : List Node) : Prop := (nodes.map location).Nodup

theorem distinct_of_length_le {nodes : List Node} (h : nodes.length ≤ 1) : Distinct nodes :=
  match nodes, h with
  | [], _ => List.nodup_nil
  | [_], _ => List.nodup_singleton _

theorem distinct_sliced (node : Node) (start? stop? step? : Option Int) :
    Distinct (node.sliced start? stop? step?) := by
  unfold Distinct sliced
  split
  next items _ =>
    have hlocation {i : Int} {l : Location}
        (h : l ∈ (items[i.toNat]?.map (node.child (.index i))).map Node.location) :
        l = node.location ++ [.index i] := by
      obtain ⟨_, hchild, rfl⟩ := Option.map_eq_some_iff.1 h
      obtain ⟨value, -, rfl⟩ := Option.map_eq_some_iff.1 hchild
      rfl
    rw [List.map_filterMap]
    refine (Slice.nodup_indices items.length start? stop? step?).filterMap fun i i' l h h' => ?_
    have heq := (hlocation h).symm.trans (hlocation h')
    exact Step.index.inj (List.singleton_inj.1 (List.append_cancel_left heq))
  · exact List.nodup_nil

/-- The nodes stand at distinct locations below a node, at depths that are allowed. -/
structure Spread (depth : Nat → Prop) (node : Node) (found : List Node) : Prop where
  distinct : Distinct found
  below : ∀ n ∈ found, ∃ inner, depth inner.length ∧ n.location = node.location ++ inner

theorem Spread.mono {depth depth' : Nat → Prop} {node : Node} {found : List Node}
    (h : Spread depth node found) (himp : ∀ d, depth d → depth' d) : Spread depth' node found := by
  refine ⟨h.distinct, fun n hn => ?_⟩
  obtain ⟨inner, hinner, hlocation⟩ := h.below n hn
  exact ⟨inner, himp _ hinner, hlocation⟩

theorem spread_self (node : Node) : Spread (· = 0) node [node] :=
  ⟨List.nodup_singleton _, by simp⟩

/-- No location is both below the one node and below the other, at depths that are allowed. -/
def Apart (depth : Nat → Prop) (a b : Node) : Prop :=
  ∀ inner inner' : Location, depth inner.length → depth inner'.length →
    a.location ++ inner ≠ b.location ++ inner'

variable {nodes : List Node} {depth : Nat → Prop}

theorem Distinct.apart_of_eq (h : Distinct nodes) (d : Nat) : nodes.Pairwise (Apart (· = d)) := by
  refine (List.pairwise_map.1 h).imp fun {a b} hne inner inner' hinner hinner' heq => hne ?_
  exact (List.append_inj' heq (hinner.trans hinner'.symm)).1

/-- Of nodes of one depth none lies below another. -/
theorem Distinct.apart_of_depth (h : Distinct nodes) {d : Nat}
    (hdepth : ∀ n ∈ nodes, n.location.length = d) : nodes.Pairwise (Apart depth) := by
  refine (List.pairwise_map.1 h).imp_of_mem fun {a b} ha hb hne inner inner' _ _ heq => hne ?_
  exact (List.append_inj heq ((hdepth a ha).trans (hdepth b hb).symm)).1

end Node

open Node (Distinct Spread Apart)

variable {m : Type → Type} [Monad m] [LawfulMonad m]

/-- What is found from nodes that are apart is distinct. -/
theorem Yields.gather_spread {depth : Nat → Prop} {f : Node → m (List Node)} :
    ∀ {nodes : List Node}, nodes.Pairwise (Apart depth) →
      (∀ a ∈ nodes, Yields (f a) (Spread depth a)) →
      Yields (JsonPath.gather f nodes) fun found => Distinct found ∧
        ∀ n ∈ found, ∃ a ∈ nodes, ∃ inner, depth inner.length ∧ n.location = a.location ++ inner
  | [], _, _ => .pure ⟨List.nodup_nil, by simp⟩
  | a :: rest, hapart, h => by
    obtain ⟨ha, hrest⟩ := List.pairwise_cons.1 hapart
    obtain ⟨hfound, hmore⟩ := List.forall_mem_cons.1 h
    refine hfound.bind fun first hfirst => (gather_spread hrest hmore).bind
      fun more hmore => .pure ⟨?_, ?_⟩
    · unfold Distinct
      rw [List.map_append]
      refine List.Nodup.append hfirst.distinct hmore.1 fun location hl hl' => ?_
      obtain ⟨n, hn, rfl⟩ := List.mem_map.1 hl
      obtain ⟨n', hn', heq⟩ := List.mem_map.1 hl'
      obtain ⟨inner, hinner, hlocation⟩ := hfirst.below n hn
      obtain ⟨b, hb, inner', hinner', hlocation'⟩ := hmore.2 n' hn'
      exact ha b hb inner inner' hinner hinner' (hlocation.symm.trans (heq.symm.trans hlocation'))
    · intro n hn
      rcases List.mem_append.1 hn with hn | hn
      · exact ⟨a, .head _, hfirst.below n hn⟩
      · obtain ⟨b, hb, hbelow⟩ := hmore.2 n hn
        exact ⟨b, .tail _ hb, hbelow⟩

/-! ### Segments with one selector -/

section

variable {host : Host m} {depth : Nat → Prop} {follow : Node → m (List Node)} {node : Node}

/-- Whatever a selector is, it picks no child twice. -/
theorem Selector.select_distinct (h : node.value.isJson = true) (selector : Selector) :
    Yields (selector.select host node) Distinct := by
  have hchildren := Node.nodup_locations_children h
  cases selector with
  | name _ name => exact .pure (Node.distinct_of_length_le (length_named_le node name))
  | index _ index => exact .pure (Node.distinct_of_length_le (length_indexed_le node index))
  | wildcard => exact .pure hchildren
  | slice _ start? stop? step? => exact .pure (node.distinct_sliced start? stop? step?)
  | filter =>
    exact (Yields.keep_sublist _ _).mono fun kept hkept => hchildren.sublist (hkept.map _)

/-- What follows from the children that one selector picks is distinct, and one step deeper. -/
theorem selectEach_spread (h : node.value.isJson = true) {depth' : Nat → Prop}
    (hdepth : ∀ d, depth d → depth' (d + 1)) (selector : Selector)
    (hfollow : ∀ child : Node, child.value.isJson = true →
      Yields (follow child) (Spread depth child)) :
    Yields (selectEach host node follow [selector]) (Spread depth' node) := by
  have hlocation {child : Node} (hchild : child ∈ node.children) :
      ∃ step, child.location = node.location ++ [step] := by
    obtain ⟨step, value, -, rfl⟩ := Node.mem_children_iff.1 hchild
    exact ⟨step, rfl⟩
  refine ((Selector.select_distinct h selector).and (selector.select_yields node)).bind
    fun picked hpicked => ?_
  have hapart : picked.Pairwise (Apart depth) := by
    refine hpicked.1.apart_of_depth (d := node.location.length + 1) fun child hchild => ?_
    obtain ⟨step, hstep⟩ := hlocation (hpicked.2 child hchild)
    simp [hstep]
  refine (Yields.gather_spread hapart fun child hchild =>
    hfollow child (Node.isJson_of_mem_children h (hpicked.2 child hchild))).bind
      fun found hfound => ?_
  rw [selectEach, pure_bind, List.append_nil]
  refine .pure ⟨hfound.1, fun n hn => ?_⟩
  obtain ⟨child, hchild, inner, hinner, hn⟩ := hfound.2 n hn
  obtain ⟨step, hstep⟩ := hlocation (hpicked.2 child hchild)
  exact ⟨step :: inner, hdepth _ hinner, by rw [hn, hstep, List.append_assoc]; rfl⟩

/-- After a segment that goes to the children every location is one step deeper. -/
theorem Segment.apply_child_spread (h : node.value.isJson = true) {depth' : Nat → Prop}
    (hdepth : ∀ d, depth d → depth' (d + 1)) {token : Token} {selectors : List Selector}
    (hone : selectors.length = 1)
    (hfollow : ∀ child : Node, child.value.isJson = true →
      Yields (follow child) (Spread depth child)) :
    Yields ((Segment.child token selectors).apply host follow node) (Spread depth' node) := by
  obtain ⟨selector, rfl⟩ := List.length_eq_one_iff.1 hone
  exact selectEach_spread h hdepth selector hfollow

/-- What follows from the nodes of the walk may lie at any depth below the node where the walk
starts, but all of it has to lie at one depth below the children that are picked. -/
theorem Segment.apply_descendant_spread (h : node.value.isJson = true) {d : Nat} {token : Token}
    {selectors : List Selector} (hone : selectors.length = 1)
    (hfollow : ∀ child : Node, child.value.isJson = true →
      Yields (follow child) (Spread (· = d) child)) :
    Yields ((Segment.descendant token selectors).apply host follow node)
      (Spread (fun _ => True) node) := by
  obtain ⟨selector, rfl⟩ := List.length_eq_one_iff.1 hone
  have hapart : node.descendants.Pairwise (Apart (· = d + 1)) :=
    Distinct.apart_of_eq (Node.nodup_descendants h) (d + 1)
  refine (Yields.gather_spread hapart fun visited hvisited => ?_).mono fun found hfound => ?_
  · obtain ⟨inner, hat, -⟩ := (Node.mem_descendants_iff h).1 hvisited
    exact selectEach_spread (Value.isJson_of_at? h hat) (by simp) selector hfollow
  · refine ⟨hfound.1, fun n hn => ?_⟩
    obtain ⟨visited, hvisited, inner, -, hlocation⟩ := hfound.2 n hn
    obtain ⟨above, -, habove, -⟩ := (Node.mem_descendants_iff h).1 hvisited
    exact ⟨above ++ inner, trivial, by rw [hlocation, habove, List.append_assoc]⟩

end

/-! ### Queries -/

/-- Whether the segment goes to all nodes at and below the given ones. -/
def Segment.isDescendant : Segment → Bool
  | .child _ _ => false
  | .descendant _ _ => true

theorem not_isDescendant_of_countP {segment : Segment} {rest : List Segment}
    (h : (segment :: rest).countP Segment.isDescendant ≤ 1)
    (hsegment : segment.isDescendant = true) : ∀ other ∈ rest, other.isDescendant = false := by
  rw [List.countP_cons_of_pos hsegment] at h
  have hzero : rest.countP Segment.isDescendant = 0 := by omega
  simpa using List.countP_eq_zero.1 hzero

section

variable {host : Host m} {segments : List Segment}
  (hone : ∀ segment ∈ segments, segment.selectors.length = 1)

include hone

/-- From child to child all is found at one depth. -/
theorem depthFirst_spread_children
    (hchild : ∀ segment ∈ segments, segment.isDescendant = false) {node : Node}
    (h : node.value.isJson = true) :
    Yields (depthFirst host segments node) (Spread (· = segments.length) node) := by
  induction segments generalizing node with
  | nil => exact .pure node.spread_self
  | cons segment rest ih =>
    obtain ⟨hone, hones⟩ := List.forall_mem_cons.1 hone
    obtain ⟨hfirst, hrest⟩ := List.forall_mem_cons.1 hchild
    cases segment with
    | descendant => cases hfirst
    | child => exact Segment.apply_child_spread h (by simp) hone fun child => ih hones hrest

theorem depthFirst_spread (hdescendants : segments.countP Segment.isDescendant ≤ 1) {node : Node}
    (h : node.value.isJson = true) :
    Yields (depthFirst host segments node) (Spread (fun _ => True) node) := by
  induction segments generalizing node with
  | nil => exact .pure (node.spread_self.mono fun _ _ => trivial)
  | cons segment rest ih =>
    obtain ⟨hone, hones⟩ := List.forall_mem_cons.1 hone
    cases segment with
    | child =>
      rw [List.countP_cons_of_neg (by simp [Segment.isDescendant])] at hdescendants
      exact Segment.apply_child_spread h (fun _ _ => trivial) hone fun child =>
        ih hones hdescendants
    | descendant =>
      have hrest := not_isDescendant_of_countP hdescendants rfl
      exact Segment.apply_descendant_spread h hone fun child =>
        depthFirst_spread_children hones hrest

/-- Segment by segment the nodes stay distinct, and of one depth up to the descendant segment. -/
theorem breadthFirst_distinct (query : Query)
    (hdescendants : segments.countP Segment.isDescendant ≤ 1) {nodes : List Node}
    (hjson : ∀ n ∈ nodes, n.value.isJson = true) (hdistinct : Distinct nodes)
    (hdepth : (∃ d, ∀ n ∈ nodes, n.location.length = d) ∨
      ∀ segment ∈ segments, segment.isDescendant = false) :
    Yields (breadthFirst host query segments nodes) Distinct := by
  induction segments generalizing nodes with
  | nil => exact .pure hdistinct
  | cons segment rest ih =>
    obtain ⟨hone, hones⟩ := List.forall_mem_cons.1 hone
    have hself (child : Node) (_ : child.value.isJson = true) :
        Yields (pure [child] : m (List Node)) (Spread (· = 0) child) := .pure child.spread_self
    have hpicked : Yields (gather (segment.apply host fun picked => pure [picked]) nodes)
        fun picked => ∀ n ∈ picked, n.value.isJson = true :=
      .gather fun node hnode => segment.apply_yields fun child hchild => .pure (by
        simpa using hchild.preserves (fun _ ha _ hb => Node.isJson_of_mem_children ha hb)
          (hjson node hnode))
    have hcount := Nat.le_trans (List.sublist_cons_self segment rest).countP_le hdescendants
    cases segment with
    | child =>
      -- What is picked is one step below the nodes, so distinct nodes lead to distinct ones.
      refine ((Yields.gather_spread (hdistinct.apart_of_eq 1) fun node hnode =>
        Segment.apply_child_spread (hjson node hnode) (by simp) hone hself).and hpicked).bind
          fun picked hpicked => Yields.trivial.bind fun _ _ => ?_
      refine ih hones hcount hpicked.2 hpicked.1.1 (hdepth.imp ?_ ?_)
      · rintro ⟨d, hd⟩
        refine ⟨d + 1, fun n hn => ?_⟩
        obtain ⟨node, hnode, inner, hinner, hlocation⟩ := hpicked.1.2 n hn
        rw [hlocation, List.length_append, hd node hnode, hinner]
      · exact fun hall => (List.forall_mem_cons.1 hall).2
    | descendant =>
      -- What is picked may be at any depth below, but the nodes are all at one.
      have hrest := not_isDescendant_of_countP hdescendants rfl
      obtain ⟨d, hd⟩ := hdepth.resolve_right fun hall => by
        simp [Segment.isDescendant] at hall
      refine ((Yields.gather_spread (hdistinct.apart_of_depth hd) fun node hnode =>
        Segment.apply_descendant_spread (hjson node hnode) hone hself).and hpicked).bind
          fun picked hpicked => Yields.trivial.bind fun _ _ => ?_
      exact ih hones hcount hpicked.2 hpicked.1.1 (.inr hrest)

end

/-- A query that selects no node twice by its form finds nodes at distinct locations. -/
theorem Query.evaluate_distinct {host : Host m} {query : Query} {start : Node}
    (hone : ∀ segment ∈ query, segment.selectors.length = 1)
    (hdescendants : query.countP Segment.isDescendant ≤ 1) (h : start.value.isJson = true) :
    Yields (query.evaluate host start) Distinct := by
  refine Yields.trivial.bind fun traces _ => ?_
  cases traces with
  | true =>
    exact breadthFirst_distinct hone query hdescendants (by simpa using h)
      (List.nodup_singleton _) (.inl ⟨start.location.length, by simp⟩)
  | false => exact (depthFirst_spread hone hdescendants h).mono fun _ hfound => hfound.distinct

end JsonPath
