import JsonPath.Proofs.Evaluation.Checked
import JsonPath.Proofs.Evaluation.Nodes

/-!
# What an evaluation finds

Whatever the host does, and in whatever monad it does it, an evaluation finds nothing but nodes that
are reached from its start by going from child to child. So all that passes on to children, such as
the root, holds of what is found.
-/

namespace JsonPath

variable {m : Type → Type} [Monad m] {α β : Type}

/-- Whatever follows the computation meets only results with the property: two continuations that
agree on these cannot be told apart. -/
structure Yields (x : m α) (post : α → Prop) : Prop where
  congr : ∀ {β : Type} (f g : α → m β), (∀ a, post a → f a = g a) → x >>= f = x >>= g

namespace Yields

variable {x : m α} {post post' : α → Prop}

theorem mono (h : Yields x post) (himp : ∀ a, post a → post' a) : Yields x post' :=
  ⟨fun f g hfg => h.congr f g fun a ha => hfg a (himp a ha)⟩

theorem trivial : Yields x fun _ => True :=
  ⟨fun _ _ hfg => congrArg (x >>= ·) (funext fun a => hfg a True.intro)⟩

theorem and (h : Yields x post) (h' : Yields x post') :
    Yields x fun a => post a ∧ post' a := by
  classical
  refine ⟨fun f g hfg => ?_⟩
  -- The one continuation is exchanged for the other on part of the results at a time.
  have hfirst := h.congr f (fun a => if post a then f a else g a) fun a ha => (if_pos ha).symm
  refine hfirst.trans (h'.congr _ g fun a ha' => ?_)
  split
  next ha => exact hfg a ⟨ha, ha'⟩
  · rfl

variable [LawfulMonad m]

theorem pure {a : α} (h : post a) : Yields (Pure.pure a : m α) post := by
  refine ⟨fun f g hfg => ?_⟩
  rw [pure_bind, pure_bind, hfg a h]

theorem bind {f : α → m β} {post' : β → Prop} (h : Yields x post)
    (hf : ∀ a, post a → Yields (f a) post') : Yields (x >>= f) post' := by
  refine ⟨fun g g' hgg => ?_⟩
  rw [bind_assoc, bind_assoc]
  exact h.congr _ _ fun a ha => (hf a ha).congr g g' hgg

/-- Results are made of results. -/
theorem gather {P : β → Prop} {f : α → m (List β)} : ∀ {items : List α},
    (∀ a ∈ items, Yields (f a) fun found => ∀ b ∈ found, P b) →
      Yields (JsonPath.gather f items) fun found => ∀ b ∈ found, P b
  | [], _ => pure (by simp)
  | a :: rest, h => by
    obtain ⟨ha, hrest⟩ := List.forall_mem_cons.1 h
    refine ha.bind fun first hfirst => (gather hrest).bind fun more hmore => pure ?_
    simp only [List.forall_mem_append]
    exact ⟨hfirst, hmore⟩

theorem keep_sublist (test : α → m Bool) : ∀ items : List α,
    Yields (JsonPath.keep test items) fun kept => kept.Sublist items
  | [] => pure (.refl [])
  | a :: rest => by
    refine trivial.bind fun kept _ => (keep_sublist test rest).bind fun more hmore => pure ?_
    cases kept with
    | true => exact hmore.cons_cons a
    | false => exact hmore.cons a

/-- Nothing is kept that was not there. -/
theorem keep (test : α → m Bool) (items : List α) :
    Yields (JsonPath.keep test items) fun kept => ∀ a ∈ kept, a ∈ items :=
  (keep_sublist test items).mono fun _ hkept _ ha => hkept.subset ha

end Yields

/-- The property holds of whatever a computation with the registered functions comes to. -/
theorem Run.of_yields {x : Run α} {post : α → Prop} (h : Yields x post)
    {workspace after : Workspace} {a : α} (hx : x.run.run workspace = (.ok a, after)) : post a := by
  have heq : (x >>= fun _ => Pure.pure True) = x >>= fun a => Pure.pure (post a) :=
    h.congr _ _ fun a ha => by rw [eq_true ha]
  have hpost : (Except.ok (ε := Fault) True, after) = (.ok (post a), after) := calc
    _ = (x >>= fun _ => Pure.pure True).run.run workspace := (bind_ok hx).symm
    _ = (x >>= fun a => Pure.pure (post a)).run.run workspace := by rw [heq]
    _ = _ := bind_ok hx
  simpa using hpost

variable [LawfulMonad m] {host : Host m}

open Node (Reaches)

theorem Selector.select_yields (node : Node) (selector : Selector) :
    Yields (selector.select host node) fun picked => ∀ n ∈ picked, n ∈ node.children := by
  cases selector with
  | name => exact .pure fun _ h => Node.named_subset h
  | index => exact .pure fun _ h => Node.indexed_subset h
  | wildcard => exact .pure fun _ h => h
  | slice => exact .pure fun _ h => Node.sliced_subset h
  | filter => exact .keep _ _

section

variable {P : Node → Prop} {follow : Node → m (List Node)}

theorem selectEach_yields {node : Node}
    (hfollow : ∀ child ∈ node.children, Yields (follow child) fun found => ∀ n ∈ found, P n) :
    ∀ selectors : List Selector,
      Yields (selectEach host node follow selectors) fun found => ∀ n ∈ found, P n := by
  intro selectors
  induction selectors with
  | nil => exact .pure (by simp)
  | cons selector rest ih =>
    refine (selector.select_yields node).bind fun picked hpicked => ?_
    refine (Yields.gather fun child hchild => hfollow child (hpicked child hchild)).bind
      fun first hfirst => ih.bind fun more hmore => .pure ?_
    simp only [List.forall_mem_append]
    exact ⟨hfirst, hmore⟩

theorem Segment.apply_yields {node : Node} (segment : Segment)
    (hfollow : ∀ child, Reaches node child → Yields (follow child) fun found => ∀ n ∈ found, P n) :
    Yields (segment.apply host follow node) fun found => ∀ n ∈ found, P n := by
  cases segment with
  | child _ selectors => exact selectEach_yields (fun child h => hfollow child (.down .here h)) _
  | descendant _ selectors =>
    exact .gather fun visited hvisited => selectEach_yields (fun child h =>
      hfollow child (.down (Node.reaches_of_mem_nodeDescendants hvisited) h)) _

end

theorem depthFirst_yields : ∀ (segments : List Segment) (node : Node),
    Yields (depthFirst host segments node) fun found => ∀ n ∈ found, Reaches node n := by
  intro segments
  induction segments with
  | nil => exact fun node => .pure (by simpa using Reaches.here)
  | cons segment rest ih =>
    refine fun node => segment.apply_yields fun child hchild => ?_
    exact (ih child).mono fun _ hfound n hn => hchild.trans (hfound n hn)

theorem breadthFirst_yields (query : Query) : ∀ (segments : List Segment) (nodes : List Node),
    Yields (breadthFirst host query segments nodes) fun found =>
      ∀ n ∈ found, ∃ node ∈ nodes, Reaches node n := by
  intro segments
  induction segments with
  | nil => exact fun nodes => .pure fun n hn => ⟨n, hn, .here⟩
  | cons segment rest ih =>
    intro nodes
    have hpicked :
        Yields (gather (fun node => segment.apply host (fun n => Pure.pure [n]) node) nodes)
        fun picked => ∀ n ∈ picked, ∃ node ∈ nodes, Reaches node n :=
      .gather fun node hnode => segment.apply_yields fun child hchild =>
        .pure (by simpa using ⟨node, hnode, hchild⟩)
    refine hpicked.bind fun picked hpicked => Yields.trivial.bind fun _ _ => ?_
    refine (ih picked).mono fun found hfound n hn => ?_
    obtain ⟨child, hchild, hn⟩ := hfound n hn
    obtain ⟨node, hnode, hreaches⟩ := hpicked child hchild
    exact ⟨node, hnode, hreaches.trans hn⟩

/-- Nothing is found but what is reached from the start. -/
theorem Query.evaluate_yields (query : Query) (start : Node) :
    Yields (query.evaluate host start) fun found => ∀ n ∈ found, Reaches start n := by
  refine Yields.trivial.bind fun traces _ => ?_
  cases traces with
  | true => exact (breadthFirst_yields query query [start]).mono (by simp)
  | false => exact depthFirst_yields query start

end JsonPath
