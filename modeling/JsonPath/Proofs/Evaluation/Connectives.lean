import JsonPath.Proofs.Evaluation.Eagerness
import JsonPath.Proofs.Evaluation.Locations

/-!
# Filters with connectives

A filter tests each child of a node on its own. If a test fails for no child, it is a truth value
for each of them, and the connectives take truth values as they are usually taken.
-/

namespace JsonPath

/-! ### Tests that do not fail -/

section

variable {α : Type} {test : α → Option Bool} {items kept : List α}

theorem keep_eq_filter {p : α → Bool} (h : ∀ a ∈ items, test a = some (p a)) :
    keep test items = some (items.filter p) := by
  induction items with
  | nil => rfl
  | cons a rest ih =>
    obtain ⟨ha, hrest⟩ := List.forall_mem_cons.1 h
    rw [keep, ha, ih hrest, List.filter_cons]
    rfl

/-- If all tests of a list come to an end, there is a truth value for each item. -/
theorem exists_of_keep (h : keep test items = some kept) :
    ∃ p : α → Bool, (∀ a ∈ items, test a = some (p a)) ∧ kept = items.filter p := by
  have hall : ∀ a ∈ items, (test a).isSome = true := by
    induction items generalizing kept with
    | nil => simp
    | cons a rest ih =>
      rw [keep] at h
      obtain ⟨b, hb, h⟩ := Option.bind_eq_some_iff.1 h
      obtain ⟨more, hmore, -⟩ := Option.bind_eq_some_iff.1 h
      exact List.forall_mem_cons.2 ⟨by rw [hb]; rfl, ih hmore⟩
  have hp : ∀ a ∈ items, test a = some ((test a).getD false) := by
    intro a ha
    obtain ⟨b, hb⟩ := Option.isSome_iff_exists.1 (hall a ha)
    rw [hb]
    rfl
  refine ⟨fun a => (test a).getD false, hp, ?_⟩
  rw [keep_eq_filter hp] at h
  exact (Option.some.inj h).symm

end

/-- Those of the nodes that meet a condition, in their order and each of them once. -/
structure Picks (all : List Node) (condition : Node → Prop) (picked : List Node) : Prop where
  sublist : picked.Sublist all
  nodup : picked.Nodup
  mem_iff : ∀ node, node ∈ picked ↔ node ∈ all ∧ condition node

theorem Picks.filter {all : List Node} {condition : Node → Prop} {p : Node → Bool}
    (hall : all.Nodup) (h : ∀ node ∈ all, p node = true ↔ condition node) :
    Picks all condition (all.filter p) where
  sublist := List.filter_sublist
  nodup := hall.filter p
  mem_iff node := by
    rw [List.mem_filter]
    exact and_congr_right (h node)

namespace Rules

variable (rules : Rules) {opening mark : Token}

/-- Whether an expression holds for a node under a root, if it does not fail. -/
def test (root : Value) (e : Expr) (node : Node) : Option Bool := do
  let result ← e.evaluate (rules.host false).blind node.value root
  return result.holds e

theorem find_selector (selector : Selector) (start : Node) :
    rules.find [.child opening [selector]] start =
      selector.select (rules.host false).blind start := by
  unfold find
  have hfollow : gather (depthFirst (rules.host false).blind []) = (pure : List Node → _) :=
    funext fun nodes => gather_pure nodes
  rw [depthFirst, Segment.apply, selectEach_eq_gather, gather_singleton, hfollow, bind_pure]

theorem find_wildcard (start : Node) :
    rules.find [.child opening [.wildcard mark]] start = some start.children := by
  rw [find_selector, Selector.select]
  rfl

theorem find_filter (e : Expr) (start : Node) :
    rules.find [.child opening [.filter mark e]] start =
      keep (rules.test start.root e) start.children := by
  rw [find_selector, Selector.select]
  rfl

/-! ### Connectives -/

variable {rules} {root : Value} {left right : Expr} {node : Node} {b c : Bool}

theorem test_negation (token : Token) (h : rules.test root left node = some b) :
    rules.test root (.negation token left) node = some (!b) := by
  unfold test at h ⊢
  obtain ⟨result, hresult, hb⟩ := Option.bind_eq_some_iff.1 h
  cases hb
  rw [Expr.evaluate, hresult]
  rfl

theorem test_conjunction (token : Token) (hleft : rules.test root left node = some b)
    (hright : rules.test root right node = some c) :
    rules.test root (.conjunction token left right) node = some (b && c) := by
  unfold test at hleft hright ⊢
  obtain ⟨first, hfirst, hb⟩ := Option.bind_eq_some_iff.1 hleft
  obtain ⟨second, hsecond, hc⟩ := Option.bind_eq_some_iff.1 hright
  have hholds : first.holds left = b := Option.some.inj hb
  cases hc
  rw [Expr.evaluate, hfirst, hsecond]
  simp only [Option.bind_eq_bind, Option.bind_some, hholds]
  cases b with
  | false => rfl
  | true => rfl

theorem test_disjunction (token : Token) (hleft : rules.test root left node = some b)
    (hright : rules.test root right node = some c) :
    rules.test root (.disjunction token left right) node = some (b || c) := by
  unfold test at hleft hright ⊢
  obtain ⟨first, hfirst, hb⟩ := Option.bind_eq_some_iff.1 hleft
  obtain ⟨second, hsecond, hc⟩ := Option.bind_eq_some_iff.1 hright
  have hholds : first.holds left = b := Option.some.inj hb
  cases hc
  rw [Expr.evaluate, hfirst, hsecond]
  simp only [Option.bind_eq_bind, Option.bind_some, hholds]
  cases b with
  | false => rfl
  | true => rfl

/-- Below a node of a document the connectives pick the complement, the intersection and the union
of what two expressions pick that fail nowhere. -/
theorem find_connectives {start : Node} (hstart : start.value.isJson = true) {ns ms : List Node}
    {opening' mark' : Token}
    (hleft : rules.find [.child opening [.filter mark left]] start = some ns)
    (hright : rules.find [.child opening' [.filter mark' right]] start = some ms)
    (t u n a o : Token) :
    ∃ others both either : List Node,
      rules.find [.child t [.filter u (.negation n left)]] start = some others ∧
      rules.find [.child t [.filter u (.conjunction a left right)]] start = some both ∧
      rules.find [.child t [.filter u (.disjunction o left right)]] start = some either ∧
      Picks start.children (fun node => node ∉ ns) others ∧
      Picks start.children (fun node => node ∈ ns ∧ node ∈ ms) both ∧
      Picks start.children (fun node => node ∈ ns ∨ node ∈ ms) either := by
  have hnodup := (Node.nodup_locations_children hstart).of_map _
  rw [find_filter] at hleft hright
  obtain ⟨p, hp, rfl⟩ := exists_of_keep hleft
  obtain ⟨q, hq, rfl⟩ := exists_of_keep hright
  refine ⟨start.children.filter fun node => !p node,
    start.children.filter fun node => p node && q node,
    start.children.filter fun node => p node || q node, ?_, ?_, ?_, ?_, ?_, ?_⟩
  · rw [find_filter]
    exact keep_eq_filter fun node hnode => test_negation n (hp node hnode)
  · rw [find_filter]
    exact keep_eq_filter fun node hnode => test_conjunction a (hp node hnode) (hq node hnode)
  · rw [find_filter]
    exact keep_eq_filter fun node hnode => test_disjunction o (hp node hnode) (hq node hnode)
  · refine .filter hnodup fun node hnode => ?_
    simp [hnode]
  · refine .filter hnodup fun node hnode => ?_
    simp [hnode]
  · refine .filter hnodup fun node hnode => ?_
    simp [hnode]

end Rules

end JsonPath
