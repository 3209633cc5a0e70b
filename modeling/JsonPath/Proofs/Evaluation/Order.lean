import JsonPath.Proofs.Evaluation.Related
import Mathlib.Control.Basic

/-!
# The order of a search

Depth first or breadth first, a search makes the same steps in two orders. Where nothing but failure
can happen in a step, and one failure is like another, the order cannot be seen: both searches find
the same nodes in the same order, or both fail.
-/

namespace JsonPath

variable {α β γ : Type}

/-! ### Results one after the other -/

section

variable {m : Type → Type} [Monad m]

theorem gather_map (f : β → m (List γ)) (g : α → β) (items : List α) :
    gather f (items.map g) = gather (fun a => f (g a)) items := by
  induction items with
  | nil => rfl
  | cons item items ih => rw [List.map_cons, gather, gather, ih]

variable [LawfulMonad m]

theorem gather_append (f : α → m (List β)) (items more : List α) :
    gather f (items ++ more) = do
      let first ← gather f items
      let rest ← gather f more
      return first ++ rest := by
  induction items with
  | nil => simp only [gather, List.nil_append, pure_bind, bind_pure]
  | cons item items ih =>
    simp only [List.cons_append, gather, ih, bind_assoc, pure_bind, List.append_assoc]

theorem gather_flatMap (f : β → m (List γ)) (g : α → List β) (items : List α) :
    gather f (items.flatMap g) = gather (fun a => gather f (g a)) items := by
  induction items with
  | nil => rfl
  | cons item items ih => rw [List.flatMap_cons, gather_append, ih, gather]

theorem gather_pure (items : List α) : gather (m := m) (fun a => pure [a]) items = pure items := by
  induction items with
  | nil => rfl
  | cons item items ih => simp [gather, ih]

theorem gather_singleton (f : α → m (List β)) (a : α) : gather f [a] = f a := by
  simp [gather]

theorem selectEach_eq_gather (host : Host m) (node : Node) (follow : Node → m (List Node))
    (selectors : List Selector) :
    selectEach host node follow selectors =
      gather (fun selector => selector.select host node >>= gather follow) selectors := by
  induction selectors with
  | nil => rfl
  | cons selector rest ih => simp [selectEach, gather, ih]

end

/-! ### Steps that commute -/

theorem gather_bind (f : α → Option (List β)) (g : β → Option (List γ)) (items : List α) :
    gather (fun a => f a >>= gather g) items = gather f items >>= gather g := by
  induction items with
  | nil => rfl
  | cons item items ih =>
    calc gather (fun a => f a >>= gather g) (item :: items)
      _ = (do
          let first ← f item
          let found ← gather g first
          let rest ← gather f items
          let more ← gather g rest
          return found ++ more) := by simp only [gather, ih, bind_assoc]
      _ = (do
          let first ← f item
          let rest ← gather f items
          let found ← gather g first
          let more ← gather g rest
          return found ++ more) := by
        -- Here the order changes, and it matters that all failures are the same.
        refine bind_congr fun first => ?_
        exact Option.bind_comm (gather g first) (gather f items)
      _ = gather f (item :: items) >>= gather g := by
        simp only [gather, gather_append, bind_assoc, pure_bind]

variable {host : Host Option}

theorem Segment.apply_bind (follow : Node → Option (List Node)) (node : Node) (segment : Segment) :
    segment.apply host follow node =
      segment.apply host (fun picked => return [picked]) node >>= gather follow := by
  have heach (visited : Node) (selectors : List Selector) :
      selectEach host visited follow selectors =
        selectEach host visited (fun picked => return [picked]) selectors >>= gather follow := by
    have hpure : gather (fun picked : Node => (return [picked] : Option _)) = pure :=
      funext gather_pure
    simp only [selectEach_eq_gather, hpure, bind_pure]
    exact gather_bind _ _ _
  cases segment with
  | child _ selectors => exact heach node selectors
  | descendant _ selectors =>
    simp only [Segment.apply, heach]
    exact gather_bind _ _ _

/-- The second part of a query is followed from all that the first one finds. -/
theorem depthFirst_append (first second : List Segment) (node : Node) :
    depthFirst host (first ++ second) node =
      depthFirst host first node >>= gather (depthFirst host second) := by
  induction first generalizing node with
  | nil => simp [depthFirst, gather_singleton]
  | cons segment rest ih =>
    have hfollow : depthFirst host (rest ++ second) = fun n =>
        depthFirst host rest n >>= gather (depthFirst host second) := funext ih
    -- The nodes that the segment picks, before the rest is followed from them.
    let pick := segment.apply host (fun picked => return [picked]) node
    calc depthFirst host (segment :: rest ++ second) node
      _ = segment.apply host (depthFirst host (rest ++ second)) node := by
        rw [List.cons_append, depthFirst]
      _ = pick >>= gather (depthFirst host (rest ++ second)) := segment.apply_bind _ _
      _ = pick >>= fun picked =>
          gather (depthFirst host rest) picked >>= gather (depthFirst host second) := by
        rw [hfollow]
        exact bind_congr fun picked => gather_bind _ _ _
      _ = (pick >>= gather (depthFirst host rest)) >>= gather (depthFirst host second) :=
        (bind_assoc _ _ _).symm
      _ = depthFirst host (segment :: rest) node >>= gather (depthFirst host second) := by
        rw [depthFirst, Segment.apply_bind (depthFirst host rest)]

/-- The host does nothing when it is told what a segment has matched. -/
def Host.IsSilent (host : Host Option) : Prop :=
  ∀ query segment count, host.matched query segment count = some ()

theorem breadthFirst_eq_gather (h : host.IsSilent) (query : Query) (segments : List Segment)
    (nodes : List Node) :
    breadthFirst host query segments nodes = gather (depthFirst host segments) nodes := by
  induction segments generalizing nodes with
  | nil => exact (gather_pure nodes).symm
  | cons segment rest ih =>
    have hfollow : depthFirst host (segment :: rest) = fun node =>
        segment.apply host (fun picked => return [picked]) node >>= gather (depthFirst host rest) :=
      funext fun node => segment.apply_bind _ node
    rw [breadthFirst, hfollow, gather_bind]
    refine bind_congr fun picked => ?_
    rw [h]
    exact ih picked

/-- Whatever order the host asks for, it finds what is found depth first. -/
theorem Query.evaluate_eq_depthFirst (h : host.IsSilent) {traces : Bool}
    (htraces : host.traces = some traces) (query : Query) (start : Node) :
    query.evaluate host start = depthFirst host query start := by
  unfold Query.evaluate Host.search
  rw [htraces, breadthFirst_eq_gather h, gather_singleton]
  cases traces <;> rfl

end JsonPath
