import JsonPath.Proofs.Evaluation.Order

/-!
# Cursors to the end

To pull nodes from a cursor until there are none left is to find depth first what is pending, step
by step in the same order.
-/

namespace JsonPath

variable {m : Type → Type} [Monad m]

/-- All that is still to be pulled. -/
def Pending.all (host : Host m) : (segments : List Segment) → Pending segments → m (List Node)
  | [], nodes => return nodes
  | _ :: rest, (jobs, later) => do
    let first ← all host rest later
    let more ← gather (fun job : Job => do
      let picked ← job.1.select host job.2
      all host rest (Pending.from rest picked)) jobs
    return first ++ more

/-- A pulled node and all that comes after it. -/
def Pending.andAll (host : Host m) {segments : List Segment} :
    Option (Node × Pending segments) → m (List Node)
  | none => return []
  | some (node, later) => do
    let rest ← Pending.all host segments later
    return node :: rest

variable [LawfulMonad m] (host : Host m)

theorem Segment.gather_jobs (follow : Node → m (List Node)) (node : Node) (segment : Segment) :
    gather (fun job : Job => job.1.select host job.2 >>= gather follow) (segment.jobs node) =
      segment.apply host follow node := by
  cases segment with
  | child _ selectors => rw [jobs, apply, selectEach_eq_gather, gather_map]
  | descendant _ selectors =>
    simp only [jobs, apply, selectEach_eq_gather, gather_flatMap, gather_map]

/-- What is pending from nodes on is what is found depth first from each of them. -/
theorem Pending.all_from (segments : List Segment) (nodes : List Node) :
    Pending.all host segments (Pending.from segments nodes) =
      gather (depthFirst host segments) nodes := by
  induction segments generalizing nodes with
  | nil => exact (gather_pure nodes).symm
  | cons segment rest ih =>
    have hjobs : (fun node => gather (fun job : Job =>
        job.1.select host job.2 >>= gather (depthFirst host rest)) (segment.jobs node)) =
          depthFirst host (segment :: rest) :=
      funext fun node => segment.gather_jobs host (depthFirst host rest) node
    simp only [Pending.from, Pending.all, ih, gather, pure_bind, List.nil_append, bind_pure]
    rw [gather_flatMap, ← hjobs]

/-- Jobs are done until one of them leads to something; then come the rest of what it leads to and
the rest of the jobs. -/
theorem gather_eq_pullJobs {β : Type} {select : Job → m (List Node)}
    {pull : List Node → m (Option (Node × β))} {follow : Job → m (List Node)}
    {finish : Option (Node × β) → m (List Node)}
    {finishJobs : Option (Node × List Job × β) → m (List Node)}
    (hfollow : ∀ job, follow job = select job >>= fun picked => pull picked >>= finish)
    (hnone : finish none = pure []) (hnoneJobs : finishJobs none = pure [])
    (hsome : ∀ node jobs later, finishJobs (some (node, jobs, later)) = do
      let first ← finish (some (node, later))
      let more ← gather follow jobs
      return first ++ more)
    (jobs : List Job) : gather follow jobs = pullJobs select pull jobs >>= finishJobs := by
  induction jobs with
  | nil => rw [gather, pullJobs, pure_bind, hnoneJobs]
  | cons job jobs ih =>
    rw [gather, hfollow, pullJobs, bind_assoc, bind_assoc]
    refine bind_congr fun picked => ?_
    rw [bind_assoc, bind_assoc]
    refine bind_congr fun pulled? => ?_
    cases pulled? with
    | none => simpa only [hnone, pure_bind, List.nil_append, bind_pure] using ih
    | some pulled => simp only [pure_bind, hsome]

/-- To find all that is pending is to pull one node and to find all that is pending then. -/
theorem Pending.all_eq_pull : ∀ (segments : List Segment) (pending : Pending segments),
    Pending.all host segments pending = Pending.pull host segments pending >>= Pending.andAll host
  | [], [] => by
    have hnone : Pending.andAll host (none : Option (Node × Pending [])) = pure [] := rfl
    exact hnone.symm.trans (pure_bind _ _).symm
  | [], node :: nodes => by
    have hsome : Pending.andAll host (some (node, nodes) : Option (Node × Pending [])) =
        pure (node :: nodes) := pure_bind nodes fun rest => pure (node :: rest)
    exact hsome.symm.trans (pure_bind _ _).symm
  | segment :: rest, (jobs, later) => by
    -- What is pending further down comes first, and a job is only done when nothing is left there.
    let finish : Option (Node × Pending rest) → m (List Node) := Pending.andAll host
    let finishJobs : Option (Node × List Job × Pending rest) → m (List Node) :=
      @Pending.andAll m _ host (segment :: rest)
    let follow : Job → m (List Node) := fun job => do
      let picked ← job.1.select host job.2
      Pending.all host rest (Pending.from rest picked)
    have hsome (node : Node) (jobs : List Job) (later : Pending rest) :
        finishJobs (some (node, jobs, later)) = do
          let first ← finish (some (node, later))
          let more ← gather follow jobs
          return first ++ more := by
      change (Pending.all host (segment :: rest) (jobs, later) >>= fun found =>
        pure (node :: found)) = _
      simp only [Pending.all, finish, Pending.andAll, bind_assoc, pure_bind, List.cons_append,
        follow]
    have hfollow (job : Job) : follow job = job.1.select host job.2 >>= fun picked =>
        Pending.pull host rest (Pending.from rest picked) >>= finish :=
      bind_congr fun picked => Pending.all_eq_pull rest _
    calc Pending.all host (segment :: rest) (jobs, later)
      _ = (Pending.pull host rest later >>= finish) >>= fun first =>
            gather follow jobs >>= fun more => pure (first ++ more) := by
        rw [← Pending.all_eq_pull rest later]
        rfl
      _ = Pending.pull host rest later >>= fun pulled? => finish pulled? >>= fun first =>
            gather follow jobs >>= fun more => pure (first ++ more) := bind_assoc _ _ _
      _ = Pending.pull host (segment :: rest) (jobs, later) >>= finishJobs := by
        refine Eq.trans (bind_congr fun pulled? => ?_) (bind_assoc _ _ _).symm
        cases pulled? with
        | some pulled =>
          obtain ⟨node, later⟩ := pulled
          exact (hsome node jobs later).symm.trans (pure_bind _ _).symm
        | none =>
          refine Eq.trans (pure_bind _ _)
            (Eq.trans ?_ (gather_eq_pullJobs hfollow rfl rfl hsome jobs))
          simp only [List.nil_append, bind_pure]

end JsonPath
