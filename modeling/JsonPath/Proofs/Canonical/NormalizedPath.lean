import JsonPath.Proofs.Canonical.RoundTrip
import JsonPath.Proofs.Evaluation.Locations

/-!
# Normalized paths

The normalized path of a node is a query for this node alone. It is the canonical text of a query
with one name or one index for each step, so it is read back as that query, and what is at the
location is all that the query finds.
-/

namespace JsonPath

variable {dialect : Dialect} {location : Location}

/-! ### The query of a location -/

def Step.selector : Step → Selector
  | .name n => .name .blank n
  | .index i => .index .blank i

/-- The query that goes down the steps of a location. -/
def Location.query (location : Location) : Query :=
  location.map fun step => .child .blank [step.selector]

theorem Step.text_selector (step : Step) :
    (Segment.child .blank [step.selector]).text = step.text := by
  rw [Segment.text, selectorTexts, selectorTexts, Text.intercalate_singleton]
  cases step <;> rfl

theorem Location.text_query (location : Location) : location.query.text = location.path := by
  have hfold (text : Text) : location.foldl (fun text step => text ++ step.text) text =
      text ++ segmentsText location.query := by
    induction location generalizing text with
    | nil => exact (Text.append_empty text).symm
    | cons step rest ih =>
      have hcons : query (step :: rest) = .child .blank [step.selector] :: query rest := rfl
      rw [List.foldl_cons, ih, hcons, segmentsText, Step.text_selector, Text.append_assoc]
  exact (hfold "$").symm

theorem Location.isSingular_query (location : Location) : location.query.isSingular = true := by
  refine List.all_eq_true.2 fun segment hsegment => ?_
  obtain ⟨step, -, rfl⟩ := List.mem_map.1 hsegment
  cases step <;> rfl

theorem Location.bare_query (location : Location) :
    bareSegments location.query = location.query := by
  induction location with
  | nil => rfl
  | cons step rest ih =>
    have hstep : Segment.bare (.child .blank [step.selector]) = .child .blank [step.selector] := by
      cases step <;> rfl
    rw [query, List.map_cons, bareSegments, hstep]
    exact congrArg _ ih

theorem Location.joined_query (location : Location) :
    joinedSegments location.query = location.query := by
  induction location with
  | nil => rfl
  | cons step rest ih =>
    have hstep : Segment.joined (.child .blank [step.selector]) =
        .child .blank [step.selector] := by
      cases step <;> rfl
    rw [query, List.map_cons, joinedSegments, hstep]
    exact congrArg _ ih

theorem Location.query_injective : Function.Injective Location.query := by
  refine List.map_injective_iff.2 fun step step' h => ?_
  cases step <;> cases step' <;> simp_all [Step.selector]

theorem Location.wellFormed_query (h : ∀ i, .index i ∈ location → dialect.Allows i) :
    location.query.WellFormed dialect ∧ segmentsRestore dialect location.query ∧
      segmentsAreFinite location.query = true := by
  induction location with
  | nil => exact ⟨⟨trivial, trivial⟩, trivial, rfl⟩
  | cons step rest ih =>
    obtain ⟨⟨htyped, hproper⟩, hrestores, hfinite⟩ := ih fun i hi => h i (List.mem_cons_of_mem _ hi)
    cases step with
    | name name =>
      exact ⟨⟨⟨⟨trivial, trivial⟩, htyped⟩, ⟨by simp, trivial, trivial⟩, hproper⟩,
        ⟨⟨trivial, trivial⟩, hrestores⟩, hfinite⟩
    | index i =>
      exact ⟨⟨⟨⟨trivial, trivial⟩, htyped⟩, ⟨by simp, h i List.mem_cons_self, trivial⟩, hproper⟩,
        ⟨⟨trivial, trivial⟩, hrestores⟩, hfinite⟩

/-- The path of a location with indices within the bounds is a query, and all of the location can
be told from it. -/
theorem Location.reads_back (h : ∀ i, .index i ∈ location → dialect.Allows i) :
    ∃ again, Query.ofText dialect location.path = .ok again ∧
      bareSegments again = location.query := by
  obtain ⟨hwell, hrestores, hfinite⟩ := wellFormed_query h
  obtain ⟨again, hagain, hbare⟩ := hwell.reads_back hrestores hfinite
  rw [joined_query, bare_query] at hbare
  exact ⟨again, text_query location ▸ hagain, hbare⟩

/-! ### What the query finds -/

namespace Node

variable (node : Node)

theorem named_eq (name : Text) : node.named name =
    ((node.value.child? (.name name)).map (node.child (.name name))).toList := by
  have hitems (items : List Value) :
      (JsonPath.indexed 0 items).find? (·.1 = .name name) = none := by
    refine List.find?_eq_none.2 fun ⟨step, item⟩ hmem => ?_
    obtain ⟨n, -, rfl⟩ := mem_indexed.1 hmem
    simp
  unfold named Value.child?
  cases node.value with
  | object members =>
    have hlookup : (Value.children (.object members)).find? (·.1 = .name name) =
        (members.find? (·.1 == name)).map fun member => (.name member.1, member.2) := by
      rw [Value.children, List.find?_map]
      congr 2
      funext member
      simp [beq_eq_decide]
    rw [hlookup]
    unfold Value.lookup?
    dsimp only
    cases members.find? (·.1 == name) <;> rfl
  | array items | sequence _ items => simp [Value.children, hitems]
  | null | boolean | number | string | octets | nothing => rfl

theorem find?_indexed (items : List Value) (start n : Nat) :
    (JsonPath.indexed start items).find? (·.1 = .index (start + n : Nat)) =
      items[n]?.map (.index (start + n : Nat), ·) := by
  induction items generalizing start n with
  | nil => rfl
  | cons item rest ih =>
    cases n with
    | zero => simp [JsonPath.indexed]
    | succ n =>
      have hne : ¬ Step.index start = .index (start + (n + 1) : Nat) := by
        simp only [Step.index.injEq]
        omega
      rw [JsonPath.indexed, List.find?_cons_of_neg (by simpa using hne), List.getElem?_cons_succ]
      have hplace : start + (n + 1) = start + 1 + n := by omega
      rw [hplace]
      exact ih (start + 1) n

theorem indexed_eq (n : Nat) : node.indexed n =
    ((node.value.child? (.index n)).map (node.child (.index n))).toList := by
  have hnames (members : List (Text × Value)) :
      (Value.children (.object members)).find? (·.1 = .index n) = none := by
    refine List.find?_eq_none.2 fun child hmem => ?_
    obtain ⟨member, -, heq⟩ := List.mem_map.1 hmem
    cases heq
    simp
  have hitems (items : List Value) :
      ((item? items n).toList.map fun found => node.child (.index found.1) found.2) =
        ((((JsonPath.indexed 0 items).find? (·.1 = .index n)).map (·.2)).map
          (node.child (.index n))).toList := by
    have hfind := find?_indexed items 0 n
    rw [Nat.zero_add] at hfind
    have hnot : ¬ ((n : Int) < 0) := by omega
    rw [hfind, item?]
    simp only [hnot, false_and, if_false, Int.toNat_natCast]
    cases items[n]? <;> rfl
  unfold indexed Value.child?
  cases node.value with
  | array items | sequence _ items => exact hitems items
  | object members =>
    rw [hnames]
    rfl
  | null | boolean | number | string | octets | nothing => rfl

/-- The node at a location below the node. -/
def below? (location : Location) (node : Node) : Option Node :=
  (node.value.at? location).map fun value =>
    { node with value, location := node.location ++ location }

theorem below?_nil : node.below? [] = some node := by
  rw [below?, Value.at?, Option.map_some, List.append_nil]

theorem below?_cons (step : Step) (rest : Location) : node.below? (step :: rest) =
    ((node.value.child? step).map (node.child step)).bind (below? rest) := by
  rw [below?, Value.at?]
  cases node.value.child? step with
  | none => rfl
  | some child =>
    simp only [Option.bind_some, Option.map_some, below?, Node.child, List.append_assoc,
      List.singleton_append]

end Node

section

variable {m : Type → Type} [Monad m] {host : Host m}

theorem Step.select_selector (node : Node) {step : Step} (h : ∀ i, step = .index i → 0 ≤ i) :
    step.selector.select host node =
      pure ((node.value.child? step).map (node.child step)).toList := by
  cases step with
  | name n => exact congrArg pure (node.named_eq n)
  | index i =>
    obtain ⟨n, rfl⟩ := Int.eq_ofNat_of_zero_le (h i rfl)
    exact congrArg pure (node.indexed_eq n)

variable [LawfulMonad m]

/-- One step leads to one child at most, and what follows starts there. -/
theorem Step.apply_selector (node : Node) {step : Step} (h : ∀ i, step = .index i → 0 ≤ i)
    (follow : Node → m (List Node)) :
    (Segment.child .blank [step.selector]).apply host follow node =
      gather follow ((node.value.child? step).map (node.child step)).toList := by
  simp only [Segment.apply, selectEach, Step.select_selector node h, pure_bind, List.append_nil,
    bind_pure]

theorem Location.depthFirst_query (h : ∀ i, .index i ∈ location → 0 ≤ i) (node : Node) :
    depthFirst host location.query node = pure (node.below? location).toList := by
  induction location generalizing node with
  | nil =>
    rw [Node.below?_nil]
    rfl
  | cons step rest ih =>
    have hstep : ∀ i, step = .index i → 0 ≤ i := by
      rintro i rfl
      exact h i List.mem_cons_self
    have hrest := ih fun i hi => h i (List.mem_cons_of_mem _ hi)
    have hcons : query (step :: rest) = .child .blank [step.selector] :: query rest := rfl
    rw [hcons, depthFirst, Step.apply_selector node hstep, Node.below?_cons]
    cases (node.value.child? step).map (node.child step) with
    | none => rfl
    | some child => simp [gather, hrest]

end

theorem Location.breadthFirst_query (h : ∀ i, .index i ∈ location → 0 ≤ i) (query : Query)
    (node? : Option Node) (workspace : Workspace) : ∃ after,
      (breadthFirst Run.host query location.query node?.toList).run.run workspace =
        (.ok (node?.bind (Node.below? location)).toList, after) := by
  induction location generalizing node? workspace with
  | nil =>
    refine ⟨workspace, ?_⟩
    cases node? with
    | none => rfl
    | some node =>
      rw [Option.bind_some, Node.below?_nil]
      rfl
  | cons step rest ih =>
    have hstep : ∀ i, step = .index i → 0 ≤ i := by
      rintro i rfl
      exact h i List.mem_cons_self
    let segment : Segment := .child .blank [step.selector]
    let next? := node?.bind fun node => (node.value.child? step).map (node.child step)
    have hpicked :
        gather (fun node => segment.apply Run.host (fun n => pure [n]) node) node?.toList =
        pure next?.toList := by
      cases node? with
      | none => rfl
      | some node =>
        simp only [Option.toList_some, gather, segment, Step.apply_selector node hstep, next?,
          Option.bind_some]
        cases (node.value.child? step).map (node.child step) <;> rfl
    have hnext : node?.bind (Node.below? (step :: rest)) = next?.bind (Node.below? rest) := by
      rw [Option.bind_assoc]
      exact Option.bind_congr fun node _ => node.below?_cons step rest
    obtain ⟨after, hafter⟩ := ih (fun i hi => h i (List.mem_cons_of_mem _ hi)) next?
      (workspace.note [.matched query segment next?.toList.length])
    refine ⟨after, ?_⟩
    have hmatched : (Run.host.matched query segment next?.toList.length).run.run workspace =
        (.ok (), workspace.note [.matched query segment next?.toList.length]) := rfl
    have hcons : Location.query (step :: rest) = segment :: Location.query rest := rfl
    rw [hcons, breadthFirst, hpicked, pure_bind, hnext, Run.bind_ok hmatched]
    exact hafter

/-- The query comes to what is at its location, in whatever order it is searched for. -/
theorem Location.evaluate_query (h : ∀ i, .index i ∈ location → 0 ≤ i) (start : Node)
    (workspace : Workspace) : ∃ after,
      (location.query.evaluate Run.host start).run.run workspace =
        (.ok (start.below? location).toList, after) := by
  have htraces : Run.host.traces.run.run workspace = (.ok workspace.logging, workspace) := rfl
  unfold Query.evaluate Host.search
  rw [Run.bind_ok htraces]
  cases workspace.logging with
  | true => exact breadthFirst_query h _ (some start) workspace
  | false =>
    rw [if_neg (by decide), depthFirst_query h]
    exact ⟨workspace, rfl⟩

/-! ### Nodes of a document -/

theorem allows_of_lt {i : Int} (h : 0 ≤ i ∧ i < (2 ^ 53 : Nat)) :
    Environment.standard.dialect.Allows i := by
  obtain ⟨hleast, hlt⟩ := h
  refine ⟨?_, ?_, ?_⟩
  · unfold IsShort
    rw [Text.length_digits]
    refine (Nat.length_toDigits_le_iff (by decide) (by decide)).2 (Nat.lt_trans (m := 2 ^ 53) ?_ ?_)
    · omega
    · decide +kernel
  · change -9007199254740991 ≤ i
    omega
  · change i ≤ 9007199254740991
    omega

variable {data : Value}

/-- Any location of a document has a path that is read back as its query. -/
theorem Location.standard_reads_back (hwithin : data.hasItemsWithin (2 ^ 53) = true)
    (hat : (data.at? location).isSome = true) :
    ∃ again, Environment.standard.compile location.path = .ok again ∧
      bareSegments again = location.query :=
  reads_back fun _ hi => allows_of_lt (Value.index_lt_of_at? hwithin hat hi)

/-- The path of a node that a query finds in a document is a singular query. It is its own canonical
text and finds this node and no other. Locations of the document have the same path only if they are
the same. -/
theorem find_path (hdata : data.isJson = true) (hwithin : data.hasItemsWithin (2 ^ 53) = true)
    {query : Query} {workspace after : Workspace} {nodes : List Node}
    (hfind : (query.evaluate Run.host (Node.start data none)).run.run workspace =
      (.ok nodes, after)) :
    (∀ node ∈ nodes, data.at? node.location = some node.value ∧
      ∃ again, Environment.standard.compile node.path = .ok again ∧ again.isSingular = true ∧
        again.text = node.path ∧ ∀ workspace, ∃ after,
          (again.evaluate Run.host (Node.start data none)).run.run workspace =
            (.ok [node], after)) ∧
    ∀ a b : Location, (data.at? a).isSome = true → (data.at? b).isSome = true →
      (a.path = b.path ↔ a = b) := by
  -- Whatever has found the node, it is reached from the document, and its location is where it is.
  refine ⟨fun node hnode => ?_, fun a b ha hb => ⟨fun hpath => ?_, fun heq => heq ▸ rfl⟩⟩
  · obtain ⟨hat, hroot⟩ :=
      Node.at?_of_reaches hdata (Run.of_yields (query.evaluate_yields _) hfind node hnode)
    refine ⟨hat, ?_⟩
    have hsome : (data.at? node.location).isSome = true := by rw [hat]; rfl
    obtain ⟨again, hagain, hbare⟩ := Location.standard_reads_back hwithin hsome
    refine ⟨again, hagain, ?_, ?_, fun workspace => ?_⟩
    · rw [← Query.isSingular_bare, hbare]
      exact Location.isSingular_query _
    · rw [← Query.text_bare, hbare]
      exact Location.text_query _
    · have hindices : ∀ i, .index i ∈ node.location → 0 ≤ i :=
        fun _ hi => (Value.index_lt_of_at? hwithin hsome hi).1
      obtain ⟨after, hafter⟩ := Location.evaluate_query hindices (Node.start data none) workspace
      have hbelow : (Node.start data none).below? node.location = some node := by
        rw [Node.below?, Node.start, hat]
        exact congrArg (fun root => some { node with root }) hroot.symm
      obtain ⟨result, last, last', hrun, hrun', -⟩ :=
        Query.evaluate_alike (hbare.trans (Location.bare_query _).symm) (Node.start data none)
          workspace workspace (.refl workspace)
      rw [hafter, hbelow] at hrun'
      cases hrun'
      exact ⟨last, hrun⟩
  · obtain ⟨again, hagain, hbare⟩ := Location.standard_reads_back hwithin ha
    obtain ⟨again', hagain', hbare'⟩ := Location.standard_reads_back hwithin hb
    rw [← hpath, hagain] at hagain'
    cases hagain'
    exact Location.query_injective (hbare.symm.trans hbare')

/-- A member whose name has a quote and a line end in it, and an item in it. -/
theorem find_path_quoted : ∃ query after again,
    Environment.standard.compile "$..[0]" = .ok query ∧
    (query.evaluate Run.host
      (Node.start (.object [("'\n", .array [.null])]) none)).run.run ⟨[], false, []⟩ =
        (.ok [⟨.null, [.name "'\n", .index 0], .object [("'\n", .array [.null])]⟩], after) ∧
    Environment.standard.compile "$['\\'\\n'][0]" = .ok again ∧ again.isSingular = true ∧
      again.text = "$['\\'\\n'][0]" := by
  obtain ⟨query, hquery, after, hfind⟩ : ∃ query,
      Environment.standard.compile "$..[0]" = .ok query ∧ ∃ after, (query.evaluate Run.host
        (Node.start (.object [("'\n", .array [.null])]) none)).run.run ⟨[], false, []⟩ =
          (.ok [⟨.null, [.name "'\n", .index 0], .object [("'\n", .array [.null])]⟩], after) :=
    ⟨_, by cbv, _, by cbv⟩
  obtain ⟨-, again, hagain, hsingular, htext, -⟩ :=
    (find_path (by decide) (by decide) hfind).1 _ List.mem_cons_self
  exact ⟨query, after, again, hquery, hfind, hagain, hsingular, htext⟩

end JsonPath
