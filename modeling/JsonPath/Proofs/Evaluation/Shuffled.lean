import JsonPath.Proofs.Evaluation.Eagerness
import JsonPath.Proofs.Evaluation.Reordered
import JsonPath.Proofs.Evaluation.Walk

/-!
# Searches in documents with their members in another order

Where the members of objects stand in another order, a search finds its nodes in another order. What
follows from each of them is a list of its own, and either one of these lists fails or they are
joined, so it makes no difference in which order they are searched but to the order of the result.
Filters see the same truth values, since all that they compare is the same up to order.
-/

namespace JsonPath

open Value (Reordered lookup?)

/-! ### Lists in another order -/

section Shuffled

variable {α β γ δ : Type} {R : α → β → Prop} {S : γ → δ → Prop} {as as' : List α} {bs bs' : List β}
  {f : α → Option (List γ)} {g : β → Option (List δ)}

/-- In some order the first items are related to the second, one by one. -/
def Shuffled (R : α → β → Prop) (as : List α) (bs : List β) : Prop :=
  ∃ cs, as.Perm cs ∧ List.Forall₂ R cs bs

namespace Shuffled

theorem of_forall₂ (h : List.Forall₂ R as bs) : Shuffled R as bs := ⟨as, .refl as, h⟩

theorem of_perm (hperm : as.Perm as') (h : Shuffled R as' bs) : Shuffled R as bs := by
  obtain ⟨cs, hcs, hforall⟩ := h
  exact ⟨cs, hperm.trans hcs, hforall⟩

theorem singleton {a : α} {b : β} (h : R a b) : Shuffled R [a] [b] :=
  of_forall₂ (.cons h .nil)

theorem cons {a : α} {b : β} (hab : R a b) (h : Shuffled R as bs) :
    Shuffled R (a :: as) (b :: bs) := by
  obtain ⟨cs, hcs, hforall⟩ := h
  exact ⟨a :: cs, hcs.cons a, .cons hab hforall⟩

theorem append (h : Shuffled R as bs) (h' : Shuffled R as' bs') :
    Shuffled R (as ++ as') (bs ++ bs') := by
  obtain ⟨cs, hcs, hforall⟩ := h
  obtain ⟨cs', hcs', hforall'⟩ := h'
  exact ⟨cs ++ cs', hcs.append hcs', List.rel_append hforall hforall'⟩

theorem length_eq (h : Shuffled R as bs) : as.length = bs.length := by
  obtain ⟨cs, hcs, hforall⟩ := h
  exact hcs.length_eq.trans hforall.length_eq

theorem isEmpty_eq (h : Shuffled R as bs) : as.isEmpty = bs.isEmpty := by
  rw [Bool.eq_iff_iff, List.isEmpty_iff_length_eq_zero, List.isEmpty_iff_length_eq_zero,
    h.length_eq]

theorem map {f : α → γ} {g : β → δ} (h : Shuffled R as bs)
    (hfg : ∀ a ∈ as, ∀ b, R a b → S (f a) (g b)) : Shuffled S (as.map f) (bs.map g) := by
  obtain ⟨cs, hcs, hforall⟩ := h
  refine ⟨cs.map f, hcs.map f, ?_⟩
  rw [List.forall₂_map_left_iff, List.forall₂_map_right_iff]
  have hmem : ∀ c ∈ cs, c ∈ as := fun c hc => hcs.mem_iff.2 hc
  clear hcs
  induction hforall with
  | nil => exact .nil
  | cons hab _ ih =>
    obtain ⟨hfirst, hrest⟩ := List.forall_mem_cons.1 hmem
    exact .cons (hfg _ hfirst _ hab) (ih hrest)

theorem perm_map {f : α → γ} {g : β → γ} (h : Shuffled R as bs) (hfg : ∀ a b, R a b → f a = g b) :
    (as.map f).Perm (bs.map g) := by
  obtain ⟨cs, hcs, hforall⟩ := h
  have hsame : cs.map f = bs.map g := by
    rw [← List.forall₂_eq_eq_eq, List.forall₂_map_left_iff, List.forall₂_map_right_iff]
    exact hforall.imp hfg
  rw [← hsame]
  exact hcs.map f

theorem exists_of_mem (h : Shuffled R as bs) {a : α} (ha : a ∈ as) : ∃ b ∈ bs, R a b := by
  obtain ⟨cs, hcs, hforall⟩ := h
  have hc := hcs.mem_iff.1 ha
  clear hcs
  induction hforall with
  | nil => cases hc
  | cons hab _ ih =>
    rcases List.mem_cons.1 hc with rfl | hc
    · exact ⟨_, List.mem_cons_self, hab⟩
    · obtain ⟨b, hb, hab⟩ := ih hc
      exact ⟨b, List.mem_cons_of_mem _ hb, hab⟩

end Shuffled

theorem Option.Rel.bind {T : γ → δ → Prop} {x : Option α} {y : Option β} {f : α → Option γ}
    {g : β → Option δ} (h : Option.Rel R x y) (hfg : ∀ a b, R a b → Option.Rel T (f a) (g b)) :
    Option.Rel T (x >>= f) (y >>= g) := by
  cases h with
  | none => exact .none
  | some hab => exact hfg _ _ hab

theorem Option.Rel.bind_same {ε : Type} {T : γ → δ → Prop} {x : Option ε} {f : ε → Option γ}
    {g : ε → Option δ} (hfg : ∀ a, Option.Rel T (f a) (g a)) :
    Option.Rel T (x >>= f) (x >>= g) := by
  cases x with
  | none => exact .none
  | some a => exact hfg a

theorem Option.Rel.comp {T : α → γ → Prop} {U : β → γ → Prop} {x : Option α} {y : Option β}
    {z : Option γ} (h : Option.Rel R x y) (h' : Option.Rel U y z)
    (hcomp : ∀ a b c, R a b → U b c → T a c) : Option.Rel T x z := by
  cases h with
  | none =>
    cases h' with
    | none => exact .none
  | some hab =>
    cases h' with
    | some hbc => exact .some (hcomp _ _ _ hab hbc)

/-- The lists for items in another order are joined in another order, or one of them fails. -/
theorem gather_perm (h : as.Perm as') : Option.Rel List.Perm (gather f as) (gather f as') := by
  induction h with
  | nil => exact .some .nil
  | cons a _ ih =>
    rw [gather, gather]
    refine Option.Rel.bind_same fun first => ?_
    exact Option.Rel.bind ih fun _ _ hmore => .some (List.Perm.append_left first hmore)
  | swap a b as =>
    simp only [gather]
    cases f a with
    | none => cases f b <;> exact .none
    | some first =>
      cases f b with
      | none => exact .none
      | some second =>
        cases gather f as with
        | none => exact .none
        | some more =>
          refine .some ?_
          show List.Perm (second ++ (first ++ more)) (first ++ (second ++ more))
          rw [← List.append_assoc, ← List.append_assoc]
          exact List.perm_append_comm.append_right more
  | trans _ _ ih ih' => exact Option.Rel.comp ih ih' fun _ _ _ => List.Perm.trans

theorem gather_forall₂ (hfg : ∀ a b, R a b → Option.Rel (Shuffled S) (f a) (g b))
    (h : List.Forall₂ R as bs) : Option.Rel (Shuffled S) (gather f as) (gather g bs) := by
  induction h with
  | nil => exact .some (.of_forall₂ .nil)
  | cons hab _ ih =>
    refine Option.Rel.bind (hfg _ _ hab) fun _ _ hfirst => ?_
    exact Option.Rel.bind ih fun _ _ hmore => .some (hfirst.append hmore)

theorem gather_shuffled (hfg : ∀ a b, R a b → Option.Rel (Shuffled S) (f a) (g b))
    (h : Shuffled R as bs) : Option.Rel (Shuffled S) (gather f as) (gather g bs) := by
  obtain ⟨cs, hcs, hforall⟩ := h
  exact Option.Rel.comp (gather_perm hcs) (gather_forall₂ hfg hforall) fun _ _ _ => .of_perm

theorem keep_eq_gather (test : α → Option Bool) (as : List α) :
    keep test as = gather (fun a => (test a).map fun kept => if kept then [a] else []) as := by
  induction as with
  | nil => rfl
  | cons a rest ih =>
    rw [keep, gather, ih]
    cases test a with
    | none => rfl
    | some kept => cases kept <;> rfl

theorem keep_shuffled {test : α → Option Bool} {test' : β → Option Bool}
    (htest : ∀ a b, R a b → test a = test' b) (h : Shuffled R as bs) :
    Option.Rel (Shuffled R) (keep test as) (keep test' bs) := by
  rw [keep_eq_gather, keep_eq_gather]
  refine gather_shuffled (fun a b hab => ?_) h
  rw [htest a b hab]
  cases test' b with
  | none => exact .none
  | some kept =>
    cases kept with
    | false => exact .some (.of_forall₂ .nil)
    | true => exact .some (.singleton hab)

end Shuffled

/-! ### Nodes -/

/-- The values are those of documents and the same up to order. -/
structure Value.Alike (v w : Value) : Prop where
  isJson : v.isJson = true
  reordered : v.Reordered w

/-- The nodes stand at the same location, in documents that are the same up to order. -/
structure Node.Alike (a b : Node) : Prop where
  location : a.location = b.location
  value : a.value.Alike b.value
  root : a.root.Alike b.root

/-- The same step leads to values that are the same up to order. -/
def AlikeAt {κ : Type} (x y : κ × Value) : Prop := x.1 = y.1 ∧ x.2.Alike y.2

theorem ItemsReordered.alike {as bs : List Value} (h : ItemsReordered as bs)
    (hjson : areJson as = true) : List.Forall₂ Value.Alike as bs := by
  have hboth := (List.forall₂_and_left as bs).2 ⟨areJson_iff.1 hjson, h.forall₂⟩
  exact hboth.imp fun a b hab => ⟨hab.1, hab.2⟩

theorem MembersReordered.alike {ls ms ns : List (Text × Value)} (h : MembersReordered ms ns)
    (hperm : ls.Perm ms) (hjson : membersAreJson ls = true) : Shuffled AlikeAt ls ns := by
  have hms : ∀ m ∈ ms, m.2.isJson = true := fun m hm =>
    membersAreJson_iff.1 hjson m (hperm.mem_iff.2 hm)
  have hboth := (List.forall₂_and_left ms ns).2 ⟨hms, h.forall₂⟩
  exact ⟨ms, hperm, hboth.imp fun m n hmn => ⟨hmn.2.1, hmn.1, hmn.2.2⟩⟩

theorem lookup?_alike {ls ms ns : List (Text × Value)} (hjson : (Value.object ls).isJson = true)
    (hperm : ls.Perm ms) (hmembers : MembersReordered ms ns) (name : Text) :
    Option.Rel Value.Alike (lookup? name ls) (lookup? name ns) := by
  have hnodup := (Value.IsData.names_nodup (.inl hjson))
  have hmember (v : Value) (hv : lookup? name ls = some v) : v.isJson = true :=
    membersAreJson_iff.1 (Bool.and_eq_true_iff.1 hjson).2 _ ((lookup?_eq_some_iff hnodup).1 hv)
  have hrel := lookup?_reordered hperm hmembers hnodup name
  generalize lookup? name ls = v? at hrel hmember
  generalize lookup? name ns = w? at hrel
  cases hrel with
  | none => exact .none
  | some hvw => exact .some ⟨hmember _ rfl, hvw⟩

theorem forall₂_indexed {as bs : List Value} (h : List.Forall₂ Value.Alike as bs) (start : Nat) :
    List.Forall₂ AlikeAt (indexed start as) (indexed start bs) := by
  induction h generalizing start with
  | nil => exact .nil
  | cons hab _ ih => exact .cons ⟨rfl, hab⟩ (ih (start + 1))

theorem getElem?_alike {as bs : List Value} (h : List.Forall₂ Value.Alike as bs) (i : Nat) :
    Option.Rel Value.Alike as[i]? bs[i]? := by
  induction h generalizing i with
  | nil => exact .none
  | cons hab _ ih =>
    cases i with
    | zero => exact .some hab
    | succ i => exact ih i

theorem Node.item?_alike {as bs : List Value} (h : List.Forall₂ Value.Alike as bs) (index : Int) :
    Option.Rel (fun x y => x.1 = y.1 ∧ x.2.Alike y.2) (Node.item? as index)
      (Node.item? bs index) := by
  unfold Node.item?
  rw [h.length_eq]
  dsimp only
  generalize (if index < 0 ∧ -index ≤ bs.length then index + bs.length else index) = i
  split
  · exact .none
  · have hrel := getElem?_alike h i.toNat
    generalize as[i.toNat]? = x at hrel
    generalize bs[i.toNat]? = y at hrel
    cases hrel with
    | none => exact .none
    | some hvw => exact .some ⟨rfl, hvw⟩

namespace Value.Alike

variable {v w : Value}

theorem items? (h : v.Alike w) :
    Option.Rel (List.Forall₂ Value.Alike) v.items? w.items? := by
  obtain ⟨hjson, hreordered⟩ := h
  cases hreordered with
  | array hitems => exact .some (hitems.alike hjson)
  | @sequence form _ _ hitems =>
    cases form with
    | tuple => exact .some (hitems.alike hjson)
    | nodeList => cases hjson
  | _ => exact .none

theorem children (h : v.Alike w) : Shuffled AlikeAt v.children w.children := by
  obtain ⟨hjson, hreordered⟩ := h
  cases hreordered with
  | array hitems => exact .of_forall₂ (forall₂_indexed (hitems.alike hjson) 0)
  | @sequence form _ _ hitems =>
    cases form with
    | tuple => exact .of_forall₂ (forall₂_indexed (hitems.alike hjson) 0)
    | nodeList => cases hjson
  | object hperm hmembers =>
    have hmembersJson := (Bool.and_eq_true_iff.1 hjson).2
    refine (hmembers.alike hperm hmembersJson).map fun m _ n hmn => ?_
    exact ⟨congrArg Step.name hmn.1, hmn.2⟩
  | _ => exact .of_forall₂ .nil

end Value.Alike

/-! ### Selectors -/

namespace Node.Alike

variable {a b : Node}

theorem child (h : a.Alike b) (step : Step) {v w : Value} (hvw : v.Alike w) :
    (a.child step v).Alike (b.child step w) :=
  ⟨congrArg (· ++ [step]) h.location, hvw, h.root⟩

theorem children (h : a.Alike b) : Shuffled Node.Alike a.children b.children := by
  refine h.value.children.map ?_
  rintro ⟨step, v⟩ - ⟨_, w⟩ ⟨rfl, hvw⟩
  exact h.child step hvw

theorem named (h : a.Alike b) (name : Text) :
    Shuffled Node.Alike (a.named name) (b.named name) := by
  obtain ⟨hjson, hvalue⟩ := h.value
  unfold Node.named
  generalize a.value = v at hvalue hjson
  generalize b.value = w at hvalue
  cases hvalue with
  | @object ls ms ns hperm hmembers =>
    dsimp only
    have hrel := lookup?_alike hjson hperm hmembers name
    generalize lookup? name ls = v? at hrel
    generalize lookup? name ns = w? at hrel
    cases hrel with
    | none => exact .of_forall₂ .nil
    | some hvw => exact .singleton (h.child (.name name) hvw)
  | _ => exact .of_forall₂ .nil

theorem indexed (h : a.Alike b) (index : Int) :
    Shuffled Node.Alike (a.indexed index) (b.indexed index) := by
  unfold Node.indexed
  have hitems := h.value.items?
  generalize a.value.items? = as? at hitems
  generalize b.value.items? = bs? at hitems
  cases hitems with
  | none => exact .of_forall₂ .nil
  | @some as bs hitems =>
    dsimp only
    have hrel := item?_alike hitems index
    generalize Node.item? as index = x at hrel
    generalize Node.item? bs index = y at hrel
    cases hrel with
    | none => exact .of_forall₂ .nil
    | @some x y hxy =>
      obtain ⟨i, v⟩ := x
      obtain ⟨j, w⟩ := y
      obtain ⟨rfl, hvw⟩ := hxy
      exact .singleton (h.child (.index i) hvw)

theorem sliced (h : a.Alike b) (start? stop? step? : Option Int) :
    Shuffled Node.Alike (a.sliced start? stop? step?) (b.sliced start? stop? step?) := by
  unfold Node.sliced
  have hitems := h.value.items?
  generalize a.value.items? = as? at hitems
  generalize b.value.items? = bs? at hitems
  cases hitems with
  | none => exact .of_forall₂ .nil
  | @some as bs hitems =>
    dsimp only
    rw [hitems.length_eq]
    generalize Slice.indices bs.length start? stop? step? = indices
    apply Shuffled.of_forall₂
    induction indices with
    | nil => exact .nil
    | cons index rest ih =>
      have hrel := getElem?_alike hitems index.toNat
      rw [List.filterMap_cons, List.filterMap_cons]
      generalize as[index.toNat]? = x at hrel
      generalize bs[index.toNat]? = y at hrel
      cases hrel with
      | none => exact ih
      | some hvw => exact .cons (h.child (.index index) hvw) ih

end Node.Alike

/-! ### Descendants -/

mutual

theorem Value.Reordered.descendants (location : Location) : ∀ {v w : Value}, Reordered v w →
    v.isJson = true → Shuffled AlikeAt (v.descendants location) (w.descendants location)
  | _, _, hv@.null, h | _, _, hv@.boolean, h | _, _, hv@.number, h | _, _, hv@.string, h
  | _, _, hv@.octets, h | _, _, hv@.nothing, h => .singleton ⟨rfl, h, hv⟩
  | _, _, .array hitems, h => .cons ⟨rfl, h, .array hitems⟩ (hitems.descendants location 0 h)
  | _, _, @Reordered.sequence .tuple _ _ hitems, h =>
    .cons ⟨rfl, h, .sequence hitems⟩ (hitems.descendants location 0 h)
  | _, _, @Reordered.sequence .nodeList _ _ _, h => by cases h
  | _, _, @Reordered.object ls ms ns hperm hmembers, h => by
    have hjson := membersAreJson_iff.1 (Bool.and_eq_true_iff.1 h).2
    refine .cons ⟨rfl, h, .object hperm hmembers⟩ (.of_perm ?_ (hmembers.descendants location
      fun m hm => hjson m (hperm.mem_iff.2 hm)))
    rw [memberDescendants_eq_flatMap, memberDescendants_eq_flatMap]
    exact (hperm.map _).flatMap_right _

theorem ItemsReordered.descendants (location : Location) : ∀ {as bs : List Value} (place : Nat),
    ItemsReordered as bs → areJson as = true →
      Shuffled AlikeAt (itemDescendants location place as) (itemDescendants location place bs)
  | _, _, _, .nil, _ => .of_forall₂ .nil
  | _, _, place, .cons ha has, h => by
    rw [areJson, Bool.and_eq_true] at h
    exact (ha.descendants _ h.1).append (has.descendants location (place + 1) h.2)

theorem MembersReordered.descendants (location : Location) :
    ∀ {ms ns : List (Text × Value)}, MembersReordered ms ns → (∀ m ∈ ms, m.2.isJson = true) →
      Shuffled AlikeAt (memberDescendants location ms) (memberDescendants location ns)
  | _, _, .nil, _ => .of_forall₂ .nil
  | _, _, .cons ha has, h => by
    obtain ⟨hfirst, hrest⟩ := List.forall_mem_cons.1 h
    exact (ha.descendants _ hfirst).append (has.descendants location hrest)

end

theorem Node.Alike.descendants {a b : Node} (h : a.Alike b) :
    Shuffled Node.Alike a.descendants b.descendants := by
  have hvalues := h.value.reordered.descendants a.location h.value.isJson
  unfold Node.descendants
  rw [← h.location]
  exact hvalues.map fun _ _ _ hxy => ⟨hxy.1, hxy.2, h.root⟩

/-! ### Operands -/

/-- What an expression evaluates to in documents that are the same up to order: values that are so,
or nodes if it is a query. -/
inductive Expr.Answers (e : Expr) : Operand → Operand → Prop
  | value {v w : Value} : v.IsData → v.Reordered w → Answers e (.value v) (.value w)
  | nodes {ns ms : List Node} : e.isQuery = true → Shuffled Node.Alike ns ms →
      Answers e (.nodes ns) (.nodes ms)

/-- Arguments that are the same up to order. -/
inductive Operand.Alike : Operand → Operand → Prop
  | value {v w : Value} : v.IsData → v.Reordered w → Operand.Alike (.value v) (.value w)
  | nodes {ns ms : List Node} : Shuffled Node.Alike ns ms → Operand.Alike (.nodes ns) (.nodes ms)

/-- The operands are values that are the same up to order. -/
def Operand.AlikeValues (r r' : Operand) : Prop :=
  ∃ v w : Value, r = .value v ∧ r' = .value w ∧ v.IsData ∧ v.Reordered w

namespace Expr.Answers

variable {e : Expr} {r r' : Operand}

theorem boolean (b : Bool) : e.Answers (.value (.boolean b)) (.value (.boolean b)) :=
  .value (.inl rfl) .boolean

theorem holds_eq (h : e.Answers r r') : r.holds e = r'.holds e := by
  cases h with
  | nodes hquery hnodes =>
    exact congrArg not hnodes.isEmpty_eq
  | value hdata hvw =>
    cases e with
    | call token name given => exact hvw.isTrue_eq
    | _ => cases hvw <;> rfl

/-- As a single value the answers are values that are the same up to order. -/
theorem single (h : e.Answers r r') : (r.single e).AlikeValues (r'.single e) := by
  cases h with
  | @value v w hdata hvw =>
    refine ⟨v, w, ?_, ?_, hdata, hvw⟩ <;> (unfold Operand.single; cases e.isQuery <;> rfl)
  | @nodes ns ms hquery hnodes =>
    have hlength := hnodes.length_eq
    unfold Operand.single
    rw [hquery]
    match ns, ms, hnodes, hlength with
    | [], [], _, _ => exact ⟨_, _, rfl, rfl, .inr rfl, .nothing⟩
    | [a], [b], hnodes, _ =>
      obtain ⟨b', hb, hab⟩ := hnodes.exists_of_mem List.mem_cons_self
      cases List.mem_singleton.1 hb
      exact ⟨_, _, rfl, rfl, .inl hab.value.isJson, hab.value.reordered⟩
    | _ :: _ :: _, _ :: _ :: _, _, _ => exact ⟨_, _, rfl, rfl, .inr rfl, .nothing⟩

theorem argument (h : e.Answers r r') (type : ExprType) :
    (r.argument e type).Alike (r'.argument e type) := by
  cases type with
  | value =>
    obtain ⟨v, w, hr, hr', hdata, hvw⟩ := h.single
    rw [Operand.argument, Operand.argument, hr, hr']
    exact .value hdata hvw
  | logical =>
    rw [Operand.argument, Operand.argument, h.holds_eq]
    exact .value (.inl rfl) .boolean
  | nodes =>
    cases h with
    | value hdata hvw => exact .value hdata hvw
    | nodes _ hnodes => exact .nodes hnodes

end Expr.Answers

/-! ### Evaluations -/

/-- Of arguments that are the same up to order, the rule comes to values that are so. -/
def Rule.IgnoresOrder (rule : Rule) : Prop :=
  ∀ given given' : List Operand, List.Forall₂ Operand.Alike given given' →
    Option.Rel Operand.AlikeValues (rule.apply given).toOption (rule.apply given').toOption

def Rules.IgnoreOrder (rules : Rules) : Prop :=
  ∀ (name : Text) (rule : Rule), rules name = some rule → rule.IgnoresOrder

theorem Node.alike_start {v w : Value} (h : v.Alike w) : (start v none).Alike (start w none) :=
  ⟨rfl, h, h⟩

theorem Node.alike_start_below {v w root root' : Value} (h : v.Alike w)
    (hroot : root.Alike root') : (start v (some root)).Alike (start w (some root')) := by
  obtain ⟨hjson, hreordered⟩ := hroot
  cases hreordered with
  | null => exact alike_start h
  | boolean | number | string | array _ | sequence _ | object _ _ | octets | nothing =>
    refine ⟨rfl, h, hjson, ?_⟩
    constructor <;> assumption

variable {rules : Rules}

theorem Rules.IgnoreOrder.call (hrules : rules.IgnoreOrder) {e : Expr} {name : Text}
    {given given' : List Operand} (h : List.Forall₂ Operand.Alike given given') :
    Option.Rel e.Answers ((rules.host false).blind.call name given)
      ((rules.host false).blind.call name given') := by
  change Option.Rel _ (((rules.host false).call name given).toOption)
    (((rules.host false).call name given').toOption)
  unfold Rules.host
  dsimp only
  cases hrule : rules name with
  | none => exact .none
  | some rule =>
    have hrel := hrules name rule hrule given given' h
    dsimp only
    generalize (rule.apply given).toOption = x at hrel
    generalize (rule.apply given').toOption = y at hrel
    cases hrel with
    | none => exact .none
    | some hvalues =>
      obtain ⟨v, w, rfl, rfl, hdata, hvw⟩ := hvalues
      exact .some (.value hdata hvw)

mutual

theorem Expr.evaluate_alike (hrules : rules.IgnoreOrder) {current current' root root' : Value}
    (hcurrent : current.Alike current') (hroot : root.Alike root') : ∀ e : Expr,
    Option.Rel e.Answers (e.evaluate (rules.host false).blind current root)
      (e.evaluate (rules.host false).blind current' root')
  | .literal _ literal => by
    refine .some (.value (.inl ?_) ?_) <;> (cases literal <;> constructor)
  | .negation _ operand => by
    refine Option.Rel.bind (Expr.evaluate_alike hrules hcurrent hroot operand) fun r r' h => ?_
    rw [h.holds_eq]
    exact .some (.boolean _)
  | .conjunction _ left right => by
    refine Option.Rel.bind (Expr.evaluate_alike hrules hcurrent hroot left) fun r r' h => ?_
    rw [h.holds_eq]
    split
    · refine Option.Rel.bind (Expr.evaluate_alike hrules hcurrent hroot right) fun r r' h => ?_
      rw [h.holds_eq]
      exact .some (.boolean _)
    · exact .some (.boolean _)
  | .disjunction _ left right => by
    refine Option.Rel.bind (Expr.evaluate_alike hrules hcurrent hroot left) fun r r' h => ?_
    rw [h.holds_eq]
    split
    · exact .some (.boolean _)
    · refine Option.Rel.bind (Expr.evaluate_alike hrules hcurrent hroot right) fun r r' h => ?_
      rw [h.holds_eq]
      exact .some (.boolean _)
  | .comparison _ left operator right => by
    refine Option.Rel.bind (Expr.evaluate_alike hrules hcurrent hroot left) fun r r' h => ?_
    refine Option.Rel.bind (Expr.evaluate_alike hrules hcurrent hroot right) fun s s' h' => ?_
    obtain ⟨v, w, hv, hw, -, hvw⟩ := h.single
    obtain ⟨v', w', hv', hw', hdata, hvw'⟩ := h'.single
    rw [hv, hw, hv', hw']
    have hsame : operator.holds v v' = operator.holds w w' := hvw.holds hvw' hdata operator
    simp only [Operand.asValue, hsame]
    exact .some (.boolean _)
  | .relative _ segments => by
    have hstart := Node.alike_start_below hcurrent hroot
    have hfound := depthFirst_alike hrules segments hstart
    rw [← rules.evaluate_eq_depthFirst, ← rules.evaluate_eq_depthFirst] at hfound
    exact Option.Rel.bind hfound fun _ _ h => .some (.nodes rfl h)
  | .absolute _ segments => by
    have hfound := depthFirst_alike hrules segments (Node.alike_start hroot)
    rw [← rules.evaluate_eq_depthFirst, ← rules.evaluate_eq_depthFirst] at hfound
    exact Option.Rel.bind hfound fun _ _ h => .some (.nodes rfl h)
  | .call _ name given => by
    refine Option.Rel.bind_same fun parameters => ?_
    have harguments := evaluateArguments_alike hrules hcurrent hroot given parameters
    refine Option.Rel.bind harguments fun _ _ h => ?_
    exact hrules.call h

theorem evaluateArguments_alike (hrules : rules.IgnoreOrder) {current current' root root' : Value}
    (hcurrent : current.Alike current') (hroot : root.Alike root') :
    ∀ (given : List Expr) (parameters : List ExprType),
    Option.Rel (List.Forall₂ Operand.Alike)
      (evaluateArguments (rules.host false).blind current root given parameters)
      (evaluateArguments (rules.host false).blind current' root' given parameters)
  | [], _ => .some .nil
  | _ :: _, [] => .some .nil
  | e :: given, type :: parameters => by
    refine Option.Rel.bind (Expr.evaluate_alike hrules hcurrent hroot e) fun _ _ h => ?_
    have hrest := evaluateArguments_alike hrules hcurrent hroot given parameters
    refine Option.Rel.bind hrest fun _ _ h' => ?_
    exact .some (.cons (h.argument type) h')

theorem Selector.select_alike (hrules : rules.IgnoreOrder) {a b : Node} (h : a.Alike b) :
    ∀ selector : Selector,
    Option.Rel (Shuffled Node.Alike) (selector.select (rules.host false).blind a)
      (selector.select (rules.host false).blind b)
  | .name _ name => .some (h.named name)
  | .index _ index => .some (h.indexed index)
  | .wildcard _ => .some h.children
  | .slice _ start? stop? step? => .some (h.sliced start? stop? step?)
  | .filter _ e => by
    refine keep_shuffled (fun c d hcd => ?_) h.children
    have hrel := Expr.evaluate_alike hrules hcd.value h.root e
    generalize e.evaluate (rules.host false).blind c.value a.root = x at hrel
    generalize e.evaluate (rules.host false).blind d.value b.root = y at hrel
    cases hrel with
    | none => rfl
    | some hr => exact congrArg some hr.holds_eq

theorem selectEach_alike (hrules : rules.IgnoreOrder) {a b : Node} (h : a.Alike b)
    {follow : Node → Option (List Node)}
    (hfollow : ∀ c d : Node, c.Alike d → Option.Rel (Shuffled Node.Alike) (follow c) (follow d)) :
    ∀ selectors : List Selector, Option.Rel (Shuffled Node.Alike)
      (selectEach (rules.host false).blind a follow selectors)
      (selectEach (rules.host false).blind b follow selectors)
  | [] => .some (.of_forall₂ .nil)
  | selector :: rest => by
    refine Option.Rel.bind (Selector.select_alike hrules h selector) fun _ _ hpicked => ?_
    refine Option.Rel.bind (gather_shuffled hfollow hpicked) fun _ _ hfirst => ?_
    refine Option.Rel.bind (selectEach_alike hrules h hfollow rest) fun _ _ hmore => ?_
    exact .some (hfirst.append hmore)

theorem Segment.apply_alike (hrules : rules.IgnoreOrder) {a b : Node} (h : a.Alike b)
    {follow : Node → Option (List Node)}
    (hfollow : ∀ c d : Node, c.Alike d → Option.Rel (Shuffled Node.Alike) (follow c) (follow d)) :
    ∀ segment : Segment, Option.Rel (Shuffled Node.Alike)
      (segment.apply (rules.host false).blind follow a)
      (segment.apply (rules.host false).blind follow b)
  | .child _ selectors => selectEach_alike hrules h hfollow selectors
  | .descendant _ selectors =>
    gather_shuffled (fun _ _ hcd => selectEach_alike hrules hcd hfollow selectors) h.descendants

theorem depthFirst_alike (hrules : rules.IgnoreOrder) : ∀ (segments : List Segment) {a b : Node},
    a.Alike b → Option.Rel (Shuffled Node.Alike)
      (depthFirst (rules.host false).blind segments a)
      (depthFirst (rules.host false).blind segments b)
  | [], _, _, h => .some (.singleton h)
  | segment :: rest, _, _, h =>
    Segment.apply_alike hrules h (fun _ _ hcd => depthFirst_alike hrules rest hcd) segment

end

end JsonPath
