import JsonPath.Proofs.Evaluation.Reordered
import JsonPath.Proofs.Evaluation.Walk
import JsonPath.Proofs.Number.Exact
import Mathlib.Data.List.Perm.Subperm

/-!
# Deep equality

The comparison of two values goes through the first of them and looks up its members in the second.
What it decides treats both alike: values are equal if they are scalars of one kind and one value,
sequences that are equal place by place, or objects with the same names and equal values under each
of them. That a lookup finds all there is to compare rests on the names of an object being distinct,
and on no number in a document being a NaN. From there the comparison is an equivalence, and since
it goes down the values part by part, a part can be exchanged for an equal one.
-/

namespace JsonPath

namespace Value

/-- Whether no number in the value is a NaN. -/
def hasNoNan (value : Value) : Bool :=
  value.walk.all fun part => !(part.2 matches .number (.double .nan))

/-- The value is one of a document without a NaN, or nothing. -/
structure IsExact (value : Value) : Prop where
  data : value.IsData
  hasNoNan : value.hasNoNan = true

/-- Two values are equal in all their parts. Numbers are so by their exact values, sequences of any
form place by place, and objects name by name. -/
inductive DeepEqual : Value → Value → Prop
  | nothing : DeepEqual .nothing .nothing
  | null : DeepEqual .null .null
  | boolean {b : Bool} : DeepEqual (.boolean b) (.boolean b)
  | number {m n : Number} {x : WithBot (WithTop ℚ)} : m.value? = some x → n.value? = some x →
      DeepEqual (.number m) (.number n)
  | string {s : Text} : DeepEqual (.string s) (.string s)
  | sequence {a b : Value} {as bs : List Value} : a.items? = some as → b.items? = some bs →
      as.length = bs.length →
      (∀ (i : Nat) (v w : Value), as[i]? = some v → bs[i]? = some w → DeepEqual v w) →
      DeepEqual a b
  | object {ms ns : List (Text × Value)} :
      (∀ name, name ∈ ms.map Prod.fst ↔ name ∈ ns.map Prod.fst) →
      (∀ (name : Text) (v w : Value), (name, v) ∈ ms → (name, w) ∈ ns → DeepEqual v w) →
      DeepEqual (.object ms) (.object ns)

variable {a b c v w value : Value} {as bs items : List Value}
  {ms ns members : List (Text × Value)} {step : Step} {m n : Number}

/-! ### Parts of exact values -/

theorem mem_children_of_getElem? (h : value.items? = some items) {i : Nat}
    (hi : items[i]? = some v) : (.index i, v) ∈ value.children := by
  rw [Node.children_of_items? h]
  exact mem_indexed.2 ⟨i, hi, by rw [Nat.zero_add]⟩

theorem mem_children_of_mem {name : Text} (h : (name, v) ∈ members) :
    (.name name, v) ∈ (object members).children :=
  List.mem_map_of_mem h

theorem IsExact.child (h : value.IsExact) (hchild : (step, v) ∈ value.children) : v.IsExact := by
  refine ⟨?_, List.all_eq_true.2 fun part hpart => ?_⟩
  · rcases h.data with hjson | rfl
    · exact .inl (isJson_of_mem_children hjson hchild)
    · cases hchild
  · have hmem : (step :: part.1, part.2) ∈ value.walk := by
      rw [walk_eq]
      refine List.mem_cons_of_mem _ (List.mem_flatMap.2 ⟨_, hchild, ?_⟩)
      exact List.mem_map.2 ⟨part, hpart, rfl⟩
    exact List.all_eq_true.1 h.hasNoNan (step :: part.1, part.2) hmem

theorem IsExact.item (h : value.IsExact) (hitems : value.items? = some items) {i : Nat}
    (hi : items[i]? = some v) : v.IsExact :=
  h.child (mem_children_of_getElem? hitems hi)

theorem IsExact.member (h : (object members).IsExact) {name : Text}
    (hmember : (name, v) ∈ members) : v.IsExact :=
  h.child (mem_children_of_mem hmember)

theorem IsExact.exists_value? (h : (number n).IsExact) : ∃ x, n.value? = some x := by
  match n, h.hasNoNan with
  | .integer _, _ => exact ⟨_, rfl⟩
  | .double (.finite _ _), _ => exact ⟨_, rfl⟩
  | .double (.infinite _), _ => exact ⟨_, rfl⟩

/-! ### One level of the comparison -/

theorem equal_of_items? (ha : a.items? = some as) (hb : b.items? = some bs) :
    a.equal b = equalItems as bs := by
  cases a <;> cases ha <;> cases b <;> cases hb <;> rfl

theorem equalItems_iff : equalItems as bs = true ↔ as.length = bs.length ∧
    ∀ (i : Nat) (v w : Value), as[i]? = some v → bs[i]? = some w → v.equal w = true := by
  induction as generalizing bs with
  | nil => cases bs <;> simp [equalItems]
  | cons a as ih =>
    cases bs with
    | nil => simp [equalItems]
    | cons b bs =>
      rw [equalItems, Bool.and_eq_true, ih, List.length_cons, List.length_cons,
        Nat.add_right_cancel_iff]
      constructor
      · rintro ⟨hfirst, hlength, hrest⟩
        refine ⟨hlength, fun i v w hv hw => ?_⟩
        cases i with
        | zero =>
          cases hv
          cases hw
          exact hfirst
        | succ i => exact hrest i v w hv hw
      · rintro ⟨hlength, hall⟩
        exact ⟨hall 0 a b rfl rfl, hlength, fun i => hall (i + 1)⟩

theorem equal_object_iff (hms : (ms.map Prod.fst).Nodup) (hns : (ns.map Prod.fst).Nodup) :
    (object ms).equal (object ns) = true ↔
      (∀ name, name ∈ ms.map Prod.fst ↔ name ∈ ns.map Prod.fst) ∧
      ∀ name v w, (name, v) ∈ ms → (name, w) ∈ ns → v.equal w = true := by
  rw [equal, Bool.and_eq_true, beq_iff_eq, equalMembers_eq_all, List.all_eq_true]
  constructor
  · rintro ⟨hlength, hall⟩
    have hsubset : ms.map Prod.fst ⊆ ns.map Prod.fst := by
      intro name hname
      obtain ⟨m, hm, rfl⟩ := List.mem_map.1 hname
      obtain ⟨w, hlookup, -⟩ := (Option.any_eq_true m.2.equal _).1 (hall m hm)
      exact List.mem_map.2 ⟨(m.1, w), (lookup?_eq_some_iff hns).1 hlookup, rfl⟩
    -- As many distinct names among those of the second are all of them.
    have hperm : (ms.map Prod.fst).Perm (ns.map Prod.fst) :=
      (hms.subperm hsubset).perm_of_length_le (by simp [hlength])
    refine ⟨fun name => hperm.mem_iff, fun name v w hv hw => ?_⟩
    have hequal := hall _ hv
    rw [(lookup?_eq_some_iff hns).2 hw] at hequal
    exact hequal
  · rintro ⟨hnames, hvalues⟩
    have hperm : (ms.map Prod.fst).Perm (ns.map Prod.fst) :=
      (List.perm_ext_iff_of_nodup hms hns).2 hnames
    refine ⟨by simpa using hperm.length_eq, fun m hm => ?_⟩
    obtain ⟨⟨_, w⟩, hw, rfl⟩ := List.mem_map.1 ((hnames m.1).1 (List.mem_map_of_mem hm))
    rw [(lookup?_eq_some_iff hns).2 hw]
    exact hvalues _ _ _ hm hw

/-! ### Equal in all parts -/

theorem DeepEqual.equal (h : a.DeepEqual b) (ha : a.IsExact) (hb : b.IsExact) :
    a.equal b = true := by
  induction h with
  | nothing | null => rfl
  | boolean | string => exact beq_self_eq_true _
  | number hm hn => exact Number.same_iff.2 ⟨_, hm, hn⟩
  | sequence has hbs hlength _ ih =>
    rw [equal_of_items? has hbs, equalItems_iff]
    exact ⟨hlength, fun i v w hv hw => ih i v w hv hw (ha.item has hv) (hb.item hbs hw)⟩
  | object hnames _ ih =>
    refine (equal_object_iff ha.data.names_nodup hb.data.names_nodup).2 ⟨hnames, ?_⟩
    exact fun name v w hv hw => ih name v w hv hw (ha.member hv) (hb.member hw)

theorem deepEqual_of_equal (ha : a.IsExact) (hb : b.IsExact) (h : a.equal b = true) :
    a.DeepEqual b := by
  induction a using induction_on_children generalizing b with
  | h a ih =>
    have hsequence (as bs : List Value) (has : a.items? = some as) (hbs : b.items? = some bs) :
        a.DeepEqual b := by
      rw [equal_of_items? has hbs, equalItems_iff] at h
      refine .sequence has hbs h.1 fun i v w hv hw => ?_
      exact ih _ v (mem_children_of_getElem? has hv) (ha.item has hv) (hb.item hbs hw)
        (h.2 i v w hv hw)
    cases a with
    | null =>
      cases b with
      | null => exact .null
      | _ => cases h
    | boolean x =>
      cases b with
      | boolean y =>
        obtain rfl : x = y := beq_iff_eq.1 h
        exact .boolean
      | _ => cases h
    | number m =>
      cases b with
      | number n =>
        obtain ⟨x, hm, hn⟩ := Number.same_iff.1 h
        exact .number hm hn
      | _ => cases h
    | string s =>
      cases b with
      | string t =>
        obtain rfl : s = t := beq_iff_eq.1 h
        exact .string
      | _ => cases h
    | array as | sequence _ as =>
      cases b with
      | array bs | sequence _ bs => exact hsequence as bs rfl rfl
      | _ => cases h
    | object ms =>
      cases b with
      | object ns =>
        obtain ⟨hnames, hvalues⟩ :=
          (equal_object_iff ha.data.names_nodup hb.data.names_nodup).1 h
        refine .object hnames fun name v w hv hw => ?_
        exact ih _ v (mem_children_of_mem hv) (ha.member hv) (hb.member hw)
          (hvalues name v w hv hw)
      | _ => cases h
    | octets => rcases ha.data with hjson | heq <;> contradiction
    | nothing =>
      cases b with
      | nothing => exact .nothing
      | _ => cases h

theorem equal_iff_deepEqual (ha : a.IsExact) (hb : b.IsExact) :
    a.equal b = true ↔ a.DeepEqual b :=
  ⟨deepEqual_of_equal ha hb, fun h => h.equal ha hb⟩

theorem DeepEqual.refl (h : value.IsExact) : value.DeepEqual value := by
  induction value using induction_on_children with
  | h value ih =>
    have hsequence (items : List Value) (hitems : value.items? = some items) :
        value.DeepEqual value := by
      refine .sequence hitems hitems rfl fun i v w hv hw => ?_
      obtain rfl : v = w := Option.some.inj (hv.symm.trans hw)
      exact ih _ v (mem_children_of_getElem? hitems hv) (h.item hitems hv)
    cases value with
    | null => exact .null
    | boolean => exact .boolean
    | number n =>
      obtain ⟨x, hx⟩ := h.exists_value?
      exact .number hx hx
    | string => exact .string
    | array items | sequence _ items => exact hsequence items rfl
    | object members =>
      refine .object (fun _ => Iff.rfl) fun name v w hv hw => ?_
      have hlookup := (lookup?_eq_some_iff h.data.names_nodup).2 hv
      obtain rfl : v = w := Option.some.inj
        (hlookup.symm.trans ((lookup?_eq_some_iff h.data.names_nodup).2 hw))
      exact ih _ v (mem_children_of_mem hv) (h.member hv)
    | octets => rcases h.data with hjson | heq <;> contradiction
    | nothing => exact .nothing

theorem DeepEqual.symm (h : a.DeepEqual b) : b.DeepEqual a := by
  induction h with
  | nothing => exact .nothing
  | null => exact .null
  | boolean => exact .boolean
  | number hm hn => exact .number hn hm
  | string => exact .string
  | sequence has hbs hlength _ ih =>
    exact .sequence hbs has hlength.symm fun i v w hv hw => ih i w v hw hv
  | object hnames _ ih =>
    exact .object (fun name => (hnames name).symm) fun name v w hv hw => ih name w v hw hv

theorem DeepEqual.trans (h : a.DeepEqual b) (h' : b.DeepEqual c) : a.DeepEqual c := by
  induction h generalizing c with
  | nothing | null | boolean | string => exact h'
  | @number m n x hm hn =>
    cases h' with
    | @number _ l y hn' hl =>
      obtain rfl : x = y := Option.some.inj (hn.symm.trans hn')
      exact .number hm hl
    | sequence hitems => cases hitems
  | @sequence a b as bs has hbs hlength _ ih =>
    cases h' with
    | @sequence _ _ bs' cs hbs' hcs hlength' hrest =>
      obtain rfl : bs = bs' := Option.some.inj (hbs.symm.trans hbs')
      refine .sequence has hcs (hlength.trans hlength') fun i u w hu hw => ?_
      obtain ⟨v, hv⟩ : ∃ v, bs[i]? = some v := by
        obtain ⟨hlt, -⟩ := List.getElem?_eq_some_iff.1 hu
        exact ⟨_, List.getElem?_eq_getElem (hlength ▸ hlt)⟩
      exact ih i u v hu hv (hrest i v w hv hw)
    | _ => cases hbs
  | @object ms ns hnames _ ih =>
    cases h' with
    | @object _ ls hnames' hrest =>
      refine .object (fun name => (hnames name).trans (hnames' name)) fun name u w hu hw => ?_
      obtain ⟨⟨_, v⟩, hv, rfl⟩ := List.mem_map.1 ((hnames name).1 (List.mem_map_of_mem hu))
      exact ih _ u v hu hv (hrest _ v w hv hw)
    | sequence hitems => cases hitems

theorem DeepEqual.kind_eq (h : a.DeepEqual b) : a.kind = b.kind := by
  cases h with
  | sequence has hbs => cases a <;> cases has <;> cases b <;> cases hbs <;> rfl
  | _ => rfl

theorem equal_refl (h : value.IsExact) : value.equal value = true :=
  (DeepEqual.refl h).equal h h

/-! ### Replacing a part -/

/-- What takes the place of a child when the child of a step is changed. -/
def changed (step : Step) (f : Value → Value) (child : Step × Value) : Value :=
  if child.1 = step then f child.2 else child.2

/-- The value with the child of a step changed. -/
def mapChild (step : Step) (f : Value → Value) : Value → Value
  | array items => array ((indexed 0 items).map (changed step f))
  | sequence form items => sequence form ((indexed 0 items).map (changed step f))
  | object members => object (members.map fun m => (m.1, changed step f (.name m.1, m.2)))
  | value => value

/-- The value with another one at a location. -/
def replaceAt : Value → Location → Value → Value
  | _, [], new => new
  | value, step :: rest, new => value.mapChild step fun child => child.replaceAt rest new

variable {f : Value → Value} {location : Location} {part new : Value}

theorem indexed_map {α β : Type} (g : Step × α → β) (start : Nat) (items : List α) :
    indexed start ((indexed start items).map g) =
      (indexed start items).map fun child => (child.1, g child) := by
  induction items generalizing start with
  | nil => rfl
  | cons item rest ih => rw [indexed, List.map_cons, indexed, ih, List.map_cons]

theorem children_mapChild (step : Step) (f : Value → Value) (value : Value) :
    (value.mapChild step f).children =
      value.children.map fun child => (child.1, changed step f child) := by
  cases value with
  | array items | sequence _ items => exact indexed_map (changed step f) 0 items
  | object members =>
    rw [mapChild, children, children, List.map_map, List.map_map]
    rfl
  | null | boolean | number | string | octets | nothing => rfl

theorem child?_mapChild (step : Step) (f : Value → Value) (value : Value) :
    (value.mapChild step f).child? step = (value.child? step).map f := by
  unfold child?
  rw [children_mapChild, List.find?_map, Option.map_map, Option.map_map]
  refine Option.map_congr fun child hchild => if_pos ?_
  simpa using List.find?_some hchild

/-- What replaces a part is found where the part was. -/
theorem at?_replaceAt (h : value.at? location = some part) (new : Value) :
    (value.replaceAt location new).at? location = some new := by
  induction location generalizing value with
  | nil => rfl
  | cons step rest ih =>
    obtain ⟨child, hchild, hat⟩ := Option.bind_eq_some_iff.1 h
    rw [replaceAt, at?, child?_mapChild, hchild]
    exact ih hat

theorem equalItems_map_indexed {g : Step × Value → Value} {start : Nat}
    (h : ∀ child ∈ indexed start items, child.2.equal (g child) = true) :
    equalItems items ((indexed start items).map g) = true := by
  induction items generalizing start with
  | nil => rfl
  | cons item rest ih =>
    obtain ⟨hfirst, hrest⟩ := List.forall_mem_cons.1 h
    rw [indexed, List.map_cons, equalItems, Bool.and_eq_true]
    exact ⟨hfirst, ih hrest⟩

theorem equal_mapChild (hvalue : value.IsExact)
    (h : ∀ child, (step, child) ∈ value.children → child.equal (f child) = true) :
    value.equal (value.mapChild step f) = true := by
  have hchanged : ∀ child ∈ value.children, child.2.equal (changed step f child) = true := by
    rintro ⟨step', child⟩ hchild
    unfold changed
    dsimp only
    split
    next heq => exact h child (heq ▸ hchild)
    · exact equal_refl (hvalue.child hchild)
  cases value with
  | array items | sequence _ items => exact equalItems_map_indexed hchanged
  | object members =>
    have hnames := hvalue.data.names_nodup
    have hsame : (members.map fun m => (m.1, changed step f (.name m.1, m.2))).map Prod.fst =
        members.map Prod.fst := by
      rw [List.map_map]
      rfl
    rw [mapChild, equal_object_iff hnames (hsame ▸ hnames), hsame]
    refine ⟨fun _ => Iff.rfl, fun name v w hv hw => ?_⟩
    obtain ⟨⟨_, v'⟩, hv', heq⟩ := List.mem_map.1 hw
    cases heq
    obtain rfl : v' = v := Option.some.inj (((lookup?_eq_some_iff hnames).2 hv').symm.trans
      ((lookup?_eq_some_iff hnames).2 hv))
    exact hchanged _ (mem_children_of_mem hv)
  | null | boolean | number | string | nothing => exact equal_refl hvalue
  | octets => rcases hvalue.data with hjson | heq <;> contradiction

/-- A value stays equal when a part of it is replaced by an equal one. -/
theorem equal_replaceAt (hvalue : value.IsExact) (h : value.at? location = some part)
    (hnew : part.equal new = true) : value.equal (value.replaceAt location new) = true := by
  induction location generalizing value with
  | nil =>
    cases h
    exact hnew
  | cons step rest ih =>
    obtain ⟨child, hchild, hat⟩ := Option.bind_eq_some_iff.1 h
    refine equal_mapChild hvalue fun child' hchild' => ?_
    rcases hvalue.data with hjson | rfl
    · obtain rfl : child = child' :=
        Option.some.inj (hchild.symm.trans (child?_of_mem_children hjson hchild'))
      exact ih (hvalue.child hchild') hat
    · cases hchild'

/-- **Deep equality.** On values of documents without a NaN, and nothing, the comparison holds if
and only if the values are equal in all their parts, so they are of one kind and a truth value never
equals a number. It is reflexive, symmetric and transitive, and a value stays equal when a part of
it, at any location, is replaced by an equal value. -/
theorem equal_exact (ha : a.IsExact) (hb : b.IsExact) (hc : c.IsExact) :
    (a.equal b = true ↔ a.DeepEqual b) ∧
    (a.equal b = true → a.kind = b.kind) ∧
    (∀ (x : Bool) (n : Number), (boolean x).equal (number n) = false ∧
      (number n).equal (boolean x) = false) ∧
    a.equal a = true ∧
    (a.equal b = true → b.equal a = true) ∧
    (a.equal b = true → b.equal c = true → a.equal c = true) ∧
    ∀ (location : Location) (part new : Value), a.at? location = some part →
      part.equal new = true →
      (a.replaceAt location new).at? location = some new ∧
        a.equal (a.replaceAt location new) = true := by
  have hiff := equal_iff_deepEqual ha hb
  refine ⟨hiff, fun h => (hiff.1 h).kind_eq, fun _ _ => ⟨rfl, rfl⟩, equal_refl ha, fun h => ?_,
    fun h h' => ?_, fun location part new hat hnew => ?_⟩
  · exact (hiff.1 h).symm.equal hb ha
  · exact ((hiff.1 h).trans (deepEqual_of_equal hb hc h')).equal ha hc
  · exact ⟨at?_replaceAt hat new, equal_replaceAt ha hat hnew⟩

/-- Objects in another order, with an array against a tuple and an integer against a double of the
same value, and a part replaced below a member. -/
theorem equal_exact_nested :
    let zero : Value := .number (.double (.finite true .zero))
    let a : Value := .object [("x", .array [.number (.integer 0), .string "s"]), ("y", .null)]
    let b : Value := .object [("y", .null), ("x", .sequence .tuple [zero, .string "s"])]
    a.IsExact ∧ b.IsExact ∧ a.DeepEqual b ∧ b.equal a = true ∧
      a.at? [.name "x", .index 0] = some (.number (.integer 0)) ∧
      (Value.number (.integer 0)).equal zero = true ∧
      a.equal (a.replaceAt [.name "x", .index 0] zero) = true := by
  intro zero a b
  have ha : a.IsExact := ⟨.inl (by decide), by decide⟩
  have hb : b.IsExact := ⟨.inl (by decide), by decide⟩
  have hequal : a.equal b = true := by decide +kernel
  have hzero : (Value.number (.integer 0)).equal zero = true := by decide +kernel
  obtain ⟨hiff, -, -, -, hsymm, -, hreplace⟩ := equal_exact ha hb ha
  exact ⟨ha, hb, hiff.1 hequal, hsymm hequal, rfl, hzero,
    (hreplace [.name "x", .index 0] _ zero rfl hzero).2⟩

end Value

end JsonPath
