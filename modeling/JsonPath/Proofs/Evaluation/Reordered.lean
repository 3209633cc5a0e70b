import JsonPath.Operand
import JsonPath.Proofs.Evaluation.Types
import Mathlib.Data.List.Forall2

/-!
# Documents with their members in another order

Two documents are the same up to the order of members if the members of objects in the one, at any
depth, are those of the other in some order. Nothing that a filter can ask of two values tells such
documents apart: neither the comparisons, nor their sizes, nor the member of a name.
-/

namespace JsonPath

mutual

/-- The second value has the members of the first at any depth, in whatever order. All else stays in
its place. -/
inductive Value.Reordered : Value → Value → Prop
  | null : Value.Reordered .null .null
  | boolean {b : Bool} : Value.Reordered (.boolean b) (.boolean b)
  | number {n : Number} : Value.Reordered (.number n) (.number n)
  | string {s : Text} : Value.Reordered (.string s) (.string s)
  | array {as bs : List Value} : ItemsReordered as bs → Value.Reordered (.array as) (.array bs)
  | sequence {form : SequenceForm} {as bs : List Value} : ItemsReordered as bs →
      Value.Reordered (.sequence form as) (.sequence form bs)
  | object {as ms bs : List (Text × Value)} : as.Perm ms → MembersReordered ms bs →
      Value.Reordered (.object as) (.object bs)
  | octets {bytes : List UInt8} : Value.Reordered (.octets bytes) (.octets bytes)
  | nothing : Value.Reordered .nothing .nothing

inductive ItemsReordered : List Value → List Value → Prop
  | nil : ItemsReordered [] []
  | cons {a b : Value} {as bs : List Value} : Value.Reordered a b → ItemsReordered as bs →
      ItemsReordered (a :: as) (b :: bs)

inductive MembersReordered : List (Text × Value) → List (Text × Value) → Prop
  | nil : MembersReordered [] []
  | cons {name : Text} {a b : Value} {as bs : List (Text × Value)} : Value.Reordered a b →
      MembersReordered as bs → MembersReordered ((name, a) :: as) ((name, b) :: bs)

end

open Value (Reordered lookup?)

variable {a b v v' w w' : Value} {as bs : List Value} {ls ms ns : List (Text × Value)}

theorem ItemsReordered.forall₂ (h : ItemsReordered as bs) : List.Forall₂ Reordered as bs := by
  induction as generalizing bs with
  | nil =>
    cases h
    exact .nil
  | cons a as ih =>
    cases h with
    | cons hab hrest => exact .cons hab (ih hrest)

theorem MembersReordered.forall₂ (h : MembersReordered ms ns) :
    List.Forall₂ (fun m n => m.1 = n.1 ∧ Reordered m.2 n.2) ms ns := by
  induction ms generalizing ns with
  | nil =>
    cases h
    exact .nil
  | cons m ms ih =>
    cases h with
    | cons hab hrest => exact .cons ⟨rfl, hab⟩ (ih hrest)

theorem MembersReordered.names_eq (h : MembersReordered ms ns) :
    ms.map Prod.fst = ns.map Prod.fst := by
  induction ms generalizing ns with
  | nil =>
    cases h
    rfl
  | cons m ms ih =>
    cases h with
    | cons hab hrest => rw [List.map_cons, List.map_cons, ih hrest]

/-! ### Members by name -/

theorem lookup?_eq_some_iff (h : (ms.map Prod.fst).Nodup) {name : Text} :
    lookup? name ms = some v ↔ (name, v) ∈ ms := by
  unfold lookup?
  constructor
  · intro hfind
    obtain ⟨⟨other, value⟩, hmem, rfl⟩ := Option.map_eq_some_iff.1 hfind
    have hname : other = name := by simpa using List.find?_some hmem
    rw [← hname]
    exact List.mem_of_find?_eq_some hmem
  · intro hmem
    induction ms with
    | nil => cases hmem
    | cons m ms ih =>
      obtain ⟨hnot, hnodup⟩ := List.nodup_cons.1 h
      rcases List.mem_cons.1 hmem with rfl | hmem
      · rw [List.find?_cons_of_pos (by simp)]
        rfl
      · have hne : m.1 ≠ name := by
          rintro rfl
          exact hnot (List.mem_map.2 ⟨_, hmem, rfl⟩)
        rw [List.find?_cons_of_neg (by simpa using hne)]
        exact ih hnodup hmem

theorem lookup?_perm (h : ls.Perm ms) (hnodup : (ls.map Prod.fst).Nodup) (name : Text) :
    lookup? name ls = lookup? name ms := by
  apply Option.ext
  intro v
  rw [lookup?_eq_some_iff hnodup, lookup?_eq_some_iff ((h.map _).nodup_iff.1 hnodup), h.mem_iff]

theorem MembersReordered.lookup? (h : MembersReordered ms ns) (name : Text) :
    Option.Rel Reordered (lookup? name ms) (lookup? name ns) := by
  induction ms generalizing ns with
  | nil =>
    cases h
    exact .none
  | cons m ms ih =>
    cases h with
    | @cons other a b _ bs hab hrest =>
      unfold Value.lookup?
      by_cases heq : other = name
      · rw [List.find?_cons_of_pos (by simpa using heq),
          List.find?_cons_of_pos (by simpa using heq)]
        exact .some hab
      · rw [List.find?_cons_of_neg (by simpa using heq),
          List.find?_cons_of_neg (by simpa using heq)]
        exact ih hrest

/-- The members of a name are the same up to order, or there is none. -/
theorem lookup?_reordered (hperm : ls.Perm ms) (hmembers : MembersReordered ms ns)
    (hnodup : (ls.map Prod.fst).Nodup) (name : Text) :
    Option.Rel Reordered (lookup? name ls) (lookup? name ns) := by
  rw [lookup?_perm hperm hnodup]
  exact hmembers.lookup? name

/-! ### Comparisons -/

/-- The values that filters compare: those of documents, and nothing. -/
def Value.IsData (v : Value) : Prop := v.isJson = true ∨ v = .nothing

theorem Value.IsData.item (h : v.IsData) (hitems : v.items? = some as) : ∀ a ∈ as, a.IsData := by
  rcases h with h | rfl
  · intro a ha
    left
    cases v with
    | array items =>
      cases hitems
      exact areJson_iff.1 h a ha
    | sequence form items =>
      cases hitems
      cases form with
      | tuple => exact areJson_iff.1 h a ha
      | nodeList => cases h
    | _ => cases hitems
  · cases hitems

theorem Value.IsData.member (h : (Value.object ms).IsData) : ∀ m ∈ ms, m.2.IsData := by
  rcases h with h | h
  · rw [isJson, Bool.and_eq_true] at h
    exact fun m hm => .inl (membersAreJson_iff.1 h.2 m hm)
  · cases h

theorem Value.IsData.names_nodup (h : (Value.object ms).IsData) : (ms.map Prod.fst).Nodup := by
  rcases h with h | h
  · rw [isJson, Bool.and_eq_true, decide_eq_true_eq] at h
    exact h.1
  · cases h

theorem equalMembers_eq_all (ms ns : List (Text × Value)) :
    Value.equalMembers ms ns = ms.all fun m => (lookup? m.1 ns).any m.2.equal := by
  induction ms with
  | nil => rfl
  | cons m ms ih =>
    rw [Value.equalMembers, ih, List.all_cons]
    cases lookup? m.1 ns <;> rfl

mutual

/-- Values that are the same up to the order of members are equal to the same values. -/
theorem Value.Reordered.equal : ∀ {v v' w w' : Value}, Reordered v v' → Reordered w w' →
    w.IsData → v.equal w = v'.equal w'
  | _, _, _, _, .null, hw, _ | _, _, _, _, .boolean, hw, _ | _, _, _, _, .number, hw, _
  | _, _, _, _, .string, hw, _ | _, _, _, _, .octets, hw, _ | _, _, _, _, .nothing, hw, _ => by
    cases hw <;> rfl
  | _, _, _, _, .array hitems, hw, hdata | _, _, _, _, .sequence hitems, hw, hdata => by
    cases hw with
    | array hitems' | sequence hitems' => exact hitems.equal hitems' (hdata.item rfl)
    | _ => rfl
  | _, _, _, _, .object hperm hmembers, hw, hdata => by
    cases hw with
    | @object _ _ ns' hperm' hmembers' =>
      have hlength := hperm.length_eq.trans (List.Forall₂.length_eq hmembers.forall₂)
      have hlength' := hperm'.length_eq.trans (List.Forall₂.length_eq hmembers'.forall₂)
      rw [Value.equal, Value.equal, hlength, hlength', equalMembers_eq_all, hperm.all_eq,
        ← equalMembers_eq_all]
      rw [hmembers.equal hperm' hmembers' hdata]
    | _ => rfl

theorem ItemsReordered.equal : ∀ {as as' bs bs' : List Value}, ItemsReordered as as' →
    ItemsReordered bs bs' → (∀ b ∈ bs, b.IsData) →
      Value.equalItems as bs = Value.equalItems as' bs'
  | _, _, _, _, .nil, hb, _ => by cases hb <;> rfl
  | _, _, _, _, .cons ha has, hb, hdata => by
    cases hb with
    | nil => rfl
    | cons hb hbs =>
      obtain ⟨hfirst, hrest⟩ := List.forall_mem_cons.1 hdata
      rw [Value.equalItems, Value.equalItems, ha.equal hb hfirst, has.equal hbs hrest]

theorem MembersReordered.equal : ∀ {ms ms' ls ns ns' : List (Text × Value)},
    MembersReordered ms ms' → ls.Perm ns → MembersReordered ns ns' → (Value.object ls).IsData →
      Value.equalMembers ms ls = Value.equalMembers ms' ns'
  | _, _, _, _, _, .nil, _, _, _ => rfl
  | _, _, ls, _, ns', @MembersReordered.cons name a a' _ _ ha has, hperm, hmembers, hdata => by
    rw [Value.equalMembers, Value.equalMembers, has.equal hperm hmembers hdata]
    congr 1
    have hrel := lookup?_reordered hperm hmembers hdata.names_nodup name
    have hmember (b : Value) (hb : lookup? name ls = some b) : b.IsData :=
      hdata.member (name, b) ((lookup?_eq_some_iff hdata.names_nodup).1 hb)
    generalize lookup? name ls = b? at hrel hmember
    generalize lookup? name ns' = b'? at hrel
    cases hrel with
    | none => rfl
    | some hb => exact ha.equal hb (hmember _ rfl)

end

theorem Value.Reordered.less (hv : Reordered v v') (hw : Reordered w w') :
    v.less w = v'.less w' := by
  cases hv <;> cases hw <;> rfl

/-- No comparison tells the order of members. -/
theorem Value.Reordered.holds (hv : Reordered v v') (hw : Reordered w w') (hdata : w.IsData)
    (operator : Comparison) : operator.holds v w = operator.holds v' w' := by
  cases operator <;> simp only [Comparison.holds, hv.equal hw hdata, hv.less hw, hw.less hv]

/-! ### Sizes -/

theorem Value.Reordered.size?_eq (h : Reordered v w) :
    (Operand.value v).size? = (Operand.value w).size? := by
  cases h with
  | array hitems | sequence hitems => exact congrArg some hitems.forall₂.length_eq
  | object hperm hmembers =>
    exact congrArg some (hperm.length_eq.trans hmembers.forall₂.length_eq)
  | _ => rfl

theorem Value.Reordered.isTrue_eq (h : Reordered v w) : v.isTrue = w.isTrue := by
  cases h with
  | array hitems | sequence hitems => cases hitems <;> rfl
  | object hperm hmembers =>
    rw [isTrue, isTrue, hperm.isEmpty_eq]
    cases hmembers <;> rfl
  | _ => rfl

/-! ### Documents -/

mutual

theorem Value.Reordered.isJson : ∀ {v w : Value}, Reordered v w → v.isJson = true →
    w.isJson = true
  | _, _, .null, h | _, _, .boolean, h | _, _, .number, h | _, _, .string, h | _, _, .octets, h
  | _, _, .nothing, h => h
  | _, _, .array hitems, h => hitems.isJson h
  | _, _, @Reordered.sequence form _ _ hitems, h => by
    cases form with
    | tuple => exact hitems.isJson h
    | nodeList => cases h
  | _, _, .object hperm hmembers, h => by
    rw [Value.isJson, Bool.and_eq_true, decide_eq_true_eq, membersAreJson_iff] at h ⊢
    obtain ⟨hnodup, hjson⟩ := h
    refine ⟨?_, hmembers.isJson fun m hm => hjson m (hperm.mem_iff.2 hm)⟩
    rw [← hmembers.names_eq]
    exact (hperm.map _).nodup_iff.1 hnodup

theorem ItemsReordered.isJson : ∀ {as bs : List Value}, ItemsReordered as bs →
    areJson as = true → areJson bs = true
  | _, _, .nil, h => h
  | _, _, .cons ha has, h => by
    rw [areJson, Bool.and_eq_true] at h ⊢
    exact ⟨ha.isJson h.1, has.isJson h.2⟩

theorem MembersReordered.isJson : ∀ {ms ns : List (Text × Value)}, MembersReordered ms ns →
    (∀ m ∈ ms, m.2.isJson = true) → ∀ n ∈ ns, n.2.isJson = true
  | _, _, .nil, _ => List.forall_mem_nil _
  | _, _, .cons ha has, h => by
    obtain ⟨hfirst, hrest⟩ := List.forall_mem_cons.1 h
    exact List.forall_mem_cons.2 ⟨ha.isJson hfirst, has.isJson hrest⟩

end

end JsonPath
