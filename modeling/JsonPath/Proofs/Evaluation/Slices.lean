import JsonPath.Evaluation
import Mathlib.Data.List.Forall2

/-!
# What a slice takes

The bounds of a slice are moved into the sequence before the indices go from the one towards the
other. Once an index lies within the sequence and is reached from the moved start, the start is
where it was unless it stood on the far side of the first or the last item, so the indices that are
taken are those between the bounds as they were given, in steps from the start or from the end of
the sequence that stands for it.
-/

namespace JsonPath

namespace Slice

variable {length : Nat} {start? stop? step? : Option Int} {start stop step i : Int} {n : Nat}

/-- A bound as it is counted from the start; below zero it is given from the end. -/
def fromStart (length : Nat) (index : Int) : Int := if index < 0 then index + length else index

/-- Where a slice starts going up: at the first item, or at its bound if that is no lower. -/
def upwardStart (length : Nat) (start? : Option Int) : Int :=
  start?.elim 0 fun start => max (fromStart length start) 0

/-- Where a slice starts going down: at the last item, or at its bound if that is no higher. -/
def downwardStart (length : Nat) (start? : Option Int) : Int :=
  start?.elim (length - 1) fun start => min (fromStart length start) (length - 1)

/-- The index is one that a slice comes to going up. -/
structure IsTakenUp (length : Nat) (start? stop? : Option Int) (step i : Int) : Prop where
  nonneg : 0 ≤ i
  lt_length : i < length
  start_le : ∀ start ∈ start?, fromStart length start ≤ i
  lt_stop : ∀ stop ∈ stop?, i < fromStart length stop
  step_dvd : step ∣ i - upwardStart length start?

/-- The index is one that a slice comes to going down. -/
structure IsTakenDown (length : Nat) (start? stop? : Option Int) (step i : Int) : Prop where
  nonneg : 0 ≤ i
  lt_length : i < length
  le_start : ∀ start ∈ start?, i ≤ fromStart length start
  stop_lt : ∀ stop ∈ stop?, fromStart length stop < i
  step_dvd : -step ∣ downwardStart length start? - i

/-! ### Progressions -/

theorem mem_progression {count : Nat} :
    i ∈ progression start step count ↔ ∃ n : Nat, n < count ∧ i = start + n * step := by
  simp only [progression, List.mem_map, List.mem_range]
  exact ⟨fun ⟨n, hn, h⟩ => ⟨n, hn, h.symm⟩, fun ⟨n, hn, h⟩ => ⟨n, hn, h.symm⟩⟩

theorem pairwise_progression_up (hstep : 0 < step) (start : Int) (count : Nat) :
    (progression start step count).Pairwise (· < ·) := by
  refine List.pairwise_map.2 (List.pairwise_lt_range.imp fun {a b} hab => ?_)
  have hmul : (a : Int) * step < b * step := Int.mul_lt_mul_of_pos_right (Int.ofNat_lt.2 hab) hstep
  omega

theorem pairwise_progression_down (hstep : step < 0) (start : Int) (count : Nat) :
    (progression start step count).Pairwise (· > ·) := by
  refine List.pairwise_map.2 (List.pairwise_lt_range.imp fun {a b} hab => ?_)
  have hmul : (b : Int) * step < a * step := Int.mul_lt_mul_of_neg_right (Int.ofNat_lt.2 hab) hstep
  change start + b * step < start + a * step
  omega

theorem lt_count_up_iff (hstep : 0 < step) :
    n < count start stop step ↔ start + n * step < stop := by
  have hle : (n : Int) + 1 ≤ (stop - start + step - 1) / step ↔
      (n + 1) * step ≤ stop - start + step - 1 := Int.le_ediv_iff_mul_le hstep
  rw [Int.add_mul] at hle
  rw [count, if_pos hstep]
  omega

theorem lt_count_down_iff (hstep : step < 0) :
    n < count start stop step ↔ stop < start + n * step := by
  have hle : (n : Int) + 1 ≤ (start - stop - step - 1) / -step ↔
      (n + 1) * -step ≤ start - stop - step - 1 := Int.le_ediv_iff_mul_le (by omega)
  rw [Int.add_mul, Int.mul_neg] at hle
  rw [count, if_neg (by omega), if_pos hstep]
  omega

theorem mem_progression_up (hstep : 0 < step) :
    i ∈ progression start step (count start stop step) ↔
      start ≤ i ∧ i < stop ∧ step ∣ i - start := by
  rw [mem_progression]
  constructor
  · rintro ⟨n, hn, rfl⟩
    have hle : 0 ≤ (n : Int) * step := Int.mul_nonneg (by omega) (by omega)
    refine ⟨by omega, (lt_count_up_iff hstep).1 hn, ?_⟩
    rw [Int.add_comm, Int.add_sub_cancel]
    exact Int.dvd_mul_left _ _
  · rintro ⟨hstart, hstop, k, hk⟩
    have hnonneg : 0 ≤ k := Int.nonneg_of_mul_nonneg_right (by omega : 0 ≤ step * k) hstep
    obtain ⟨n, rfl⟩ := Int.eq_ofNat_of_zero_le hnonneg
    rw [Int.mul_comm] at hk
    exact ⟨n, (lt_count_up_iff hstep).2 (by omega), by omega⟩

theorem mem_progression_down (hstep : step < 0) :
    i ∈ progression start step (count start stop step) ↔
      i ≤ start ∧ stop < i ∧ -step ∣ start - i := by
  rw [mem_progression]
  constructor
  · rintro ⟨n, hn, rfl⟩
    have hle : (n : Int) * step ≤ 0 := Int.mul_nonpos_of_nonneg_of_nonpos (by omega) (by omega)
    refine ⟨by omega, (lt_count_down_iff hstep).1 hn, n, ?_⟩
    rw [Int.neg_mul, Int.mul_comm]
    omega
  · rintro ⟨hstart, hstop, k, hk⟩
    have hnonneg : 0 ≤ k := Int.nonneg_of_mul_nonneg_right (by omega : 0 ≤ -step * k) (by omega)
    obtain ⟨n, rfl⟩ := Int.eq_ofNat_of_zero_le hnonneg
    rw [Int.neg_mul, Int.mul_comm] at hk
    exact ⟨n, (lt_count_down_iff hstep).2 (by omega), by omega⟩

/-! ### Bounds -/

theorem upwardStart_le_iff :
    upwardStart length start? ≤ i ↔ 0 ≤ i ∧ ∀ start ∈ start?, fromStart length start ≤ i := by
  cases start? with
  | none => simp [upwardStart]
  | some start =>
    simp only [upwardStart, Option.elim_some, Option.mem_some_iff, forall_eq']
    omega

theorem le_downwardStart_iff : i ≤ downwardStart length start? ↔
    i < length ∧ ∀ start ∈ start?, i ≤ fromStart length start := by
  cases start? with
  | none =>
    simp only [downwardStart, Option.elim_none, Option.not_mem_none, false_implies, implies_true,
      and_true]
    omega
  | some start =>
    simp only [downwardStart, Option.elim_some, Option.mem_some_iff, forall_eq']
    omega

theorem bound_up (hstep : 0 < step) (index : Int) :
    bound length step index = min (max (fromStart length index) 0) length := if_pos hstep

theorem bound_down (hstep : step < 0) (index : Int) :
    bound length step index = min (max (fromStart length index) (-1)) (length - 1) :=
  if_neg (by omega)

/-- Going up, a start is moved down if it stands behind the last item. -/
theorem moved_start_up (hstep : 0 < step) :
    (start?.map (bound length step)).getD 0 = min (upwardStart length start?) length := by
  cases start? with
  | none => exact (Int.min_eq_left (Int.natCast_nonneg length)).symm
  | some start => exact bound_up hstep start

/-- Going down, a start is moved up if it stands before the first item. -/
theorem moved_start_down (hstep : step < 0) :
    (start?.map (bound length step)).getD (length - 1) =
      max (downwardStart length start?) (-1) := by
  cases start? with
  | none =>
    change (length : Int) - 1 = max ((length : Int) - 1) (-1)
    omega
  | some start =>
    have hbound : bound length step start = _ := bound_down hstep start
    change bound length step start = max (min (fromStart length start) (length - 1)) (-1)
    omega

theorem lt_moved_stop_iff (hstep : 0 < step) (hi : 0 ≤ i) :
    i < (stop?.map (bound length step)).getD length ↔
      i < length ∧ ∀ stop ∈ stop?, i < fromStart length stop := by
  cases stop? with
  | none => simp
  | some stop =>
    simp only [Option.map_some, Option.getD_some, Option.mem_some_iff, forall_eq', bound_up hstep]
    omega

theorem moved_stop_lt_iff (hstep : step < 0) (hi : i < length) :
    (stop?.map (bound length step)).getD (-1) < i ↔
      0 ≤ i ∧ ∀ stop ∈ stop?, fromStart length stop < i := by
  cases stop? with
  | none =>
    simp only [Option.map_none, Option.getD_none, Option.not_mem_none, false_implies,
      implies_true, and_true]
    omega
  | some stop =>
    simp only [Option.map_some, Option.getD_some, Option.mem_some_iff, forall_eq', bound_down hstep]
    omega

/-! ### Indices -/

theorem mem_indices_up_iff (hstep : 0 < step?.getD 1) :
    i ∈ indices length start? stop? step? ↔
      IsTakenUp length start? stop? (step?.getD 1) i := by
  have hup : ¬ step?.getD 1 < 0 := by omega
  unfold indices
  dsimp only
  rw [if_neg hup, if_neg hup]
  split
  next hempty =>
    refine iff_of_false List.not_mem_nil fun h => ?_
    have hnonneg := h.nonneg
    have hlt := h.lt_length
    omega
  next =>
    rw [mem_progression_up hstep, moved_start_up hstep]
    constructor
    · rintro ⟨hstart, hstop, hdvd⟩
      have hfirst := (upwardStart_le_iff.1 (Int.le_refl (upwardStart length start?))).1
      obtain ⟨hlt, hstop⟩ := (lt_moved_stop_iff hstep (by omega)).1 hstop
      -- The index is within the sequence, so a start that is no higher has not been moved.
      have hmoved : min (upwardStart length start?) length = upwardStart length start? := by omega
      rw [hmoved] at hstart hdvd
      obtain ⟨hnonneg, hstart⟩ := upwardStart_le_iff.1 hstart
      exact ⟨hnonneg, hlt, hstart, hstop, hdvd⟩
    · intro h
      have hstart := upwardStart_le_iff.2 ⟨h.nonneg, h.start_le⟩
      have hlt := h.lt_length
      have hmoved : min (upwardStart length start?) length = upwardStart length start? := by omega
      rw [hmoved, lt_moved_stop_iff hstep h.nonneg]
      exact ⟨hstart, ⟨hlt, h.lt_stop⟩, h.step_dvd⟩

theorem mem_indices_down_iff (hstep : step?.getD 1 < 0) :
    i ∈ indices length start? stop? step? ↔
      IsTakenDown length start? stop? (step?.getD 1) i := by
  unfold indices
  dsimp only
  rw [if_pos hstep, if_pos hstep]
  split
  next hempty =>
    refine iff_of_false List.not_mem_nil fun h => ?_
    have hnonneg := h.nonneg
    have hlt := h.lt_length
    omega
  next =>
    rw [mem_progression_down hstep, moved_start_down hstep]
    constructor
    · rintro ⟨hstart, hstop, hdvd⟩
      have hlast := (le_downwardStart_iff.1 (Int.le_refl (downwardStart length start?))).1
      obtain ⟨hnonneg, hstop⟩ := (moved_stop_lt_iff hstep (by omega)).1 hstop
      have hmoved : max (downwardStart length start?) (-1) = downwardStart length start? := by omega
      rw [hmoved] at hstart hdvd
      obtain ⟨hlt, hstart⟩ := le_downwardStart_iff.1 hstart
      exact ⟨hnonneg, hlt, hstart, hstop, hdvd⟩
    · intro h
      have hstart := le_downwardStart_iff.2 ⟨h.lt_length, h.le_start⟩
      have hnonneg := h.nonneg
      have hmoved : max (downwardStart length start?) (-1) = downwardStart length start? := by omega
      rw [hmoved, moved_stop_lt_iff hstep h.lt_length]
      exact ⟨hstart, ⟨hnonneg, h.stop_lt⟩, h.step_dvd⟩

theorem indices_of_step_zero (h : step?.getD 1 = 0) : indices length start? stop? step? = [] :=
  if_pos (.inr h)

theorem pairwise_indices_up (h : 0 < step?.getD 1) :
    (indices length start? stop? step?).Pairwise (· < ·) := by
  unfold indices
  dsimp only
  split
  · exact .nil
  · exact pairwise_progression_up h _ _

theorem pairwise_indices_down (h : step?.getD 1 < 0) :
    (indices length start? stop? step?).Pairwise (· > ·) := by
  unfold indices
  dsimp only
  split
  · exact .nil
  · exact pairwise_progression_down h _ _

/-- A slice takes places of the sequence only. -/
theorem mem_indices (h : i ∈ indices length start? stop? step?) : 0 ≤ i ∧ i < length := by
  rcases Int.lt_trichotomy (step?.getD 1) 0 with hstep | hstep | hstep
  · have htaken := (mem_indices_down_iff hstep).1 h
    exact ⟨htaken.nonneg, htaken.lt_length⟩
  · rw [indices_of_step_zero hstep] at h
    cases h
  · have htaken := (mem_indices_up_iff hstep).1 h
    exact ⟨htaken.nonneg, htaken.lt_length⟩

/-- A slice takes no place twice. -/
theorem nodup_indices (length : Nat) (start? stop? step? : Option Int) :
    (indices length start? stop? step?).Nodup := by
  rcases Int.lt_trichotomy (step?.getD 1) 0 with hstep | hstep | hstep
  · exact (pairwise_indices_down hstep).imp Int.ne_of_gt
  · rw [indices_of_step_zero hstep]
    exact .nil
  · exact (pairwise_indices_up hstep).imp Int.ne_of_lt

end Slice

/-- Each place that a slice takes gives one node, the child of that place. -/
theorem Node.forall₂_sliced {node : Node} {items : List Value} (h : node.value.items? = some items)
    (start? stop? step? : Option Int) :
    List.Forall₂
      (fun i n => ∃ value, items[i.toNat]? = some value ∧ n = node.child (.index i) value)
      (Slice.indices items.length start? stop? step?) (node.sliced start? stop? step?) := by
  unfold sliced
  rw [h]
  dsimp only
  have hmem : ∀ i ∈ Slice.indices items.length start? stop? step?, 0 ≤ i ∧ i < items.length :=
    fun i hi => Slice.mem_indices hi
  generalize Slice.indices items.length start? stop? step? = taken at hmem
  induction taken with
  | nil => exact .nil
  | cons i rest ih =>
    obtain ⟨⟨hnonneg, hlt⟩, hrest⟩ := List.forall_mem_cons.1 hmem
    obtain ⟨value, hvalue⟩ : ∃ value, items[i.toNat]? = some value :=
      ⟨_, List.getElem?_eq_getElem (by omega)⟩
    rw [List.filterMap_cons, hvalue]
    exact .cons ⟨value, hvalue, rfl⟩ (ih hrest)

namespace Slice

/-- **Slices take what their bounds say.** Going up, a slice takes in increasing order the indices
within the sequence that are no lower than its start and lower than its stop, in steps from where
it starts; going down, in decreasing order those that are no higher than its start and higher than
its stop. With a step of zero it takes nothing. So every index lies within the sequence, and a
slice of a sequence has one node for each index, which stands at that index. -/
theorem indices_exact (length : Nat) (start? stop? step? : Option Int) :
    let step := step?.getD 1
    let taken := indices length start? stop? step?
    (0 < step → taken.Pairwise (· < ·) ∧
      ∀ i, i ∈ taken ↔ IsTakenUp length start? stop? step i) ∧
    (step < 0 → taken.Pairwise (· > ·) ∧
      ∀ i, i ∈ taken ↔ IsTakenDown length start? stop? step i) ∧
    (step = 0 → taken = []) ∧
    (∀ i ∈ taken, 0 ≤ i ∧ i < length) ∧
    ∀ {m : Type → Type} [Monad m] (host : Host m) (token : Token) (node : Node)
      (items : List Value), node.value.items? = some items → items.length = length →
      ∃ nodes, (Selector.slice token start? stop? step?).select host node = pure nodes ∧
        List.Forall₂
          (fun i n => ∃ value, items[i.toNat]? = some value ∧ n = node.child (.index i) value)
          taken nodes := by
  intro step taken
  refine ⟨fun hstep => ?_, fun hstep => ?_, indices_of_step_zero, fun i => mem_indices, ?_⟩
  · exact ⟨pairwise_indices_up hstep, fun i => mem_indices_up_iff hstep⟩
  · exact ⟨pairwise_indices_down hstep, fun i => mem_indices_down_iff hstep⟩
  · rintro m _ host token node items hitems rfl
    exact ⟨node.sliced start? stop? step?, by rw [Selector.select],
      Node.forall₂_sliced hitems start? stop? step?⟩

/-- Slices up and down whose bounds are moved into the sequence, and an array that is sliced from
behind its last item down. -/
theorem indices_exact_clamped :
    let host : Host Id := ⟨false, fun _ _ _ => (), fun _ => [], fun _ _ => .value .nothing⟩
    let node : Node := ⟨.array [.null, .boolean true, .string "a"], [.name "x"], .null⟩
    IsTakenUp 7 (some (-9)) (some (-1)) 4 4 ∧
      (indices 7 (some (-9)) (some (-1)) (some 4)).Pairwise (· < ·) ∧
      IsTakenDown 7 (some 9) (some (-6)) (-3) 3 ∧
      (indices 7 (some 9) (some (-6)) (some (-3))).Pairwise (· > ·) ∧
      indices 7 (some 9) none (some 0) = [] ∧
      ∃ nodes, (Selector.slice ⟨.colon, ":", 3, 4, "$[9::-2]"⟩ (some 9) none (some (-2))).select
        host node =
          pure nodes ∧
        nodes = [node.child (.index 2) (.string "a"), node.child (.index 0) .null] := by
  intro host node
  obtain ⟨hup, -, -, -, -⟩ := indices_exact 7 (some (-9)) (some (-1)) (some 4)
  obtain ⟨-, hdown, -, -, -⟩ := indices_exact 7 (some 9) (some (-6)) (some (-3))
  obtain ⟨-, -, hzero, -, -⟩ := indices_exact 7 (some 9) none (some 0)
  obtain ⟨-, -, -, -, hnodes⟩ := indices_exact 3 (some 9) none (some (-2))
  obtain ⟨nodes, hselect, hfound⟩ := hnodes host ⟨.colon, ":", 3, 4, "$[9::-2]"⟩ node _ rfl rfl
  have htaken : indices 3 (some 9) none (some (-2)) = [2, 0] := by decide
  refine ⟨((hup (by decide)).2 4).1 (by decide), (hup (by decide)).1,
    ((hdown (by decide)).2 3).1 (by decide), (hdown (by decide)).1, hzero rfl, nodes, hselect, ?_⟩
  rw [htaken] at hfound
  match nodes, hfound with
  | [n, n'], .cons ⟨_, hvalue, hn⟩ (.cons ⟨_, hvalue', hn'⟩ .nil) =>
    cases hvalue
    cases hvalue'
    rw [hn, hn']

end Slice

end JsonPath
