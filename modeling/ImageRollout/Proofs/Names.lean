import ImageRollout.Names

/-! Sets of names as lists: `ordered` has the names of a list, strictly ascending in code point order.
    A strictly ascending list is its own order, and two of them with the same names are the same. -/

namespace ImageRollout.Names

/-! ### Order -/

/-- Names in strictly ascending code point order, so each of them once. -/
abbrev Ascending (names : List String) : Prop :=
  names.Pairwise (· < ·)

theorem Ascending.nodup {names : List String} (h : Ascending names) : names.Nodup :=
  h.imp fun {a b} (hab : a < b) (heq : a = b) => String.lt_irrefl b (heq ▸ hab)

theorem Ascending.filter {names : List String} (h : Ascending names) (p : String → Bool) :
    Ascending (names.filter p) :=
  h.sublist List.filter_sublist

/-- Two strictly ascending lists with the same names are the same. -/
theorem Ascending.eq_of_mem_iff {names others : List String} (h : Ascending names) (h' : Ascending others)
    (hmem : ∀ name, name ∈ names ↔ name ∈ others) : names = others := by
  have hperm : names.Perm others := (List.perm_ext_iff_of_nodup h.nodup h'.nodup).mpr hmem
  exact hperm.eq_of_pairwise (fun a b _ _ (hab : a < b) (hba : b < a) => absurd hba (String.lt_asymm hab)) h h'

/-! ### The distinct names in order -/

theorem mem_collapse {name : String} (names : List String) : name ∈ collapse names ↔ name ∈ names := by
  fun_induction collapse names with
  | case1 => rfl
  | case2 => rfl
  | case3 first rest ih => simp [ih]
  | case4 first next rest hne ih => simp [ih]

theorem ascending_collapse (names : List String) (h : names.Pairwise (· ≤ ·)) : Ascending (collapse names) := by
  fun_induction collapse names with
  | case1 => exact .nil
  | case2 name => exact List.pairwise_singleton _ _
  | case3 first rest ih => exact ih h.of_cons
  | case4 first next rest hne ih =>
    refine List.pairwise_cons.mpr ⟨fun other hother => ?_, ih h.of_cons⟩
    have hmem : other ∈ next :: rest := (mem_collapse _).mp hother
    have hle : ∀ o ∈ next :: rest, first ≤ o := fun o ho => List.rel_of_pairwise_cons h ho
    rcases List.mem_cons.mp hmem with rfl | hrest
    · exact Std.lt_of_le_of_ne (hle _ hmem) hne
    · have hnext : first < next := Std.lt_of_le_of_ne (hle next List.mem_cons_self) hne
      have hother : next ≤ other := List.rel_of_pairwise_cons h.of_cons hrest
      exact Std.lt_of_lt_of_le hnext hother

@[simp] theorem mem_ordered {name : String} {names : List String} : name ∈ ordered names ↔ name ∈ names := by
  unfold ordered
  rw [mem_collapse, List.mem_mergeSort]

theorem pairwise_mergeSort (names : List String) :
    (names.mergeSort fun a b => decide (a ≤ b)).Pairwise (· ≤ ·) := by
  have htrans : ∀ a b c : String, decide (a ≤ b) = true → decide (b ≤ c) = true → decide (a ≤ c) = true :=
    fun a b c hab hbc => decide_eq_true (String.le_trans (of_decide_eq_true hab) (of_decide_eq_true hbc))
  have htotal : ∀ a b : String, (decide (a ≤ b) || decide (b ≤ a)) = true := fun a b => by
    simpa using String.le_total a b
  have hsorted : (names.mergeSort fun a b => decide (a ≤ b)).Pairwise fun a b => decide (a ≤ b) = true :=
    List.pairwise_mergeSort htrans htotal names
  exact hsorted.imp fun h => of_decide_eq_true h

theorem ascending_ordered (names : List String) : Ascending (ordered names) :=
  ascending_collapse _ (pairwise_mergeSort names)

theorem Ascending.ordered_eq {names : List String} (h : Ascending names) : ordered names = names :=
  (ascending_ordered names).eq_of_mem_iff h fun _ => mem_ordered

@[simp] theorem ordered_nil : ordered [] = [] := by
  simp [ordered, collapse]

@[simp] theorem ordered_singleton (name : String) : ordered [name] = [name] :=
  Ascending.ordered_eq (List.pairwise_singleton _ name)

theorem ordered_eq_nil_iff {names : List String} : ordered names = [] ↔ names = [] := by
  constructor
  · intro h
    refine List.eq_nil_iff_forall_not_mem.mpr fun name hname => ?_
    have hmem : name ∈ ordered names := mem_ordered.mpr hname
    simp [h] at hmem
  · rintro rfl
    exact ordered_nil

/-! ### Names in and out of another list -/

@[simp] theorem mem_within {name : String} {names others : List String} :
    name ∈ within names others ↔ name ∈ names ∧ name ∈ others := by
  simp [within]

theorem Ascending.within {names : List String} (h : Ascending names) (others : List String) :
    Ascending (within names others) :=
  h.filter _

/-! ### Lists keyed by names -/

/-- What a list has under a name after its values were changed. -/
theorem lookup_map {α β : Type} (f : String → α → β) (name : String) (items : List (String × α)) :
    (items.map fun (key, value) => (key, f key value)).lookup name = (items.lookup name).map (f name) := by
  induction items with
  | nil => rfl
  | cons first rest ih =>
    rw [List.map_cons, List.lookup_cons, List.lookup_cons, ih]
    by_cases h : name = first.1
    · simp [h]
    · simp [beq_eq_false_iff_ne.mpr h]

/-- What a list has under the new name of an old one, if no other name was changed to the same. -/
theorem lookup_map_key {α : Type} {rename : String → String} {name : String} {items : List (String × α)}
    (h : ∀ item ∈ items, rename item.1 = rename name → item.1 = name) :
    (items.map fun (key, value) => (rename key, value)).lookup (rename name) = items.lookup name := by
  induction items with
  | nil => rfl
  | cons first rest ih =>
    have hfirst : (rename name == rename first.1) = (name == first.1) := by
      rw [Bool.eq_iff_iff, beq_iff_eq, beq_iff_eq]
      exact ⟨fun heq => (h first List.mem_cons_self heq.symm).symm, congrArg rename⟩
    rw [List.map_cons, List.lookup_cons, List.lookup_cons, hfirst, ih fun item hitem => h item (List.mem_cons_of_mem _ hitem)]

/-- What a list has under a name that was put together from what each name has. -/
theorem lookup_filterMap {α : Type} (f : String → Option α) (name : String) (names : List String) :
    (names.filterMap fun other => (f other).map fun x => (other, x)).lookup name =
      if name ∈ names then f name else none := by
  induction names with
  | nil => rfl
  | cons first rest ih =>
    rw [List.filterMap_cons]
    by_cases hfirst : name = first
    · subst hfirst
      cases hf : f name with
      | none => simp [ih, hf]
      | some x => simp
    · have hbeq : (name == first) = false := beq_eq_false_iff_ne.mpr hfirst
      cases hf : f first <;> simp [ih, hfirst, hbeq, List.lookup_cons]

theorem mem_filterMap {α : Type} (f : String → Option α) {name : String} {x : α} {names : List String} :
    (name, x) ∈ (names.filterMap fun other => (f other).map fun x => (other, x)) ↔ name ∈ names ∧ f name = some x := by
  rw [List.mem_filterMap]
  constructor
  · rintro ⟨other, hother, hx⟩
    obtain ⟨_, hsome, heq⟩ := Option.map_eq_some_iff.mp hx
    obtain ⟨rfl, rfl⟩ := Prod.mk.inj heq
    exact ⟨hother, hsome⟩
  · rintro ⟨hmem, hsome⟩
    exact ⟨name, hmem, by rw [hsome]; rfl⟩

/-- The names that such a list has something under. -/
theorem keys_filterMap {α : Type} (f : String → Option α) (names : List String) :
    (names.filterMap fun other => (f other).map fun x => (other, x)).map Prod.fst =
      names.filter fun other => (f other).isSome := by
  induction names with
  | nil => rfl
  | cons first rest ih =>
    rw [List.filterMap_cons, List.filter_cons]
    cases hf : f first <;> simp [ih]

end ImageRollout.Names
