import ImageRollout.Proofs.Schema.Plan
import ImageRollout.Proofs.Store.Plans
import ImageRollout.Store.Tables

/-! The tables of the database. The shares that are written for entries are read back as these entries,
    in their order; shares of other plans do not matter to them. The numbers of plans are their places
    in the table, so a new plan has no shares before its own are written. -/

namespace ImageRollout

theorem nameOr_self (name : Option String) : nameOr name name = name := by
  unfold nameOr
  split <;> rfl

theorem nameOr_eq_or (name other : Option String) : nameOr name other = name ∨ nameOr name other = other := by
  unfold nameOr
  split
  · exact .inr rfl
  · exact .inr rfl
  · exact .inl rfl

def Entry.inName (user : Option String) (e : Entry) : Entry :=
  { e with createdBy := nameOr e.createdBy user, modifiedBy := nameOr e.modifiedBy user }

theorem SameTerms.inName (user : Option String) (entries : List Entry) :
    SameTerms (entries.map (Entry.inName user)) entries := by
  unfold SameTerms
  rw [List.map_map]
  rfl

/-! ### The shares of entries -/

theorem plan_of_mem_sharesFor {number : Nat} {user : Option String} {position : Nat} {entries : List Entry}
    {row : ShareRow} (h : row ∈ sharesFor number user position entries) : row.plan = number := by
  induction entries generalizing position with
  | nil => cases h
  | cons e rest ih =>
    rcases List.mem_cons.mp h with rfl | h
    · rfl
    · exact ih h

theorem exists_entry_of_mem_sharesFor {number : Nat} {user : Option String} {position : Nat} {entries : List Entry}
    {share : ShareRow} (h : share ∈ sharesFor number user position entries) :
    ∃ e ∈ entries, share.createdBy = nameOr e.createdBy user ∧ share.modifiedBy = nameOr e.modifiedBy user := by
  induction entries generalizing position with
  | nil => cases h
  | cons e rest ih =>
    rcases List.mem_cons.mp h with rfl | h
    · exact ⟨e, List.mem_cons_self, rfl, rfl⟩
    · obtain ⟨found, hfound, hnames⟩ := ih h
      exact ⟨found, List.mem_cons_of_mem e hfound, hnames⟩

theorem filter_sharesFor_of_ne {number other : Nat} (hne : number ≠ other) (user : Option String) (position : Nat)
    (entries : List Entry) : ((sharesFor number user position entries).filter fun row => row.plan = other) = [] := by
  refine List.filter_eq_nil_iff.mpr fun row hrow => ?_
  rw [plan_of_mem_sharesFor hrow]
  simpa using hne

theorem filter_sharesFor (number : Nat) (user : Option String) (position : Nat) (entries : List Entry) :
    ((sharesFor number user position entries).filter fun row => row.plan = number) =
      sharesFor number user position entries :=
  List.filter_eq_self.mpr fun _ hrow => decide_eq_true (plan_of_mem_sharesFor hrow)

theorem position_le_of_mem_sharesFor {number : Nat} {user : Option String} {position : Nat} {entries : List Entry}
    {row : ShareRow} (h : row ∈ sharesFor number user position entries) : (position : Int) ≤ row.position := by
  induction entries generalizing position with
  | nil => cases h
  | cons e rest ih =>
    rcases List.mem_cons.mp h with rfl | h
    · exact Int.le_refl _
    · have hnext := ih h
      omega

theorem pairwise_sharesFor (number : Nat) (user : Option String) (position : Nat) (entries : List Entry) :
    (sharesFor number user position entries).Pairwise fun a b => a.position < b.position := by
  induction entries generalizing position with
  | nil => exact .nil
  | cons e rest ih =>
    refine List.pairwise_cons.mpr ⟨fun row hrow => ?_, ih (position + 1)⟩
    have hnext := position_le_of_mem_sharesFor hrow
    push_cast at hnext ⊢
    omega

/-- The shares of a plan are told apart by their positions. -/
theorem eq_of_mem_sharesFor {number : Nat} {user : Option String} {position : Nat} {entries : List Entry} {a b : ShareRow}
    (ha : a ∈ sharesFor number user position entries) (hb : b ∈ sharesFor number user position entries)
    (h : a.position = b.position) : a = b := by
  have hnodup : ((sharesFor number user position entries).map ShareRow.position).Nodup :=
    List.pairwise_map.mpr ((pairwise_sharesFor number user position entries).imp Int.ne_of_lt)
  exact List.inj_on_of_nodup_map hnodup ha hb h

/-- In the order of their positions the shares of entries are as they were written, however they lay. -/
theorem mergeSort_perm_sharesFor {rows : List ShareRow} {number : Nat} {user : Option String} {entries : List Entry}
    (h : rows.Perm (sharesFor number user 0 entries)) :
    (rows.mergeSort fun a b => decide (a.position ≤ b.position)) = sharesFor number user 0 entries := by
  have hperm := (List.mergeSort_perm rows fun a b => decide (a.position ≤ b.position)).trans h
  refine hperm.eq_of_pairwise (fun a b ha hb hab hba => ?_) (List.pairwise_mergeSort ?_ ?_ rows)
    ((pairwise_sharesFor number user 0 entries).imp fun hlt => decide_eq_true (Int.le_of_lt hlt))
  · have hposition := Int.le_antisymm (of_decide_eq_true hab) (of_decide_eq_true hba)
    exact eq_of_mem_sharesFor (hperm.mem_iff.mp ha) hb hposition
  · exact fun a b c hab hbc => decide_eq_true (Int.le_trans (of_decide_eq_true hab) (of_decide_eq_true hbc))
  · exact fun a b => by simpa using Int.le_total a.position b.position

theorem document_sharesFor (number : Nat) (user : Option String) (position : Nat) (entries : List Entry) :
    (sharesFor number user position entries).map ShareRow.document =
      entries.map fun e => (e.inName user).toJson := by
  induction entries generalizing position with
  | nil => rfl
  | cons e rest ih =>
    rw [sharesFor, List.map_cons, List.map_cons, ih]
    rfl

/-- Where every item comes to a value, all of them come to these values. -/
theorem mapM_eq_ok {ε α β : Type} {f : α → Except ε β} {g : α → β} {items : List α} (h : ∀ a ∈ items, f a = .ok (g a)) :
    items.mapM f = .ok (items.map g) := by
  induction items with
  | nil => rfl
  | cons a rest ih =>
    rw [List.mapM_cons, h a List.mem_cons_self, ih fun b hb => h b (List.mem_cons_of_mem _ hb)]
    rfl

namespace Tables

def entryOf (j : Json) : Except (List Issue) Entry :=
  match Entry.ofJson j with
  | .accepted entry => .ok entry
  | .refused issues => .error issues

theorem entryOf_toJson (e : Entry) : entryOf e.toJson = .ok e := by
  unfold entryOf
  rw [Entry.ofJson_toJson]

theorem entries_eq (t : Tables) (number : Nat) :
    t.entries number = (t.sharesOf number).mapM fun row => entryOf row.document := rfl

/-- The entries that were written for a plan are read back, each in the name of the user, however their rows lie. -/
theorem entries_of_perm_shares {t : Tables} {number : Nat} {user : Option String} {entries : List Entry}
    (h : (t.shares.filter fun row => row.plan = number).Perm (sharesFor number user 0 entries)) :
    t.entries number = .ok (entries.map (Entry.inName user)) := by
  have hshares : t.sharesOf number = sharesFor number user 0 entries := mergeSort_perm_sharesFor h
  calc t.entries number
      = ((sharesFor number user 0 entries).map ShareRow.document).mapM entryOf := by
        rw [entries_eq, hshares, List.mapM_map]
        rfl
    _ = entries.mapM fun e => entryOf (e.inName user).toJson := by
        rw [document_sharesFor, List.mapM_map]
        rfl
    _ = .ok (entries.map (Entry.inName user)) := mapM_eq_ok fun e _ => entryOf_toJson _

theorem entries_of_shares {t : Tables} {number : Nat} {user : Option String} {entries : List Entry}
    (h : (t.shares.filter fun row => row.plan = number) = sharesFor number user 0 entries) :
    t.entries number = .ok (entries.map (Entry.inName user)) :=
  entries_of_perm_shares (.of_eq h)

theorem entries_congr {t t' : Tables} {number : Nat}
    (h : (t'.shares.filter fun row => row.plan = number) = t.shares.filter fun row => row.plan = number) :
    t'.entries number = t.entries number := by
  unfold Tables.entries sharesOf
  rw [h]

/-! ### Image types -/

theorem isSome_type?_iff {t : Tables} {name : String} : (t.type? name).isSome ↔ name ∈ t.types.map TypeRow.name := by
  simp [type?, List.find?_isSome]

theorem mem_typeNames {t : Tables} {name : String} : name ∈ t.typeNames ↔ name ∈ t.types.map TypeRow.name :=
  (t.engine.nameOrder_perm _).mem_iff

theorem isSome_type?_putType (name : String) (description : Option String) (t : Tables) (imageType : String) :
    ((t.putType name description).type? imageType).isSome ↔ imageType = name ∨ (t.type? imageType).isSome := by
  unfold putType
  split
  · rename_i hname
    have hnames : (t.types.map fun row => if row.name = name then { row with description } else row).map TypeRow.name =
        t.types.map TypeRow.name := by
      rw [List.map_map]
      refine List.map_congr_left fun row _ => ?_
      rw [Function.comp_apply]
      split <;> rfl
    rw [isSome_type?_iff, hnames, ← isSome_type?_iff]
    exact ⟨Or.inr, fun h => h.elim (fun heq => heq ▸ hname) id⟩
  · rw [isSome_type?_iff, isSome_type?_iff, List.map_append, List.mem_append, or_comm]
    simp

theorem isSome_type?_ensureType (name : String) (t : Tables) (imageType : String) :
    ((t.ensureType name).type? imageType).isSome ↔ imageType = name ∨ (t.type? imageType).isSome := by
  unfold ensureType
  split
  · rename_i hname
    exact ⟨Or.inr, fun h => h.elim (fun heq => heq ▸ hname) id⟩
  · rw [isSome_type?_iff, isSome_type?_iff, List.map_append, List.mem_append, or_comm]
    simp

/-! ### Keyed tables -/

/-- The numbers of plans are their places in the table, and every share belongs to a plan that is there. -/
structure Keyed (t : Tables) : Prop where
  numbered : t.plans.map PlanRow.number = List.range t.plans.length
  owned : ∀ row ∈ t.shares, row.plan < t.plans.length

/-- The tables with a new plan, which takes the place of the active one where it is to be active. -/
def withPlan (plan : NewPlan) (t : Tables) : Tables :=
  (if plan.activate then t.deactivate plan.imageType plan.createdBy else t).insertPlan t.plans.length plan

namespace Keyed

variable {t t' : Tables}

theorem number_lt (h : t.Keyed) {row : PlanRow} (hrow : row ∈ t.plans) : row.number < t.plans.length := by
  have hmem : row.number ∈ t.plans.map PlanRow.number := List.mem_map_of_mem hrow
  rw [h.numbered] at hmem
  exact List.mem_range.mp hmem

theorem eq_of_number (h : t.Keyed) {row other : PlanRow} (hrow : row ∈ t.plans) (hother : other ∈ t.plans)
    (hnumber : row.number = other.number) : row = other := by
  have hnodup : (t.plans.map PlanRow.number).Nodup := h.numbered ▸ List.nodup_range
  exact List.inj_on_of_nodup_map hnodup hrow hother hnumber

theorem of_eq (h : t.Keyed) (hplans : t'.plans = t.plans) (hshares : t'.shares = t.shares) : t'.Keyed where
  numbered := hplans ▸ h.numbered
  owned row hrow := hplans ▸ h.owned row (hshares ▸ hrow)

theorem map_plans (h : t.Keyed) {f : PlanRow → PlanRow} (hf : ∀ row, (f row).number = row.number) :
    Keyed { t with plans := t.plans.map f } where
  numbered := by
    rw [List.map_map, List.length_map, ← h.numbered]
    exact List.map_congr_left fun row _ => hf row
  owned row hrow := by
    rw [List.length_map]
    exact h.owned row hrow

theorem deactivate (h : t.Keyed) (imageType : String) (user : Option String) : (t.deactivate imageType user).Keyed :=
  h.map_plans fun row => by split <;> rfl

theorem insertPlan (h : t.Keyed) (plan : NewPlan) : (t.insertPlan t.plans.length plan).Keyed where
  numbered := by
    unfold Tables.insertPlan
    rw [List.map_append, h.numbered, List.length_append, List.length_singleton, List.range_succ]
    rfl
  owned row hrow := by
    show row.plan < (t.plans ++ [_]).length
    rw [List.length_append, List.length_singleton]
    rcases List.mem_append.mp hrow with hrow | hrow
    · exact Nat.lt_succ_of_lt (h.owned row hrow)
    · rw [plan_of_mem_sharesFor hrow]
      exact Nat.lt_succ_self _

theorem withPlan (h : t.Keyed) (plan : NewPlan) : (t.withPlan plan).Keyed := by
  unfold Tables.withPlan
  split
  · have hlength : (t.deactivate plan.imageType plan.createdBy).plans.length = t.plans.length := List.length_map _
    rw [← hlength]
    exact (h.deactivate plan.imageType plan.createdBy).insertPlan plan
  · exact h.insertPlan plan

theorem replaceShares (h : t.Keyed) {number : Nat} (hnumber : number < t.plans.length) (entries : List Entry)
    (user : Option String) : (t.replaceShares number entries user).Keyed where
  numbered := (h.map_plans (f := fun row => if row.number = number then { row with modifiedBy := user } else row)
    fun row => by split <;> rfl).numbered
  owned row hrow := by
    show row.plan < (t.plans.map _).length
    rw [List.length_map]
    rcases List.mem_append.mp hrow with hrow | hrow
    · exact h.owned row (List.mem_filter.mp hrow).1
    · rw [plan_of_mem_sharesFor hrow]
      exact hnumber

theorem filter_shares_of_le (h : t.Keyed) {number : Nat} (hnumber : t.plans.length ≤ number) :
    (t.shares.filter fun row => row.plan = number) = [] := by
  refine List.filter_eq_nil_iff.mpr fun row hrow => ?_
  have howned := h.owned row hrow
  rw [decide_eq_true_iff]
  omega

theorem filter_shares_insertPlan (h : t.Keyed) {number : Nat} (hnumber : t.plans.length ≤ number) (plan : NewPlan) :
    ((t.insertPlan number plan).shares.filter fun row => row.plan = number) =
      sharesFor number plan.createdBy 0 plan.entries := by
  show ((t.shares ++ _).filter _) = _
  rw [List.filter_append, h.filter_shares_of_le hnumber, filter_sharesFor, List.nil_append]

/-- A new plan has the shares of its own entries and no others. -/
theorem filter_shares_withPlan (h : t.Keyed) (plan : NewPlan) :
    ((t.withPlan plan).shares.filter fun row => row.plan = t.plans.length) =
      sharesFor t.plans.length plan.createdBy 0 plan.entries := by
  unfold Tables.withPlan
  split
  · have hlength : (t.deactivate plan.imageType plan.createdBy).plans.length = t.plans.length := List.length_map _
    exact (h.deactivate plan.imageType plan.createdBy).filter_shares_insertPlan (Nat.le_of_eq hlength) plan
  · exact h.filter_shares_insertPlan (Nat.le_refl _) plan

end Keyed

/-! ### Sound tables -/

/-- What the tables satisfy. -/
structure Sound (t : Tables) : Prop where
  numbered : t.plans.map PlanRow.number = List.range t.plans.length
  owned : ∀ row ∈ t.shares, row.plan < t.plans.length
  single : OneActive PlanRow.imageType PlanRow.active t.plans
  readable : ∀ row ∈ t.plans, ∃ entries, t.entries row.number = .ok entries ∧ checkPlan entries = .ok ()
  registered : ∀ row ∈ t.plans, (t.type? row.imageType).isSome

theorem Sound.keyed {t : Tables} (h : t.Sound) : t.Keyed :=
  ⟨h.numbered, h.owned⟩

namespace Sound

variable {t t' : Tables}

theorem empty (engine : Engine) : Sound { engine } where
  numbered := rfl
  owned _ h := by cases h
  single := .nil
  readable _ h := by cases h
  registered _ h := by cases h

/-- What leaves plans and shares alone and forgets no type keeps the tables sound. -/
theorem of_plans_eq (h : Sound t) (hplans : t'.plans = t.plans) (hshares : t'.shares = t.shares)
    (htypes : ∀ name, (t.type? name).isSome → (t'.type? name).isSome) : Sound t' where
  numbered := (h.keyed.of_eq hplans hshares).numbered
  owned := (h.keyed.of_eq hplans hshares).owned
  single := hplans ▸ h.single
  readable row hrow := by
    have hentries : t'.entries row.number = t.entries row.number := entries_congr (by rw [hshares])
    rw [hentries]
    exact h.readable row (hplans ▸ hrow)
  registered row hrow := htypes _ (h.registered row (hplans ▸ hrow))

/-- Changes of plans that keep their numbers and types, and wake none up. -/
theorem map_plans (h : Sound t) {f : PlanRow → PlanRow} (hnumber : ∀ row, (f row).number = row.number)
    (htype : ∀ row, (f row).imageType = row.imageType) (hactive : ∀ row, (f row).active → row.active) :
    Sound { t with plans := t.plans.map f } where
  numbered := (h.keyed.map_plans hnumber).numbered
  owned := (h.keyed.map_plans hnumber).owned
  single := h.single.map htype hactive
  readable row hrow := by
    obtain ⟨old, hold, rfl⟩ := List.mem_map.mp hrow
    rw [hnumber]
    exact h.readable old hold
  registered row hrow := by
    obtain ⟨old, hold, rfl⟩ := List.mem_map.mp hrow
    rw [htype]
    exact h.registered old hold

theorem deactivate (h : Sound t) (imageType : String) (user : Option String) : Sound (t.deactivate imageType user) :=
  h.map_plans (fun row => by split <;> rfl) (fun row => by split <;> rfl) fun row hrow => by
    split at hrow
    · cases hrow
    · exact hrow

/-- No plan of a type is active once they were made inactive. -/
theorem inactive_deactivate (imageType : String) (user : Option String) :
    ∀ row ∈ (t.deactivate imageType user).plans, row.active → row.imageType ≠ imageType := by
  intro row hrow hactive
  obtain ⟨old, -, rfl⟩ := List.mem_map.mp hrow
  split at hactive
  · cases hactive
  · rename_i hother
    rw [ite_cond_eq_false _ _ (eq_false hother)]
    exact fun htype => hother ⟨htype, hactive⟩

theorem entries_insertPlan (h : Sound t) {number : Nat} (hnumber : t.plans.length ≤ number) (plan : NewPlan) :
    (t.insertPlan number plan).entries number = .ok (plan.entries.map (Entry.inName plan.createdBy)) :=
  entries_of_shares (h.keyed.filter_shares_insertPlan hnumber plan)

theorem entries_insertPlan_of_ne {number other : Nat} (hne : number ≠ other) (plan : NewPlan) :
    (t.insertPlan number plan).entries other = t.entries other := by
  refine entries_congr ?_
  show ((t.shares ++ _).filter _) = _
  rw [List.filter_append, filter_sharesFor_of_ne hne, List.append_nil]

theorem insertPlan (h : Sound t) {plan : NewPlan} (hentries : checkPlan plan.entries = .ok ())
    (htype : (t.type? plan.imageType).isSome)
    (hfree : plan.activate → ∀ row ∈ t.plans, row.active → row.imageType ≠ plan.imageType) :
    Sound (t.insertPlan t.plans.length plan) where
  numbered := (h.keyed.insertPlan plan).numbered
  owned := (h.keyed.insertPlan plan).owned
  single := h.single.concat hfree
  readable row hrow := by
    rcases List.mem_append.mp hrow with hrow | hrow
    -- The number of the new plan is none of the old ones, so their entries are as they were.
    · have hne := Nat.ne_of_gt (h.keyed.number_lt hrow)
      rw [entries_insertPlan_of_ne hne]
      exact h.readable row hrow
    · obtain rfl := List.mem_singleton.mp hrow
      exact ⟨_, h.entries_insertPlan (Nat.le_refl _) plan, (SameTerms.inName _ _).symm.checkPlan_eq_ok hentries⟩
  registered row hrow := by
    rcases List.mem_append.mp hrow with hrow | hrow
    · exact h.registered row hrow
    · obtain rfl := List.mem_singleton.mp hrow
      exact htype

theorem withPlan (h : Sound t) {plan : NewPlan} (hentries : checkPlan plan.entries = .ok ())
    (htype : (t.type? plan.imageType).isSome) : Sound (t.withPlan plan) := by
  unfold Tables.withPlan
  by_cases hactive : plan.activate = true
  · rw [ite_cond_eq_true _ _ (eq_true hactive)]
    have hlength : (t.deactivate plan.imageType plan.createdBy).plans.length = t.plans.length := List.length_map _
    rw [← hlength]
    exact (h.deactivate plan.imageType plan.createdBy).insertPlan hentries htype fun _ => inactive_deactivate _ _
  · rw [ite_cond_eq_false _ _ (eq_false hactive)]
    exact h.insertPlan hentries htype fun hactivate => absurd hactivate hactive

theorem entries_withPlan (h : Sound t) (plan : NewPlan) :
    (t.withPlan plan).entries t.plans.length = .ok (plan.entries.map (Entry.inName plan.createdBy)) :=
  entries_of_shares (h.keyed.filter_shares_withPlan plan)

theorem filter_shares_replaceShares (t : Tables) (number : Nat) (entries : List Entry) (user : Option String) :
    ((t.replaceShares number entries user).shares.filter fun row => row.plan = number) =
      sharesFor number user 0 entries := by
  have hgone : ((t.shares.filter fun row => row.plan ≠ number).filter fun row => row.plan = number) = [] :=
    List.filter_eq_nil_iff.mpr fun row hrow => by simpa using (List.mem_filter.mp hrow).2
  show ((t.shares.filter (fun row => row.plan ≠ number) ++ _).filter _) = _
  rw [List.filter_append, hgone, filter_sharesFor, List.nil_append]

theorem entries_replaceShares_of_ne {number other : Nat} (hne : number ≠ other) (entries : List Entry)
    (user : Option String) : (t.replaceShares number entries user).entries other = t.entries other := by
  refine entries_congr ?_
  show ((t.shares.filter (fun row => row.plan ≠ number) ++ _).filter _) = _
  rw [List.filter_append, filter_sharesFor_of_ne hne, List.append_nil, List.filter_filter]
  refine List.filter_congr fun row _ => ?_
  by_cases hother : row.plan = other
  · simp [hother, hne.symm]
  · simp [hother]

theorem replaceShares (h : Sound t) {number : Nat} (hnumber : number < t.plans.length) {entries : List Entry}
    (hentries : checkPlan entries = .ok ()) (user : Option String) : Sound (t.replaceShares number entries user) := by
  have hplans : Sound { t with
      plans := t.plans.map fun row => if row.number = number then { row with modifiedBy := user } else row } :=
    h.map_plans (fun row => by split <;> rfl) (fun row => by split <;> rfl) fun row hrow => by
      split at hrow <;> exact hrow
  have hkeyed := h.keyed.replaceShares hnumber entries user
  refine ⟨hkeyed.numbered, hkeyed.owned, hplans.single, fun row hrow => ?_, hplans.registered⟩
  by_cases hmine : number = row.number
  · subst hmine
    exact ⟨_, entries_of_shares (filter_shares_replaceShares t _ entries user),
      (SameTerms.inName _ _).symm.checkPlan_eq_ok hentries⟩
  · rw [entries_replaceShares_of_ne hmine]
    exact hplans.readable row hrow

end Sound

/-! ### Reading plans -/

/-- A plan as it is read, without entries where they make none. -/
def planOf (t : Tables) (row : PlanRow) : Plan where
  imageType := row.imageType
  active := row.active
  entries :=
    match t.entries row.number with
    | .ok entries => entries
    | .error _ => []
  id := some row.id
  name := some row.name

theorem planOf_entries {t : Tables} (row : PlanRow) {entries : List Entry} (h : t.entries row.number = .ok entries) :
    (t.planOf row).entries = entries := by
  unfold planOf
  dsimp only
  rw [h]

namespace Sound

variable {t : Tables}

theorem plan_eq (h : Sound t) {row : PlanRow} (hrow : row ∈ t.plans) : t.plan row = .ok (t.planOf row) := by
  obtain ⟨entries, hentries, -⟩ := h.readable row hrow
  unfold plan planOf
  rw [hentries]
  rfl

theorem inOrder (h : Sound t) : InOrder (fun name => (t.type? name).isSome) (t.plans.map t.planOf) where
  single := (h.single.map (f := t.planOf) (fun _ => rfl) fun _ => id).length_le_one
  accepted plan hplan := by
    obtain ⟨row, hrow, rfl⟩ := List.mem_map.mp hplan
    obtain ⟨entries, hentries, hcheck⟩ := h.readable row hrow
    rw [planOf_entries row hentries]
    exact hcheck
  registered plan hplan := by
    obtain ⟨row, hrow, rfl⟩ := List.mem_map.mp hplan
    exact h.registered row hrow

end Sound

/-- In whatever order they are found, the active plans of the types are found. -/
theorem mem_activePlans {t : Tables} {imageTypes : List String} {row : PlanRow} :
    row ∈ t.activePlans imageTypes ↔ row ∈ t.plans ∧ row.active ∧ row.imageType ∈ imageTypes := by
  unfold activePlans
  rw [(t.engine.planOrder_perm _ _).mem_iff]
  simp

theorem activePlans_nil (t : Tables) : t.activePlans [] = [] := by
  refine List.eq_nil_iff_forall_not_mem.mpr fun row hrow => ?_
  obtain ⟨-, -, htype⟩ := mem_activePlans.mp hrow
  cases htype

/-- The active plans of one image type, in the order they were made. -/
def activePlansOf (t : Tables) (imageType : String) : List PlanRow :=
  t.plans.filter fun row => row.active ∧ row.imageType = imageType

theorem mem_activePlansOf {t : Tables} {imageType : String} {row : PlanRow} :
    row ∈ t.activePlansOf imageType ↔ row ∈ t.plans ∧ row.active ∧ row.imageType = imageType := by
  simp [activePlansOf]

theorem activePlans_singleton_perm (imageType : String) (t : Tables) :
    (t.activePlans [imageType]).Perm (t.activePlansOf imageType) := by
  have hrows : (t.plans.filter fun row => row.active ∧ [imageType].contains row.imageType) = t.activePlansOf imageType :=
    List.filter_congr fun row _ => by simp
  unfold activePlans
  rw [hrows]
  exact t.engine.planOrder_perm _ _

/-- Where there is but one active plan of a type, it is found. -/
theorem activePlans_of_sole {t : Tables} {imageType : String} {row : PlanRow} (h : t.activePlansOf imageType = [row]) :
    t.activePlans [imageType] = [row] :=
  List.perm_singleton.mp (h ▸ t.activePlans_singleton_perm imageType)

theorem activeIn_eq_none {t : Tables} {imageType : String}
    (h : ∀ row ∈ t.plans, row.active → row.imageType ≠ imageType) : activeIn (t.plans.map t.planOf) imageType = none := by
  refine List.find?_eq_none.mpr fun plan hplan hfound => ?_
  obtain ⟨row, hrow, rfl⟩ := List.mem_map.mp hplan
  obtain ⟨htype, hactive⟩ := of_decide_eq_true hfound
  exact h row hrow hactive htype

theorem Sound.activeIn_eq (h : Sound t) {row : PlanRow} (hrow : row ∈ t.plans) (hactive : row.active) :
    activeIn (t.plans.map t.planOf) row.imageType = some (t.planOf row) := by
  refine find?_eq_some_of_unique (List.mem_map_of_mem hrow) (by simp [planOf, hactive]) fun plan hplan hfound => ?_
  obtain ⟨other, hother, rfl⟩ := List.mem_map.mp hplan
  obtain ⟨htype, hotherActive⟩ := of_decide_eq_true hfound
  rw [h.single.eq_of_mem hother hrow hotherActive hactive htype]

end Tables

end ImageRollout
