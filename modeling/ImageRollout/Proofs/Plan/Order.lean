import ImageRollout.Proofs.Plan.Coverage

/-! The order in which the entries of a plan take their draws. There is exactly one ascending order of the
    shares in which entries with the same share stay in plan order (`StableOrder`), and `ascending`
    is it. So what comes before an entry is known from the plan alone: the entries in front of it with
    at most its share, and those behind it with less. -/

namespace ImageRollout

/-! ### Stable order -/

/-- A list has the entries of a plan in ascending order of their shares, and those with the same share in plan
    order. -/
structure StableOrder (sorted entries : List Entry) : Prop where
  perm : sorted.Perm entries
  ascending : sorted.Pairwise fun a b => a.share.val ≤ b.share.val
  stable : ∀ share, (sorted.filter fun e => e.share.val = share) = entries.filter fun e => e.share.val = share

theorem share_le_trans (a b c : Entry) (hab : decide (a.share.val ≤ b.share.val) = true)
    (hbc : decide (b.share.val ≤ c.share.val) = true) : decide (a.share.val ≤ c.share.val) = true :=
  decide_eq_true (Nat.le_trans (of_decide_eq_true hab) (of_decide_eq_true hbc))

theorem share_le_total (a b : Entry) :
    (decide (a.share.val ≤ b.share.val) || decide (b.share.val ≤ a.share.val)) = true := by
  simpa using Nat.le_total a.share.val b.share.val

theorem filter_share_ascending (entries : List Entry) (share : Nat) :
    ((ascending entries).filter fun e => e.share.val = share) = entries.filter fun e => e.share.val = share := by
  -- The entries with the share are in order already, so the sort takes them along as they stand.
  have hsame : (entries.filter fun e => e.share.val = share).Pairwise
      fun a b => decide (a.share.val ≤ b.share.val) = true := by
    refine List.pairwise_of_forall_mem_list fun a ha b hb => decide_eq_true ?_
    simp only [List.mem_filter, decide_eq_true_eq] at ha hb
    omega
  have hsub : (entries.filter fun e => e.share.val = share).Sublist (ascending entries) :=
    List.sublist_mergeSort share_le_trans share_le_total hsame List.filter_sublist
  have hsub := hsub.filter fun e => e.share.val = share
  rw [List.filter_filter, List.filter_congr fun e _ => Bool.and_self _] at hsub
  exact (hsub.eq_of_length ((ascending_perm entries).filter _).length_eq.symm).symm

theorem stableOrder_ascending (entries : List Entry) : StableOrder (ascending entries) entries where
  perm := ascending_perm entries
  ascending := by
    have hsorted := List.pairwise_mergeSort share_le_trans share_le_total entries
    exact hsorted.imp fun h => of_decide_eq_true h
  stable := filter_share_ascending entries

theorem mem_iff_of_filter_share {sorted others : List Entry}
    (h : ∀ share, (sorted.filter fun e => e.share.val = share) = others.filter fun e => e.share.val = share) (e : Entry) :
    e ∈ sorted ↔ e ∈ others := by
  have hshare : e ∈ (sorted.filter fun o => o.share.val = e.share.val) ↔
      e ∈ others.filter fun o => o.share.val = e.share.val := by rw [h]
  simpa using hshare

theorem head_share_le {first e : Entry} {rest : List Entry}
    (h : (first :: rest).Pairwise fun a b => a.share.val ≤ b.share.val) (he : e ∈ first :: rest) :
    first.share.val ≤ e.share.val := by
  rcases List.mem_cons.mp he with rfl | he
  · exact Nat.le_refl _
  · exact List.rel_of_pairwise_cons h he

/-- Ascending lists with the same entries under each share are the same. -/
theorem eq_of_filter_share {sorted others : List Entry} (h : sorted.Pairwise fun a b => a.share.val ≤ b.share.val)
    (h' : others.Pairwise fun a b => a.share.val ≤ b.share.val)
    (hfilter : ∀ share, (sorted.filter fun e => e.share.val = share) = others.filter fun e => e.share.val = share) :
    sorted = others := by
  have hmem := mem_iff_of_filter_share hfilter
  induction sorted generalizing others with
  | nil => exact (List.eq_nil_iff_forall_not_mem.mpr fun e he => List.not_mem_nil ((hmem e).mpr he)).symm
  | cons first rest ih =>
    cases others with
    | nil => exact absurd ((hmem first).mp List.mem_cons_self) List.not_mem_nil
    | cons first' rest' =>
      -- Both heads have the least share, and so they are the first entry with it.
      have hle : first'.share.val ≤ first.share.val := head_share_le h' ((hmem first).mp List.mem_cons_self)
      have hle' : first.share.val ≤ first'.share.val := head_share_le h ((hmem first').mpr List.mem_cons_self)
      have hheads := hfilter first.share.val
      rw [List.filter_cons_of_pos (by simp), List.filter_cons_of_pos (by simpa using Nat.le_antisymm hle hle')] at hheads
      obtain ⟨rfl, -⟩ := List.cons.inj hheads
      have htails : ∀ share, (rest.filter fun e => e.share.val = share) = rest'.filter fun e => e.share.val = share := by
        intro share
        have hboth := hfilter share
        rw [List.filter_cons, List.filter_cons] at hboth
        split at hboth
        · exact (List.cons.inj hboth).2
        · exact hboth
      exact congrArg _ (ih h.of_cons h'.of_cons htails (mem_iff_of_filter_share htails))

theorem StableOrder.eq {sorted others entries : List Entry} (h : StableOrder sorted entries)
    (h' : StableOrder others entries) : sorted = others :=
  eq_of_filter_share h.ascending h'.ascending fun share => (h.stable share).trans (h'.stable share).symm

/-- An ascending list that keeps the order under each share has the entries that it should. -/
theorem StableOrder.of_stable {sorted entries : List Entry}
    (hascending : sorted.Pairwise fun a b => a.share.val ≤ b.share.val)
    (hstable : ∀ share, (sorted.filter fun e => e.share.val = share) = entries.filter fun e => e.share.val = share) :
    StableOrder sorted entries where
  perm := by
    refine List.perm_iff_count.mpr fun e => ?_
    have hcount : ∀ l : List Entry, (l.filter fun o => o.share.val = e.share.val).count e = l.count e := fun l =>
      List.count_filter (by simp)
    rw [← hcount sorted, ← hcount entries, hstable]
  ascending := hascending
  stable := hstable

theorem ascending_eq_self {entries : List Entry} (h : entries.Pairwise fun a b => a.share.val ≤ b.share.val) :
    ascending entries = entries :=
  (stableOrder_ascending entries).eq (.of_stable h fun _ => rfl)

/-! ### What comes before an entry -/

section

variable (front : List Entry) (e : Entry) (back : List Entry)

/-- The entries that take their draws before an entry, where `front` and `back` stand around it in the plan. -/
def entriesBefore : List Entry :=
  (front.filter fun o => o.share.val ≤ e.share.val) ++ back.filter fun o => o.share.val < e.share.val

/-- The entries that take their draws after it. -/
def entriesAfter : List Entry :=
  (front.filter fun o => e.share.val < o.share.val) ++ back.filter fun o => e.share.val ≤ o.share.val

theorem mem_entriesBefore {front back : List Entry} {e o : Entry} : o ∈ entriesBefore front e back ↔
    o ∈ front ∧ o.share.val ≤ e.share.val ∨ o ∈ back ∧ o.share.val < e.share.val := by
  simp [entriesBefore]

theorem mem_entriesAfter {front back : List Entry} {e o : Entry} : o ∈ entriesAfter front e back ↔
    o ∈ front ∧ e.share.val < o.share.val ∨ o ∈ back ∧ e.share.val ≤ o.share.val := by
  simp [entriesAfter]

theorem filter_share_filter (p : Nat → Bool) (entries : List Entry) (share : Nat) :
    ((entries.filter fun o => p o.share.val).filter fun o => o.share.val = share) =
      if p share then entries.filter fun o => o.share.val = share else [] := by
  rw [List.filter_filter]
  split
  · rename_i hp
    refine List.filter_congr fun o _ => ?_
    by_cases ho : o.share.val = share <;> simp [ho, hp]
  · rename_i hp
    refine List.filter_eq_nil_iff.mpr fun o _ => ?_
    by_cases ho : o.share.val = share <;> simp [ho, hp]

theorem ascending_split : ascending (front ++ e :: back) =
    ascending (entriesBefore front e back) ++ e :: ascending (entriesAfter front e back) := by
  refine (stableOrder_ascending _).eq (.of_stable ?_ fun share => ?_)
  · have hbefore : ∀ o ∈ ascending (entriesBefore front e back), o.share.val ≤ e.share.val := fun o ho => by
      rw [mem_ascending, mem_entriesBefore] at ho
      omega
    have hafter : ∀ o ∈ ascending (entriesAfter front e back), e.share.val ≤ o.share.val := fun o ho => by
      rw [mem_ascending, mem_entriesAfter] at ho
      omega
    refine List.pairwise_append.mpr ⟨(stableOrder_ascending _).ascending,
      List.pairwise_cons.mpr ⟨hafter, (stableOrder_ascending _).ascending⟩, fun a ha b hb => ?_⟩
    rcases List.mem_cons.mp hb with rfl | hb
    · exact hbefore a ha
    · exact Nat.le_trans (hbefore a ha) (hafter b hb)
  · -- Entries with less than the share of `e` are all before it, ones with more all after it, and those with the
    -- same share are before or after it as they stand in the plan.
    rw [List.filter_append, List.filter_cons, filter_share_ascending, filter_share_ascending, List.filter_append,
      List.filter_cons]
    unfold entriesBefore entriesAfter
    rw [List.filter_append, List.filter_append, filter_share_filter (fun n => decide (n ≤ e.share.val)),
      filter_share_filter (fun n => decide (n < e.share.val)), filter_share_filter (fun n => decide (e.share.val < n)),
      filter_share_filter (fun n => decide (e.share.val ≤ n))]
    rcases Nat.lt_trichotomy share e.share.val with h | h | h
    · simp [h, Nat.le_of_lt h, Nat.not_lt.mpr (Nat.le_of_lt h), Nat.not_le.mpr h, Nat.ne_of_gt h]
    · simp [h]
    · simp [h, Nat.le_of_lt h, Nat.not_lt.mpr (Nat.le_of_lt h), Nat.not_le.mpr h, Nat.ne_of_lt h]

theorem total_split :
    total (front ++ e :: back) = total (entriesBefore front e back) + e.share.val + total (entriesAfter front e back) := by
  rw [← total_ascending, ascending_split, total_append, total_cons, total_ascending, total_ascending]
  omega

end

end ImageRollout
