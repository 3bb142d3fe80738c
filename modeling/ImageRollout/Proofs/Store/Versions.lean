import Mathlib
import ImageRollout.Store.Memory
import ImageRollout.Store.Tables

/-! The latest active version of an image type. A store in memory looks for the greatest sequence number,
    a database sorts by the time of making. Where these ascend with the registrations, both find the
    active registration that was made last. -/

namespace ImageRollout

namespace Memory

/-- The registrations of an image type, in the order they were made. -/
def versionsOf (m : Memory) (imageType : String) : List Registration :=
  m.versions.filter fun r => r.imageType = imageType

theorem newestActive?_eq (m : Memory) (imageType : String) :
    m.newestActive? imageType = ((m.versionsOf imageType).filter fun r => r.state = .active).foldl later none := by
  unfold newestActive? versionsOf
  rw [List.filter_filter]
  congr 1
  refine List.filter_congr fun r _ => ?_
  rw [Bool.eq_iff_iff]
  simp [and_comm]

theorem foldl_later {versions : List Registration} (h : versions.Pairwise fun a b => a.sequence < b.sequence) :
    versions.foldl later none = versions.getLast? := by
  induction versions using List.reverseRecOn with
  | nil => rfl
  | append_singleton before last ih =>
    obtain ⟨hbefore, -, hlast⟩ := List.pairwise_append.mp h
    rw [List.foldl_append, ih hbefore, List.getLast?_append]
    cases hbest : before.getLast? with
    | none => rfl
    | some best =>
      have hlt := hlast best (List.mem_of_getLast? hbest) last (List.mem_singleton_self last)
      simp [later, hlt]

theorem newestActive?_eq_getLast? {m : Memory} (h : m.versions.Pairwise fun a b => a.sequence < b.sequence)
    (imageType : String) :
    m.newestActive? imageType = ((m.versionsOf imageType).filter fun r => r.state = .active).getLast? := by
  rw [newestActive?_eq, foldl_later]
  exact (h.sublist List.filter_sublist).sublist List.filter_sublist

end Memory

namespace Tables

theorem head?_mergeSort_madeAfter {rows : List VersionRow} (h : rows.Pairwise fun a b => a.createdAt < b.createdAt) :
    (rows.mergeSort madeAfter).head? = rows.getLast? := by
  have hsorted : (rows.mergeSort madeAfter).Pairwise fun a b => madeAfter a b = true := by
    refine List.pairwise_mergeSort (fun a b c hab hbc => ?_) (fun a b => ?_) rows
    · simp only [madeAfter, decide_eq_true_eq] at hab hbc ⊢
      omega
    · simp only [madeAfter, Bool.or_eq_true, decide_eq_true_eq]
      omega
  have hreverse : rows.reverse.Pairwise fun a b => madeAfter a b = true := by
    rw [List.pairwise_reverse]
    exact h.imp fun hab => decide_eq_true (Or.inl hab)
  have hinjective : ∀ a ∈ rows, ∀ b ∈ rows, a.createdAt = b.createdAt → a = b :=
    fun a ha b hb heq => List.inj_on_of_nodup_map
      (List.pairwise_map.mpr (h.imp fun hab => ne_of_lt hab)) ha hb heq
  have hperm : (rows.mergeSort madeAfter).Perm rows.reverse :=
    (List.mergeSort_perm rows madeAfter).trans rows.reverse_perm.symm
  -- Two rows that come after each other were made at one time, so they are one row.
  have heq : rows.mergeSort madeAfter = rows.reverse := by
    refine hperm.eq_of_pairwise (fun a b ha hb hab hba => ?_) hsorted hreverse
    refine hinjective a (List.mem_mergeSort.mp ha) b (List.mem_reverse.mp hb) ?_
    simp only [madeAfter, decide_eq_true_eq] at hab hba
    omega
  rw [heq, List.head?_reverse]

theorem head?_activeVersions {t : Tables} (h : t.versions.Pairwise fun a b => a.createdAt < b.createdAt)
    (imageType : String) :
    (t.activeVersions imageType).head? =
      (t.versions.filter fun row => row.imageType = imageType ∧ row.state = VersionState.active.name).getLast? :=
  head?_mergeSort_madeAfter (h.sublist List.filter_sublist)

end Tables

end ImageRollout
