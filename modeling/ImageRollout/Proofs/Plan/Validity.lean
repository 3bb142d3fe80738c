import ImageRollout.Plan.Validity

/-! What the check of a plan decides. It accepts entries exactly if they are `Valid`: there are some,
    their shares make up one hundred percent, their versions are distinct, and an unstable one has no
    share. The names of those who made the entries do not matter to it (`Entry.unsigned`). -/

namespace ImageRollout

/-! ### Entries without the names of their makers -/

def Entry.unsigned (e : Entry) : Entry :=
  { e with createdBy := none, modifiedBy := none }

@[simp] theorem Entry.unsigned_share (e : Entry) : e.unsigned.share = e.share := rfl

/-- Two lists have the same entries in the same order, whoever made them. -/
def SameTerms (entries others : List Entry) : Prop :=
  entries.map Entry.unsigned = others.map Entry.unsigned

theorem SameTerms.symm {entries others : List Entry} (h : SameTerms entries others) : SameTerms others entries :=
  Eq.symm h

theorem SameTerms.trans {entries others more : List Entry} (h₁ : SameTerms entries others)
    (h₂ : SameTerms others more) : SameTerms entries more :=
  Eq.trans h₁ h₂

/-- What reads no names is the same for lists with the same terms. -/
theorem SameTerms.map_eq {α : Type} {entries others : List Entry} (h : SameTerms entries others) (f : Entry → α)
    (hf : ∀ e, f e.unsigned = f e) : entries.map f = others.map f := by
  have hmap : ∀ l : List Entry, l.map f = (l.map Entry.unsigned).map f := fun l => by
    rw [List.map_map]
    exact List.map_congr_left fun e _ => (hf e).symm
  rw [hmap entries, hmap others, h]

/-! ### Sums of shares -/

@[simp] theorem total_nil : total [] = 0 := rfl

@[simp] theorem total_cons (e : Entry) (rest : List Entry) : total (e :: rest) = e.share.val + total rest := rfl

theorem total_append (front back : List Entry) : total (front ++ back) = total front + total back := by
  induction front with
  | nil => simp
  | cons e rest ih =>
    rw [List.cons_append, total_cons, total_cons, ih]
    omega

theorem total_perm {entries others : List Entry} (h : entries.Perm others) : total entries = total others := by
  induction h with
  | nil => rfl
  | cons e _ ih => rw [total_cons, total_cons, ih]
  | swap e first rest =>
    simp only [total_cons]
    omega
  | trans _ _ ih₁ ih₂ => exact ih₁.trans ih₂

theorem total_map {f : Entry → Entry} (hf : ∀ e, (f e).share = e.share) (entries : List Entry) :
    total (entries.map f) = total entries := by
  induction entries with
  | nil => rfl
  | cons e rest ih => rw [List.map_cons, total_cons, total_cons, hf, ih]

theorem total_unsigned (entries : List Entry) : total (entries.map Entry.unsigned) = total entries :=
  total_map (f := Entry.unsigned) (fun _ => rfl) entries

theorem SameTerms.total_eq {entries others : List Entry} (h : SameTerms entries others) : total entries = total others := by
  rw [← total_unsigned entries, h, total_unsigned others]

/-! ### The check -/

/-- What the entries of a plan have to satisfy. -/
structure Valid (entries : List Entry) : Prop where
  nonempty : entries ≠ []
  full : total entries = 100
  distinct : (entries.map fun e => e.version.val).Nodup
  unstable : ∀ e ∈ entries, e.stability = .unstable → e.share.val = 0

theorem firstRepeated?_eq_none_iff {seen : List String} {entries : List Entry} :
    firstRepeated? seen entries = none ↔
      (∀ e ∈ entries, e.version.val ∉ seen) ∧ (entries.map fun e => e.version.val).Nodup := by
  induction entries generalizing seen with
  | nil => simp [firstRepeated?]
  | cons e rest ih =>
    unfold firstRepeated?
    by_cases hseen : e.version.val ∈ seen
    · simp [hseen]
    · rw [ite_cond_eq_false _ _ (by simpa using hseen), ih]
      simp only [List.mem_cons, not_or, List.map_cons, List.nodup_cons, List.mem_map, not_exists, not_and,
        forall_eq_or_imp]
      constructor
      · rintro ⟨hnew, hrest⟩
        exact ⟨⟨hseen, fun o ho => (hnew o ho).2⟩, fun o ho => (hnew o ho).1, hrest⟩
      · rintro ⟨⟨-, hold⟩, hne, hrest⟩
        exact ⟨fun o ho => ⟨hne o ho, hold o ho⟩, hrest⟩

theorem firstUnstable?_eq_none_iff {entries : List Entry} :
    firstUnstable? entries = none ↔ ∀ e ∈ entries, e.stability = .unstable → e.share.val = 0 := by
  simp [firstUnstable?]

theorem checkPlan_eq_ok_iff {entries : List Entry} : checkPlan entries = .ok () ↔ Valid entries := by
  unfold checkPlan
  constructor
  · intro h
    split at h
    · cases h
    · rename_i hne
      split at h
      · cases h
      · rename_i hfull
        split at h
        · cases h
        · rename_i hrep
          split at h
          · cases h
          · rename_i huns
            exact ⟨by simpa using hne, by simpa using hfull, (firstRepeated?_eq_none_iff.mp hrep).2,
              firstUnstable?_eq_none_iff.mp huns⟩
  · rintro ⟨hne, hfull, hdist, huns⟩
    have hrep : firstRepeated? [] entries = none :=
      firstRepeated?_eq_none_iff.mpr ⟨fun e _ => List.not_mem_nil, hdist⟩
    simp [hne, hfull, hrep, firstUnstable?_eq_none_iff.mpr huns]

theorem SameTerms.valid {entries others : List Entry} (h : SameTerms entries others) (hv : Valid entries) :
    Valid others where
  nonempty hnil := hv.nonempty (by simpa [SameTerms, hnil] using h)
  full := h.total_eq ▸ hv.full
  distinct := h.map_eq (fun e => e.version.val) (fun _ => rfl) ▸ hv.distinct
  unstable e he hu := by
    have hmem : (e.stability, e.share) ∈ entries.map fun e => (e.stability, e.share) := by
      rw [h.map_eq (fun e => (e.stability, e.share)) fun _ => rfl]
      exact List.mem_map_of_mem he
    obtain ⟨o, ho, heq⟩ := List.mem_map.mp hmem
    obtain ⟨hs, hp⟩ := Prod.mk.inj heq
    rw [← hp]
    exact hv.unstable o ho (hs.trans hu)

theorem SameTerms.checkPlan_eq_ok {entries others : List Entry} (h : SameTerms entries others)
    (hc : checkPlan entries = .ok ()) : checkPlan others = .ok () :=
  checkPlan_eq_ok_iff.mpr (h.valid (checkPlan_eq_ok_iff.mp hc))

/-- A plan with entries in three stabilities, not in the order of their shares. -/
def samplePlan : Plan where
  imageType := "spark"
  entries :=
    [{ version := ⟨"1.0", by decide⟩, share := ⟨0, by decide⟩, stability := .unstable },
      { version := ⟨"2.0", by decide⟩, share := ⟨60, by decide⟩, stability := .stable },
      { version := ⟨"1.1", by decide⟩, share := ⟨40, by decide⟩ }]

example : checkPlan samplePlan.entries = .ok () := rfl

/-- The same entries, all of them unstable. -/
def distrusted (entries : List Entry) : List Entry :=
  entries.map fun e => { e with stability := .unstable }

end ImageRollout
