import Mathlib.Data.List.Nodup
import ImageRollout.Proofs.Plan.Position

/-! Plans that selection does not tell apart. Which share a draw falls to is known from the shares alone,
    so another order of the entries can only move draws between entries with the same share, and where
    these stay in order it moves none. Entries without a share take no draws, so they can stand anywhere
    in a plan and nothing changes. -/

namespace ImageRollout

/-- Selection and resolution make no difference between two lists of entries. -/
structure Interchangeable (entries others : List Entry) : Prop where
  select_eq : ∀ draw, select others draw = select entries draw
  resolve_eq : ∀ (imageType : String) (plan : Plan) (strategy : Option Strategy) (g : Generator),
    resolve imageType (some { plan with entries := others }) strategy g =
      resolve imageType (some { plan with entries }) strategy g

theorem Interchangeable.of_covering?_eq {entries others : List Entry}
    (h : ∀ draw, covering? others draw = covering? entries draw) : Interchangeable entries others := by
  have hselect : ∀ draw, select others draw = select entries draw := fun draw => by
    unfold select
    rw [h]
  refine ⟨hselect, fun imageType plan strategy g => ?_⟩
  cases strategy with
  | none => rfl
  | some strategy =>
    rw [resolve_eq_judge, resolve_eq_judge]
    unfold judge
    rw [hselect]

/-- The entries that have a share. -/
def withShare (entries : List Entry) : List Entry :=
  entries.filter fun e => 0 < e.share.val

theorem mem_withShare {entries : List Entry} {e : Entry} : e ∈ withShare entries ↔ e ∈ entries ∧ 0 < e.share.val := by
  simp [withShare]

/-! ### Entries in another order -/

/-- The shares of the entries that have one are distinct. -/
def DistinctShares (entries : List Entry) : Prop :=
  ((withShare entries).map Entry.share).Nodup

/-- The entries with one share are in the same order in two lists, whatever the share. -/
def SameTies (entries others : List Entry) : Prop :=
  ∀ share, (entries.filter fun e => e.share.val = share) = others.filter fun e => e.share.val = share

section

variable {entries others : List Entry}

theorem SameTies.ascending_eq (h : SameTies entries others) : ascending others = ascending entries := by
  have hsorted : StableOrder (ascending others) entries :=
    .of_stable (stableOrder_ascending others).ascending fun share =>
      (filter_share_ascending others share).trans (h share).symm
  exact hsorted.eq (stableOrder_ascending entries)

/-- In ascending order the shares are the same, however the entries stood. -/
theorem shares_ascending_perm (h : entries.Perm others) :
    (ascending others).map Entry.share = (ascending entries).map Entry.share := by
  have hperm : (ascending others).Perm (ascending entries) :=
    (ascending_perm others).trans (h.symm.trans (ascending_perm entries).symm)
  have hsorted : ∀ l : List Entry, ((ascending l).map Entry.share).Pairwise fun p q => p.val ≤ q.val := fun l =>
    List.pairwise_map.mpr (stableOrder_ascending l).ascending
  exact (hperm.map Entry.share).eq_of_pairwise (fun _ _ _ _ hpq hqp => Subtype.ext (Nat.le_antisymm hpq hqp))
    (hsorted others) (hsorted entries)

/-- The share that a draw falls to is told by the shares in their order. -/
theorem share_coveringFrom?_congr (h : others.map Entry.share = entries.map Entry.share) (covered : Nat) (draw : Int) :
    (coveringFrom? covered others draw).map Entry.share = (coveringFrom? covered entries draw).map Entry.share := by
  induction entries generalizing others covered with
  | nil => rw [List.map_eq_nil_iff.mp h]
  | cons e rest ih =>
    obtain ⟨o, rest', rfl, hshare, hrest⟩ := List.map_eq_cons_iff.mp h
    rw [coveringFrom?_cons, coveringFrom?_cons, hshare]
    split
    · exact congrArg some hshare
    · exact ih hrest _

theorem share_covering?_perm (h : entries.Perm others) (draw : Int) :
    (covering? others draw).map Entry.share = (covering? entries draw).map Entry.share :=
  share_coveringFrom?_congr (shares_ascending_perm h) 0 draw

theorem DistinctShares.covering?_perm (hdistinct : DistinctShares entries) (h : entries.Perm others) (draw : Int) :
    covering? others draw = covering? entries draw := by
  have hshare := share_covering?_perm h draw
  cases hcovering : covering? entries draw with
  | none =>
    rw [hcovering] at hshare
    exact Option.map_eq_none_iff.mp hshare
  | some e =>
    rw [hcovering] at hshare
    obtain ⟨o, ho, heq⟩ := Option.map_eq_some_iff.mp hshare
    -- Both have a share, and of the entries with a share one alone has this one.
    have hmem : e ∈ withShare entries ∧ o ∈ withShare entries := by
      obtain ⟨homem, hopos⟩ := covering?_mem ho
      exact ⟨mem_withShare.mpr (covering?_mem hcovering), mem_withShare.mpr ⟨h.mem_iff.mpr homem, hopos⟩⟩
    rw [ho, List.inj_on_of_nodup_map hdistinct hmem.2 hmem.1 heq]

end

/-- On the same entries in another order a draw selects nothing in both or an entry with the same share, and the
    same entry if no two entries have the same share other than none. Where the entries with one share are in
    the same order, every draw selects the same entry. -/
theorem reordering_moves_only_ties (entries others : List Entry) :
    (entries.Perm others →
      (∀ draw : Int, 1 ≤ draw → draw ≤ 100 →
        (select entries draw = .ok none ∧ select others draw = .ok none) ∨
          ∃ e o, select entries draw = .ok (some e) ∧ select others draw = .ok (some o) ∧ o.share = e.share) ∧
      (DistinctShares entries → Interchangeable entries others)) ∧
    (SameTies entries others → Interchangeable entries others) := by
  refine ⟨fun h => ⟨fun draw hlow hhigh => ?_, fun hdistinct => ?_⟩, fun h => ?_⟩
  · have hdraw := Draw.isValid_iff.mpr ⟨hlow, hhigh⟩
    have hshare := share_covering?_perm h draw
    rw [select_of_isValid hdraw, select_of_isValid hdraw]
    cases hcovering : covering? entries draw with
    | none =>
      rw [hcovering] at hshare
      exact Or.inl ⟨rfl, congrArg _ (Option.map_eq_none_iff.mp hshare)⟩
    | some e =>
      rw [hcovering] at hshare
      obtain ⟨o, ho, heq⟩ := Option.map_eq_some_iff.mp hshare
      exact Or.inr ⟨e, o, rfl, congrArg _ ho, heq⟩
  · exact .of_covering?_eq (hdistinct.covering?_perm h)
  · refine .of_covering?_eq fun draw => ?_
    rw [covering?_eq_coveringFrom?, covering?_eq_coveringFrom?, h.ascending_eq]

/-- Two entries with the same share, the first of them unstable. -/
def tiedEntries : List Entry :=
  [uncheckedPlan.entries[2], uncheckedPlan.entries[5]]

/-- Of two entries with the same share the one that stands first takes the first draws. Entries with different
    shares can change places. -/
theorem reordering_moves_only_ties_sample :
    (∃ e o, select tiedEntries 20 = .ok (some e) ∧ select tiedEntries.reverse 20 = .ok (some o) ∧
      o.share = e.share ∧ o.stability ≠ e.stability) ∧
    Interchangeable samplePlan.entries samplePlan.entries.reverse ∧
    Interchangeable uncheckedPlan.entries (ascending uncheckedPlan.entries) := by
  obtain ⟨hties, -⟩ := reordering_moves_only_ties tiedEntries tiedEntries.reverse
  obtain ⟨hdistinct, -⟩ := reordering_moves_only_ties samplePlan.entries samplePlan.entries.reverse
  obtain ⟨-, hsame⟩ := reordering_moves_only_ties uncheckedPlan.entries (ascending uncheckedPlan.entries)
  have hselect : ∀ entries : List Entry, (entries.Pairwise fun a b => a.share.val ≤ b.share.val) →
      select entries 20 = .ok (coveringFrom? 0 entries 20) := fun entries h => by
    rw [select_of_isValid rfl, covering?_eq_coveringFrom?, ascending_eq_self h]
  have hshares : DistinctShares samplePlan.entries := by
    unfold DistinctShares
    decide
  refine ⟨?_, (hdistinct (List.reverse_perm _).symm).2 hshares, hsame fun share => (filter_share_ascending _ share).symm⟩
  rcases (hties (List.reverse_perm _).symm).1 20 (by decide) (by decide) with ⟨hnone, -⟩ | ⟨e, o, he, ho, hshare⟩
  · cases (hselect tiedEntries (by decide)).symm.trans hnone
  · refine ⟨e, o, he, ho, hshare, ?_⟩
    obtain rfl := Option.some.inj (Except.ok.inj ((hselect tiedEntries (by decide)).symm.trans he))
    obtain rfl := Option.some.inj (Except.ok.inj ((hselect tiedEntries.reverse (by decide)).symm.trans ho))
    decide

/-! ### Entries without a share -/

/-- A list of entries, and the same list with any entries without a share put in anywhere. -/
inductive Padded : List Entry → List Entry → Prop where
  | nil : Padded [] []
  | keep (e : Entry) {entries padded : List Entry} (h : Padded entries padded) : Padded (e :: entries) (e :: padded)
  | insert (e : Entry) (hshare : e.share.val = 0) {entries padded : List Entry} (h : Padded entries padded) :
      Padded entries (e :: padded)

theorem Padded.withShare_eq {entries padded : List Entry} (h : Padded entries padded) :
    withShare padded = withShare entries := by
  unfold withShare
  induction h with
  | nil => rfl
  | keep e _ ih => rw [List.filter_cons, List.filter_cons, ih]
  | insert e hshare _ ih => rw [List.filter_cons_of_neg (by simp [hshare]), ih]

/-- The stable order of some of the shares is that of all of them, less the others. -/
theorem ascending_filter (p : Nat → Bool) (entries : List Entry) :
    ascending (entries.filter fun e => p e.share.val) = (ascending entries).filter fun e => p e.share.val := by
  refine (stableOrder_ascending _).eq (.of_stable ((stableOrder_ascending entries).ascending.filter _) fun share => ?_)
  rw [filter_share_filter p, filter_share_filter p, filter_share_ascending]

theorem coveringFrom?_withShare (covered : Nat) (entries : List Entry) (draw : Int) :
    coveringFrom? covered (withShare entries) draw = coveringFrom? covered entries draw := by
  unfold withShare
  induction entries generalizing covered with
  | nil => rfl
  | cons e rest ih =>
    by_cases hshare : 0 < e.share.val
    · rw [List.filter_cons_of_pos (by simpa using hshare), coveringFrom?_cons, coveringFrom?_cons, ih]
    · -- An entry without a share covers no draw, and leaves what is covered as it is.
      have hzero : e.share.val = 0 := Nat.eq_zero_of_not_pos hshare
      have hnone : ¬((covered : Int) < draw ∧ draw ≤ covered + e.share.val) := by omega
      rw [List.filter_cons_of_neg (by simpa using hzero), ih, coveringFrom?_cons, if_neg hnone, hzero, Nat.add_zero]

theorem covering?_withShare (entries : List Entry) (draw : Int) :
    covering? (withShare entries) draw = covering? entries draw := by
  have hsorted : ascending (withShare entries) = withShare (ascending entries) :=
    ascending_filter (fun n => decide (0 < n)) entries
  rw [covering?_eq_coveringFrom?, covering?_eq_coveringFrom?, hsorted, coveringFrom?_withShare]

/-- Entries without a share are inert: with any of them put in anywhere, or all of them left out, selection and
    resolution come to the same. -/
theorem entries_without_share_are_inert (entries : List Entry) :
    (∀ padded, Padded entries padded → Interchangeable entries padded) ∧
      Interchangeable entries (withShare entries) := by
  refine ⟨fun padded h => .of_covering?_eq fun draw => ?_, .of_covering?_eq (covering?_withShare entries)⟩
  rw [← covering?_withShare padded, h.withShare_eq, covering?_withShare]

/-- An unstable version without a share, put in before, between and behind the versions with one. -/
theorem entries_without_share_are_inert_sample :
    let unused := samplePlan.entries[0]
    Interchangeable samplePlan.entries.tail
      [unused, samplePlan.entries[1], unused, unused, samplePlan.entries[2], unused] := by
  intro unused
  have hpadded : Padded samplePlan.entries.tail
      [unused, samplePlan.entries[1], unused, unused, samplePlan.entries[2], unused] :=
    .insert _ rfl (.keep _ (.insert _ rfl (.insert _ rfl (.keep _ (.insert _ rfl .nil)))))
  obtain ⟨hinert, -⟩ := entries_without_share_are_inert samplePlan.entries.tail
  exact hinert _ hpadded

end ImageRollout
