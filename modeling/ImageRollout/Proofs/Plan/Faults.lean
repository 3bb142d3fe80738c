import ImageRollout.Failure
import ImageRollout.Proofs.Plan.Validity

/-! Which fault the check of a plan reports. `PlanVerdict` says of each verdict what the entries are like
    that get it: the rules are taken in their order, and of the entries that break the first broken rule
    the fault names the first. The kind of the verdict does not depend on the order of the entries. -/

namespace ImageRollout

/-! ### The first repeated version -/

/-- The version at an index stands at an earlier one, or among versions `seen` before the list. -/
def RepeatsPast (seen : List String) (entries : List Entry) (i : Nat) : Prop :=
  ∃ e, entries[i]? = some e ∧ (e.version.val ∈ seen ∨ ∃ o ∈ entries.take i, o.version.val = e.version.val)

/-- The version at an index stands at an earlier one. -/
def RepeatsAt (entries : List Entry) (i : Nat) : Prop :=
  ∃ e, entries[i]? = some e ∧ ∃ o ∈ entries.take i, o.version.val = e.version.val

theorem repeatsPast_nil (entries : List Entry) : RepeatsPast [] entries = RepeatsAt entries := by
  funext i
  simp [RepeatsPast, RepeatsAt]

section

variable {seen : List String} {first : Entry} {rest : List Entry}

theorem repeatsPast_zero : RepeatsPast seen (first :: rest) 0 ↔ first.version.val ∈ seen := by
  simp [RepeatsPast]

theorem repeatsPast_succ {i : Nat} :
    RepeatsPast seen (first :: rest) (i + 1) ↔ RepeatsPast (first.version.val :: seen) rest i := by
  simp only [RepeatsPast, List.getElem?_cons_succ, List.take_succ_cons, List.mem_cons, exists_eq_or_imp]
  refine exists_congr fun e => and_congr_right fun _ => ?_
  rw [← or_assoc, or_comm (a := e.version.val ∈ seen), eq_comm]

end

/-- The version that is found stands at the least index with a version that has been seen. -/
theorem firstRepeated?_eq_some_iff {seen : List String} {entries : List Entry} {version : String} :
    firstRepeated? seen entries = some version ↔
      ∃ i e, entries[i]? = some e ∧ e.version.val = version ∧ RepeatsPast seen entries i ∧
        ∀ j < i, ¬RepeatsPast seen entries j := by
  -- What has been seen grows by each version that the scan goes past.
  induction entries generalizing seen with
  | nil => simp [firstRepeated?]
  | cons first rest ih =>
    unfold firstRepeated?
    by_cases hseen : first.version.val ∈ seen
    · rw [if_pos (List.contains_iff_mem.mpr hseen)]
      constructor
      · intro h
        exact ⟨0, first, rfl, Option.some.inj h, repeatsPast_zero.mpr hseen, fun j hj => absurd hj (Nat.not_lt_zero j)⟩
      · rintro ⟨i, e, he, rfl, -, hleast⟩
        cases i with
        | zero =>
          obtain rfl := Option.some.inj he
          rfl
        | succ i => exact absurd (repeatsPast_zero.mpr hseen) (hleast 0 (Nat.succ_pos i))
    · rw [if_neg fun h => hseen (List.contains_iff_mem.mp h), ih]
      constructor
      · rintro ⟨i, e, he, hversion, hrepeats, hleast⟩
        refine ⟨i + 1, e, he, hversion, repeatsPast_succ.mpr hrepeats, fun j hj => ?_⟩
        cases j with
        | zero => exact fun h => hseen (repeatsPast_zero.mp h)
        | succ j => exact fun h => hleast j (Nat.lt_of_succ_lt_succ hj) (repeatsPast_succ.mp h)
      · rintro ⟨i, e, he, hversion, hrepeats, hleast⟩
        cases i with
        | zero => exact absurd (repeatsPast_zero.mp hrepeats) hseen
        | succ i =>
          exact ⟨i, e, he, hversion, repeatsPast_succ.mp hrepeats, fun j hj h =>
            hleast (j + 1) (Nat.succ_lt_succ hj) (repeatsPast_succ.mpr h)⟩

/-! ### The first unstable version with a share -/

theorem firstUnstable?_eq_some_iff {entries : List Entry} {e : Entry} :
    firstUnstable? entries = some e ↔
      (e.stability = .unstable ∧ e.share.val ≠ 0) ∧ ∃ before after, entries = before ++ e :: after ∧
        ∀ o ∈ before, o.stability = .unstable → o.share.val = 0 := by
  simp only [firstUnstable?, List.find?_eq_some_iff_append, decide_eq_true_eq, Bool.not_eq_true',
    decide_eq_false_iff_not, not_and, ne_eq, Decidable.not_not, exists_and_right]

/-! ### The verdict -/

/-- The verdict on entries that may not be given. -/
inductive PlanVerdict : Option (List Entry) → Except PlanFault Unit → Prop where
  | notGiven : PlanVerdict none (.error .empty)
  | empty : PlanVerdict (some []) (.error .empty)
  | badTotal {entries} (hentries : entries ≠ []) (htotal : total entries ≠ 100) :
    PlanVerdict (some entries) (.error (.badTotal (total entries)))
  | repeated {entries} (hentries : entries ≠ []) (htotal : total entries = 100) {i : Nat} {e : Entry}
    (he : entries[i]? = some e) (hrepeats : RepeatsAt entries i) (hleast : ∀ j < i, ¬RepeatsAt entries j) :
    PlanVerdict (some entries) (.error (.repeatedVersion e.version.val))
  | unstable {entries} (hentries : entries ≠ []) (htotal : total entries = 100)
    (hdistinct : (entries.map fun e => e.version.val).Nodup) {before after : List Entry} {e : Entry}
    (hsplit : entries = before ++ e :: after) (hunstable : e.stability = .unstable) (hshare : e.share.val ≠ 0)
    (hfirst : ∀ o ∈ before, o.stability = .unstable → o.share.val = 0) :
    PlanVerdict (some entries) (.error (.unstableShare e.version.val e.share.val))
  | accepted {entries} (hvalid : Valid entries) : PlanVerdict (some entries) (.ok ())

theorem planVerdict_checkGiven (given : Option (List Entry)) : PlanVerdict given (checkGiven given) := by
  rcases given with _ | entries
  · exact .notGiven
  show PlanVerdict (some entries) (checkPlan entries)
  by_cases hentries : entries = []
  · subst hentries
    exact .empty
  unfold checkPlan
  rw [if_neg (by simpa using hentries)]
  split
  · rename_i htotal
    exact .badTotal hentries htotal
  rename_i htotal
  replace htotal := Decidable.not_not.mp htotal
  cases hrepeated : firstRepeated? [] entries with
  | some version =>
    obtain ⟨i, e, he, rfl, hrepeats, hleast⟩ := firstRepeated?_eq_some_iff.mp hrepeated
    rw [repeatsPast_nil] at hrepeats hleast
    exact .repeated hentries htotal he hrepeats hleast
  | none =>
    have hdistinct := (firstRepeated?_eq_none_iff.mp hrepeated).2
    cases hfound : firstUnstable? entries with
    | some e =>
      obtain ⟨⟨hunstable, hshare⟩, before, after, hsplit, hfirst⟩ := firstUnstable?_eq_some_iff.mp hfound
      exact .unstable hentries htotal hdistinct hsplit hunstable hshare hfirst
    | none => exact .accepted ⟨hentries, htotal, hdistinct, firstUnstable?_eq_none_iff.mp hfound⟩

theorem PlanVerdict.checkGiven_eq {given : Option (List Entry)} {verdict : Except PlanFault Unit}
    (h : PlanVerdict given verdict) : checkGiven given = verdict := by
  cases h with
  | notGiven => rfl
  | empty => rfl
  | badTotal hentries htotal => simp [checkGiven, checkPlan, hentries, htotal]
  | repeated hentries htotal he hrepeats hleast =>
    rw [← repeatsPast_nil] at hrepeats hleast
    have hrepeated := firstRepeated?_eq_some_iff.mpr ⟨_, _, he, rfl, hrepeats, hleast⟩
    simp [checkGiven, checkPlan, hentries, htotal, hrepeated]
  | unstable hentries htotal hdistinct hsplit hunstable hshare hfirst =>
    have hrepeated := firstRepeated?_eq_none_iff.mpr ⟨fun e _ => List.not_mem_nil (a := e.version.val), hdistinct⟩
    have hfound := firstUnstable?_eq_some_iff.mpr ⟨⟨hunstable, hshare⟩, _, _, hsplit, hfirst⟩
    simp [checkGiven, checkPlan, hentries, htotal, hrepeated, hfound]
  | accepted hvalid => exact checkPlan_eq_ok_iff.mpr hvalid

/-! ### Entries in another order -/

/-- The kind of failure that a fault is reported as. -/
def PlanFault.kind (fault : PlanFault) : FailureKind :=
  (DomainFailure.invalidPlan fault).kind

theorem RepeatsAt.not_nodup {entries : List Entry} {i : Nat} (h : RepeatsAt entries i) :
    ¬(entries.map fun e => e.version.val).Nodup := by
  obtain ⟨e, he, o, ho, hversion⟩ := h
  have hdrop : e ∈ entries.drop i := List.mem_of_getElem? (i := 0) (List.getElem?_drop.trans he)
  rw [← List.take_append_drop i entries, List.map_append, List.nodup_append]
  rintro ⟨-, -, hdistinct⟩
  exact hdistinct _ (List.mem_map_of_mem ho) _ (List.mem_map_of_mem hdrop) hversion

/-- The kind of a verdict, told from what the order of the entries has no part in. -/
theorem kind_checkPlan (entries : List Entry) : (checkPlan entries).mapError PlanFault.kind =
    if entries = [] then .error .emptyPlan
    else if total entries ≠ 100 then .error .invalidTotal
    else if ¬(entries.map fun e => e.version.val).Nodup then .error .duplicateVersion
    else if ∃ e ∈ entries, e.stability = .unstable ∧ e.share.val ≠ 0 then .error .unstableShare
    else .ok () := by
  have hverdict : PlanVerdict (some entries) (checkPlan entries) := planVerdict_checkGiven (some entries)
  generalize checkPlan entries = verdict at hverdict
  cases hverdict with
  | empty => rfl
  | badTotal hentries htotal =>
    rw [if_neg hentries, if_pos htotal]
    rfl
  | repeated hentries htotal he hrepeats hleast =>
    rw [if_neg hentries, if_neg (not_not_intro htotal), if_pos hrepeats.not_nodup]
    rfl
  | @unstable _ hentries htotal hdistinct before after e hsplit hunstable hshare hfirst =>
    have hmem : e ∈ entries := hsplit ▸ List.mem_append_right before List.mem_cons_self
    rw [if_neg hentries, if_neg (not_not_intro htotal), if_neg (not_not_intro hdistinct),
      if_pos ⟨e, hmem, hunstable, hshare⟩]
    rfl
  | accepted hvalid =>
    have hsound : ¬∃ e ∈ entries, e.stability = .unstable ∧ e.share.val ≠ 0 := by
      rintro ⟨e, he, hunstable, hshare⟩
      exact hshare (hvalid.unstable e he hunstable)
    rw [if_neg hvalid.nonempty, if_neg (not_not_intro hvalid.full), if_neg (not_not_intro hvalid.distinct), if_neg hsound]
    rfl

theorem kind_checkPlan_perm {entries others : List Entry} (h : entries.Perm others) :
    (checkPlan others).mapError PlanFault.kind = (checkPlan entries).mapError PlanFault.kind := by
  have hnil : others = [] ↔ entries = [] := ⟨fun hnil => (hnil ▸ h).eq_nil, fun hnil => (hnil ▸ h).symm.eq_nil⟩
  simp only [kind_checkPlan, hnil, ← total_perm h, ← (h.map fun e => e.version.val).nodup_iff, ← h.mem_iff]

/-- The check comes to the verdict on the entries and to no other, and to one of the same kind on the same
    entries in another order. -/
theorem check_decides_verdict (given : Option (List Entry)) :
    (∀ verdict, checkGiven given = verdict ↔ PlanVerdict given verdict) ∧
      ∀ others, (given.getD []).Perm others →
        (checkGiven (some others)).mapError PlanFault.kind = (checkGiven given).mapError PlanFault.kind := by
  refine ⟨fun verdict => ⟨?_, PlanVerdict.checkGiven_eq⟩, fun others h => kind_checkPlan_perm h⟩
  rintro rfl
  exact planVerdict_checkGiven given

/-- A plan with a version that comes twice, and with unstable versions that have shares. -/
def faultyEntries : List Entry :=
  distrusted samplePlan.entries ++ samplePlan.entries.take 1

theorem check_decides_verdict_sample :
    PlanVerdict (some faultyEntries) (.error (.repeatedVersion "1.0")) ∧
      (checkGiven (some faultyEntries.reverse)).mapError PlanFault.kind = .error .duplicateVersion := by
  obtain ⟨hverdict, hkind⟩ := check_decides_verdict (some faultyEntries)
  exact ⟨(hverdict _).mp rfl, hkind _ (List.reverse_perm _).symm⟩

end ImageRollout
