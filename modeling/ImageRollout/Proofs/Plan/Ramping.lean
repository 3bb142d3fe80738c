import Mathlib.Data.List.Nodup
import ImageRollout.Proofs.Plan.Position

/-! Ramping a version up. Where one share of a valid plan rises and no other does, an entry that came before
    the ramped one still does, so the draws of the ramped one reach at least as far. They also start at
    least as early, unless an entry from behind it now comes before it. So a draw leaves the ramped
    version only where that version overtakes another. -/

namespace ImageRollout

/-- Two plans have the same versions in the same order, and of the shares at most the one at a place rises. -/
structure Ramped (entries ramped : List Entry) (place : Nat) : Prop where
  versions : (entries.map fun e => e.version.val) = ramped.map fun e => e.version.val
  up : ∀ e r, entries[place]? = some e → ramped[place]? = some r → e.share.val ≤ r.share.val
  down : ∀ i e r, i ≠ place → entries[i]? = some e → ramped[i]? = some r → r.share.val ≤ e.share.val

/-- One version comes before another in an order. -/
def Precedes (sorted : List Entry) (version other : String) : Prop :=
  ∃ before after, sorted = before ++ after ∧ (∃ e ∈ before, e.version.val = version) ∧
    ∃ e ∈ after, e.version.val = other

/-- The draw selects the version. -/
def Selects (entries : List Entry) (draw : Int) (version : String) : Prop :=
  ∃ e, select entries draw = .ok (some e) ∧ e.version.val = version

/-! ### Entries whose shares do not rise -/

/-- The entries of a list have the versions of those of another, place by place, and at most their shares. -/
structure Yielding (entries others : List Entry) : Prop where
  length_eq : entries.length = others.length
  version_eq : ∀ (i : Nat) e o, entries[i]? = some e → others[i]? = some o → o.version.val = e.version.val
  share_le : ∀ (i : Nat) e o, entries[i]? = some e → others[i]? = some o → o.share.val ≤ e.share.val

/-- Where shares do not rise, the entries picked out do not add up to more unless more of them are picked. -/
theorem Yielding.total_filter_le {p q : Entry → Bool} {entries others : List Entry} (h : Yielding entries others)
    (hfilter : ∀ (i : Nat) e o, entries[i]? = some e → others[i]? = some o → q o = true → p e = true) :
    total (others.filter q) ≤ total (entries.filter p) := by
  obtain ⟨hlength, -, hshare⟩ := h
  induction entries generalizing others with
  | nil =>
    obtain rfl := List.length_eq_zero_iff.mp hlength.symm
    exact Nat.le_refl _
  | cons e entries ih =>
    cases others with
    | nil => cases hlength
    | cons o others =>
      have hrest := ih (fun i => hfilter (i + 1)) (Nat.succ.inj hlength) fun i => hshare (i + 1)
      have hhead := hshare 0 e o rfl rfl
      have hkept := hfilter 0 e o rfl rfl
      by_cases ho : q o = true
      · rw [List.filter_cons_of_pos ho, List.filter_cons_of_pos (hkept ho), total_cons, total_cons]
        omega
      · rw [List.filter_cons_of_neg ho, List.filter_cons]
        split
        · rw [total_cons]
          omega
        · exact hrest

theorem Yielding.exists_getElem? {entries others : List Entry} (h : Yielding entries others) {e : Entry}
    (he : e ∈ entries) : ∃ (i : Nat) (o : Entry), entries[i]? = some e ∧ others[i]? = some o := by
  obtain ⟨i, hi⟩ := List.mem_iff_getElem?.mp he
  obtain ⟨hlt, -⟩ := List.getElem?_eq_some_iff.mp hi
  exact ⟨i, _, hi, List.getElem?_eq_getElem (h.length_eq ▸ hlt)⟩

/-- Around the ramped version of a plan the entries yield. -/
structure RampedAt (front : List Entry) (e : Entry) (back front' : List Entry) (r : Entry) (back' : List Entry) :
    Prop where
  version_eq : r.version.val = e.version.val
  up : e.share.val ≤ r.share.val
  front : Yielding front front'
  back : Yielding back back'

theorem eq_take_cons_drop {entries : List Entry} {i : Nat} {e : Entry} (h : entries[i]? = some e) :
    entries = entries.take i ++ e :: entries.drop (i + 1) := by
  obtain ⟨hlt, rfl⟩ := List.getElem?_eq_some_iff.mp h
  rw [List.getElem_cons_drop, List.take_append_drop]

theorem getElem?_of_take {l : List Entry} {place i : Nat} {e : Entry} (h : (l.take place)[i]? = some e) :
    i < place ∧ l[i]? = some e := by
  rw [List.getElem?_take] at h
  split at h
  · rename_i hlt
    exact ⟨hlt, h⟩
  · cases h

namespace Ramped

variable {entries ramped : List Entry} {place : Nat} (h : Ramped entries ramped place)

include h

theorem length_eq : entries.length = ramped.length := by
  simpa using congrArg List.length h.versions

theorem version_eq {i : Nat} {e r : Entry} (he : entries[i]? = some e) (hr : ramped[i]? = some r) :
    r.version.val = e.version.val := by
  have hat := congrArg (fun versions : List String => versions[i]?) h.versions
  simp only [List.getElem?_map, he, hr, Option.map_some] at hat
  exact (Option.some.inj hat).symm

theorem yielding_take : Yielding (entries.take place) (ramped.take place) where
  length_eq := by rw [List.length_take, List.length_take, h.length_eq]
  version_eq _ _ _ he ho := h.version_eq (getElem?_of_take he).2 (getElem?_of_take ho).2
  share_le i e o he ho := by
    obtain ⟨hlt, he⟩ := getElem?_of_take he
    exact h.down i e o (Nat.ne_of_lt hlt) he (getElem?_of_take ho).2

theorem yielding_drop : Yielding (entries.drop (place + 1)) (ramped.drop (place + 1)) where
  length_eq := by rw [List.length_drop, List.length_drop, h.length_eq]
  version_eq i e o he ho := by
    rw [List.getElem?_drop] at he ho
    exact h.version_eq he ho
  share_le i e o he ho := by
    rw [List.getElem?_drop] at he ho
    exact h.down _ e o (by omega) he ho

theorem split {version : String} (hplace : (entries.map fun e => e.version.val)[place]? = some version) :
    ∃ front e back front' r back', entries = front ++ e :: back ∧ ramped = front' ++ r :: back' ∧
      e.version.val = version ∧ RampedAt front e back front' r back' := by
  have hplace' := h.versions ▸ hplace
  rw [List.getElem?_map, Option.map_eq_some_iff] at hplace hplace'
  obtain ⟨e, he, hversion⟩ := hplace
  obtain ⟨r, hr, -⟩ := hplace'
  exact ⟨_, e, _, _, r, _, eq_take_cons_drop he, eq_take_cons_drop hr, hversion,
    h.version_eq he hr, h.up e r he hr, h.yielding_take, h.yielding_drop⟩

end Ramped

/-! ### The draws of one version -/

section

variable {front : List Entry} {e : Entry} {back : List Entry} {draw : Int}

theorem covering?_split (hfront : e ∉ front) (hback : e ∉ back) (hdraw : 0 < draw) :
    covering? (front ++ e :: back) draw = some e ↔
      (total (entriesBefore front e back) : Int) < draw ∧ draw ≤ total (entriesBefore front e back) + e.share.val := by
  have hbefore : e ∉ ascending (entriesBefore front e back) := by simp [mem_entriesBefore, hfront]
  have hafter : e ∉ ascending (entriesAfter front e back) := by simp [mem_entriesAfter, hback]
  rw [covering?_eq_coveringFrom?, coveringFrom?_eq_some_iff (by simpa using hdraw), ascending_split]
  constructor
  · rintro ⟨before, after, hsplit, hlow, hhigh⟩
    obtain ⟨rfl, -, -⟩ := (List.append_cons_inj_of_notMem hbefore hafter).mp hsplit
    rw [total_ascending] at hlow hhigh
    exact ⟨by simpa using hlow, by simpa using hhigh⟩
  · rintro ⟨hlow, hhigh⟩
    refine ⟨_, _, rfl, ?_, ?_⟩ <;> rw [total_ascending] <;> omega

theorem precedes_of_mem_before {o : Entry} (h : o ∈ entriesBefore front e back) :
    Precedes (ascending (front ++ e :: back)) o.version.val e.version.val := by
  rw [ascending_split]
  exact ⟨_, _, rfl, ⟨o, mem_ascending.mpr h, rfl⟩, e, List.mem_cons_self, rfl⟩

theorem precedes_of_mem_after {o : Entry} (h : o ∈ entriesAfter front e back) :
    Precedes (ascending (front ++ e :: back)) e.version.val o.version.val := by
  rw [ascending_split, ← List.singleton_append, ← List.append_assoc]
  exact ⟨_, _, rfl, ⟨e, by simp, rfl⟩, o, mem_ascending.mpr h, rfl⟩

end

/-! ### Overtaking -/

/-- From one order to the next a version drops behind one that came after it. -/
def Overtakes (sorted sorted' : List Entry) (version : String) : Prop :=
  ∃ other, Precedes sorted version other ∧ Precedes sorted' other version

namespace Valid

variable {entries front back : List Entry} {e o : Entry}

theorem eq_of_version (h : Valid entries) (ho : o ∈ entries) (he : e ∈ entries)
    (hversion : o.version.val = e.version.val) : o = e :=
  List.inj_on_of_nodup_map h.distinct ho he hversion

theorem not_mem_of_split (h : Valid (front ++ e :: back)) : e ∉ front ∧ e ∉ back := by
  have hnodup : (front ++ e :: back).Nodup := h.distinct.of_map _
  rw [List.nodup_middle, List.nodup_cons, List.mem_append, not_or] at hnodup
  exact hnodup.1

theorem exists_before_of_precedes (h : Valid (front ++ e :: back)) {other : String}
    (hbefore : Precedes (ascending (front ++ e :: back)) other e.version.val) :
    ∃ o ∈ entriesBefore front e back, o.version.val = other := by
  obtain ⟨before, after, hsplit, ⟨o, ho, hother⟩, e', he', hversion⟩ := hbefore
  have hmem : e' ∈ front ++ e :: back := mem_ascending.mp (hsplit ▸ List.mem_append_right before he')
  obtain rfl := h.eq_of_version hmem (by simp) hversion
  obtain ⟨between, rest, rfl⟩ := List.append_of_mem he'
  rw [ascending_split, ← List.append_assoc] at hsplit
  -- The entry stands at one place of the order alone, so what is before it in one split is so in the other.
  have hnotBefore : e' ∉ ascending (entriesBefore front e' back) := by simp [mem_entriesBefore, h.not_mem_of_split]
  have hnotAfter : e' ∉ ascending (entriesAfter front e' back) := by simp [mem_entriesAfter, h.not_mem_of_split]
  obtain ⟨hfront, -⟩ := (List.append_cons_inj_of_notMem hnotBefore hnotAfter).mp hsplit
  refine ⟨o, mem_ascending.mp ?_, hother⟩
  rw [hfront]
  exact List.mem_append_left _ ho

end Valid

namespace RampedAt

variable {front back front' back' : List Entry} {e r : Entry}

/-- What is past the ramped version was past it before, so its last draw does not come sooner. -/
theorem total_after_le (h : RampedAt front e back front' r back') :
    total (entriesAfter front' r back') ≤ total (entriesAfter front e back) := by
  obtain ⟨-, hup, hfront, hback⟩ := h
  unfold entriesAfter
  rw [total_append, total_append]
  refine Nat.add_le_add (hfront.total_filter_le fun i a b ha hb hpast => ?_)
    (hback.total_filter_le fun i a b ha hb hpast => ?_)
  · have hle := hfront.share_le i a b ha hb
    rw [decide_eq_true_eq] at hpast ⊢
    omega
  · have hle := hback.share_le i a b ha hb
    rw [decide_eq_true_eq] at hpast ⊢
    omega

/-- Without overtaking, what is before the ramped version was before it already, so its first draw does not come
    later. -/
theorem total_before_le (h : RampedAt front e back front' r back')
    (hno : ¬Overtakes (ascending (front ++ e :: back)) (ascending (front' ++ r :: back')) e.version.val) :
    total (entriesBefore front' r back') ≤ total (entriesBefore front e back) := by
  obtain ⟨hversion, -, hfront, hback⟩ := h
  have hbehind : ∀ a b, b.version.val = a.version.val → b ∈ entriesBefore front' r back' →
      a ∉ entriesAfter front e back := by
    intro a b hab hb ha
    refine hno ⟨a.version.val, precedes_of_mem_after ha, ?_⟩
    rw [← hab, ← hversion]
    exact precedes_of_mem_before hb
  unfold entriesBefore
  rw [total_append, total_append]
  refine Nat.add_le_add (hfront.total_filter_le fun i a b ha hb hbefore => ?_)
    (hback.total_filter_le fun i a b ha hb hbefore => ?_)
  · refine decide_eq_true (Nat.not_lt.mp fun hlt => hbehind a b (hfront.version_eq i a b ha hb) ?_ ?_)
    · exact mem_entriesBefore.mpr (.inl ⟨List.mem_of_getElem? hb, of_decide_eq_true hbefore⟩)
    · exact mem_entriesAfter.mpr (.inl ⟨List.mem_of_getElem? ha, hlt⟩)
  · refine decide_eq_true (Nat.not_le.mp fun hle => hbehind a b (hback.version_eq i a b ha hb) ?_ ?_)
    · exact mem_entriesBefore.mpr (.inr ⟨List.mem_of_getElem? hb, of_decide_eq_true hbefore⟩)
    · exact mem_entriesAfter.mpr (.inr ⟨List.mem_of_getElem? ha, hle⟩)

theorem covering? (h : RampedAt front e back front' r back') (hvalid : Valid (front ++ e :: back))
    (hvalid' : Valid (front' ++ r :: back'))
    (hno : ¬Overtakes (ascending (front ++ e :: back)) (ascending (front' ++ r :: back')) e.version.val) {draw : Int}
    (hdraw : 0 < draw) (hcovering : ImageRollout.covering? (front ++ e :: back) draw = some e) :
    ImageRollout.covering? (front' ++ r :: back') draw = some r := by
  obtain ⟨hlow, hhigh⟩ := (covering?_split hvalid.not_mem_of_split.1 hvalid.not_mem_of_split.2 hdraw).mp hcovering
  refine (covering?_split hvalid'.not_mem_of_split.1 hvalid'.not_mem_of_split.2 hdraw).mpr ?_
  have hbefore := h.total_before_le hno
  have hafter := h.total_after_le
  have htotal := (total_split front e back).symm.trans hvalid.full
  have htotal' := (total_split front' r back').symm.trans hvalid'.full
  omega

/-- What was before the ramped version stays before it. -/
theorem precedes (h : RampedAt front e back front' r back') (hvalid : Valid (front ++ e :: back)) {other : String}
    (hbefore : Precedes (ascending (front ++ e :: back)) other e.version.val) :
    Precedes (ascending (front' ++ r :: back')) other e.version.val := by
  obtain ⟨hversion, hup, hfront, hback⟩ := h
  obtain ⟨o, ho, rfl⟩ := hvalid.exists_before_of_precedes hbefore
  rw [← hversion]
  rcases mem_entriesBefore.mp ho with ⟨hmem, hle⟩ | ⟨hmem, hlt⟩
  · obtain ⟨i, b, ha, hb⟩ := hfront.exists_getElem? hmem
    have hshare := hfront.share_le i o b ha hb
    rw [← hfront.version_eq i o b ha hb]
    exact precedes_of_mem_before (mem_entriesBefore.mpr (.inl ⟨List.mem_of_getElem? hb, by omega⟩))
  · obtain ⟨i, b, ha, hb⟩ := hback.exists_getElem? hmem
    have hshare := hback.share_le i o b ha hb
    rw [← hback.version_eq i o b ha hb]
    exact precedes_of_mem_before (mem_entriesBefore.mpr (.inr ⟨List.mem_of_getElem? hb, by omega⟩))

end RampedAt

/-! ### Selection -/

theorem select_eq_ok_some_iff {entries : List Entry} {draw : Int} {e : Entry} :
    select entries draw = .ok (some e) ↔ Draw.isValid draw = true ∧ covering? entries draw = some e := by
  cases h : Draw.isValid draw with
  | true => simp [select_of_isValid h]
  | false => simp [select_of_not_isValid h]

theorem Selects.eq {entries : List Entry} {draw : Int} {version other : String} (h : Selects entries draw version)
    (h' : Selects entries draw other) : version = other := by
  obtain ⟨e, he, rfl⟩ := h
  obtain ⟨o, ho, rfl⟩ := h'
  rw [Option.some.inj (Except.ok.inj (he.symm.trans ho))]

section

variable {entries ramped : List Entry} {place : Nat} {version : String} (hvalid : Valid entries)
  (h : Ramped entries ramped place) (hplace : (entries.map fun e => e.version.val)[place]? = some version)

include hvalid h hplace

theorem Ramped.precedes {other : String} (hbefore : Precedes (ascending entries) other version) :
    Precedes (ascending ramped) other version := by
  obtain ⟨front, e, back, front', r, back', rfl, rfl, rfl, hat⟩ := h.split hplace
  exact hat.precedes hvalid hbefore

/-- Without overtaking, the ramped version keeps its draws. -/
theorem Ramped.selects (hvalid' : Valid ramped) (hno : ¬Overtakes (ascending entries) (ascending ramped) version)
    {draw : Int} (hselects : Selects entries draw version) : Selects ramped draw version := by
  obtain ⟨front, e, back, front', r, back', rfl, rfl, rfl, hat⟩ := h.split hplace
  obtain ⟨o, hselect, hversion⟩ := hselects
  obtain ⟨hdraw, hcovering⟩ := select_eq_ok_some_iff.mp hselect
  obtain rfl := hvalid.eq_of_version (covering?_mem hcovering).1 (by simp) hversion
  have hpos : 0 < draw := (Draw.isValid_iff.mp hdraw).1
  exact ⟨r, select_eq_ok_some_iff.mpr ⟨hdraw, hat.covering? hvalid hvalid' hno hpos hcovering⟩, hat.version_eq⟩

end

end ImageRollout
