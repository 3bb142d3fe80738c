import ImageRollout.Proofs.Plan.Order

/-! The position that a draw falls to. In the stable order of the shares a draw lies past the shares before
    exactly one position and not past those up to it, as far as the shares reach (`FallsAt`), and
    selection gives the entry there. The spans of the entries tile the draws from 1 to the total. -/

namespace ImageRollout

/-! ### Running totals -/

theorem total_take_le (entries : List Entry) {i j : Nat} (h : i ≤ j) :
    total (entries.take i) ≤ total (entries.take j) := by
  obtain ⟨more, hmore⟩ := (List.take_prefix_take_left h : entries.take i <+: entries.take j)
  rw [← hmore, total_append]
  exact Nat.le_add_right _ _

theorem total_take_succ {entries : List Entry} {i : Nat} {e : Entry} (h : entries[i]? = some e) :
    total (entries.take (i + 1)) = total (entries.take i) + e.share.val := by
  rw [List.take_add_one, h, total_append]
  rfl

theorem total_take_le_total (entries : List Entry) (i : Nat) : total (entries.take i) ≤ total entries := by
  have hsplit := total_append (entries.take i) (entries.drop i)
  rw [List.take_append_drop] at hsplit
  omega

/-- A draw lies past the shares before a position, and not past the shares up to it. -/
def FallsAt (sorted : List Entry) (draw : Int) (i : Nat) : Prop :=
  (total (sorted.take i) : Int) < draw ∧ draw ≤ total (sorted.take (i + 1))

namespace FallsAt

variable {sorted : List Entry} {draw : Int} {i j : Nat}

theorem not_lt (h : FallsAt sorted draw i) (h' : FallsAt sorted draw j) : ¬i < j := fun hlt => by
  have hle := total_take_le sorted (show i + 1 ≤ j from hlt)
  have hlow := h'.1
  have hhigh := h.2
  omega

theorem eq (h : FallsAt sorted draw i) (h' : FallsAt sorted draw j) : i = j :=
  Nat.le_antisymm (Nat.not_lt.mp (h'.not_lt h)) (Nat.not_lt.mp (h.not_lt h'))

end FallsAt

/-- The entry that a draw falls to is the one at the position that it falls to. -/
theorem covering?_eq_some_iff {entries : List Entry} {draw : Int} {e : Entry} (hdraw : 0 < draw) :
    covering? entries draw = some e ↔ ∃ i, (ascending entries)[i]? = some e ∧ FallsAt (ascending entries) draw i := by
  rw [covering?_eq_coveringFrom?, coveringFrom?_eq_some_iff (by simpa using hdraw)]
  constructor
  · rintro ⟨before, after, hsplit, hlow, hhigh⟩
    have hat : (ascending entries)[before.length]? = some e := by simp [hsplit]
    have hbefore : (ascending entries).take before.length = before := by simp [hsplit]
    refine ⟨before.length, hat, ?_, ?_⟩
    · rw [hbefore]
      simpa using hlow
    · rw [total_take_succ hat, hbefore]
      simpa using hhigh
  · rintro ⟨i, hat, hlow, hhigh⟩
    rw [total_take_succ hat] at hhigh
    obtain ⟨hi, he⟩ := List.getElem?_eq_some_iff.mp hat
    refine ⟨(ascending entries).take i, (ascending entries).drop (i + 1), ?_, by simpa using hlow, by simpa using hhigh⟩
    rw [← he, List.getElem_cons_drop, List.take_append_drop]

theorem exists_fallsAt {entries : List Entry} {draw : Int} (hlow : 1 ≤ draw) (hhigh : draw ≤ total entries) :
    ∃ i e, (ascending entries)[i]? = some e ∧ FallsAt (ascending entries) draw i ∧ covering? entries draw = some e := by
  have hpos : 0 < draw := by omega
  obtain ⟨e, he⟩ := Option.isSome_iff_exists.mp ((isSome_covering? hpos).mpr hhigh)
  obtain ⟨i, hat, hfalls⟩ := (covering?_eq_some_iff hpos).mp he
  exact ⟨i, e, hat, hfalls, he⟩

/-- A draw falls to an entry of a plan: in the stable order it falls to the position of the entry. -/
def FallsTo (entries : List Entry) (draw : Int) (e : Entry) : Prop :=
  ∃ sorted, StableOrder sorted entries ∧ ∃ i, sorted[i]? = some e ∧ FallsAt sorted draw i

theorem covering?_eq_some_iff_fallsTo {entries : List Entry} {draw : Int} {e : Entry} (hdraw : 0 < draw) :
    covering? entries draw = some e ↔ FallsTo entries draw e := by
  rw [covering?_eq_some_iff hdraw]
  constructor
  · rintro ⟨i, hat, hfalls⟩
    exact ⟨ascending entries, stableOrder_ascending entries, i, hat, hfalls⟩
  · rintro ⟨sorted, hsorted, i, hat, hfalls⟩
    obtain rfl := hsorted.eq (stableOrder_ascending entries)
    exact ⟨i, hat, hfalls⟩

/-! ### Spans -/

theorem getElem?_spansFrom (covered : Nat) (entries : List Entry) (i : Nat) :
    (spansFrom covered entries)[i]? = entries[i]?.map fun e =>
      ⟨e, covered + total (entries.take i) + 1, covered + total (entries.take (i + 1))⟩ := by
  -- What is covered grows by each share that a position lies past.
  induction entries generalizing covered i with
  | nil => rfl
  | cons first rest ih =>
    cases i with
    | zero => simp [spansFrom]
    | succ i =>
      rw [spansFrom, List.getElem?_cons_succ, ih]
      simp only [List.getElem?_cons_succ, List.take_succ_cons, total_cons, Nat.add_assoc]

/-- The span at a position: its entry, after the shares before it. -/
theorem getElem?_spans {entries : List Entry} {i : Nat} {s : Span} :
    (spans entries)[i]? = some s ↔ (ascending entries)[i]? = some s.entry ∧
      s.low = total ((ascending entries).take i) + 1 ∧ s.high = total ((ascending entries).take (i + 1)) := by
  unfold spans
  rw [getElem?_spansFrom, Option.map_eq_some_iff]
  constructor
  · rintro ⟨e, he, rfl⟩
    simp [he]
  · rintro ⟨he, hlow, hhigh⟩
    refine ⟨s.entry, he, ?_⟩
    cases s
    simp_all

theorem map_entry_spans (entries : List Entry) : (spans entries).map Span.entry = ascending entries := by
  refine List.ext_getElem? fun i => ?_
  unfold spans
  rw [List.getElem?_map, getElem?_spansFrom, Option.map_map]
  exact Option.map_id_apply

/-- Spans lie one after the other from the first draw on, each as long as the share of its entry. -/
structure Tiling (spans : List Span) (entries : List Entry) : Prop where
  entries_perm : (spans.map Span.entry).Perm entries
  width : ∀ s ∈ spans, s.low + s.entry.share.val = s.high + 1
  first : ∀ s, spans[0]? = some s → s.low = 1
  next : ∀ i s t, spans[i]? = some s → spans[i + 1]? = some t → t.low = s.high + 1
  disjoint : ∀ (i j : Nat) (s t : Span), i < j → spans[i]? = some s → spans[j]? = some t → s.high < t.low
  covers : ∀ draw : Int, (∃ s ∈ spans, s.low ≤ draw ∧ draw ≤ s.high) ↔ 1 ≤ draw ∧ draw ≤ total entries

theorem tiling_spans (entries : List Entry) : Tiling (spans entries) entries where
  entries_perm := by
    rw [map_entry_spans]
    exact ascending_perm entries
  width s hs := by
    obtain ⟨i, hi⟩ := List.mem_iff_getElem?.mp hs
    obtain ⟨hat, hlow, hhigh⟩ := getElem?_spans.mp hi
    rw [hlow, hhigh, total_take_succ hat]
    omega
  first s hs := by
    obtain ⟨-, hlow, -⟩ := getElem?_spans.mp hs
    simpa using hlow
  next i s t hs ht := by
    obtain ⟨-, -, hhigh⟩ := getElem?_spans.mp hs
    obtain ⟨-, hlow, -⟩ := getElem?_spans.mp ht
    rw [hlow, hhigh]
  disjoint i j s t hlt hs ht := by
    obtain ⟨-, -, hhigh⟩ := getElem?_spans.mp hs
    obtain ⟨-, hlow, -⟩ := getElem?_spans.mp ht
    have hle := total_take_le (ascending entries) (show i + 1 ≤ j from hlt)
    omega
  covers draw := by
    constructor
    · rintro ⟨s, hs, hlow, hhigh⟩
      obtain ⟨i, hi⟩ := List.mem_iff_getElem?.mp hs
      obtain ⟨-, hfrom, hto⟩ := getElem?_spans.mp hi
      have hle := total_take_le_total (ascending entries) (i + 1)
      rw [total_ascending] at hle
      omega
    · rintro ⟨hlow, hhigh⟩
      obtain ⟨i, e, hat, hfalls, -⟩ := exists_fallsAt hlow hhigh
      have hspan := getElem?_spans (s := ⟨e, _, _⟩).mpr ⟨hat, rfl, rfl⟩
      refine ⟨_, List.mem_of_getElem? hspan, ?_, ?_⟩
      · have hpast := hfalls.1
        push_cast
        omega
      · exact hfalls.2

/-! ### Selection -/

theorem select_of_not_isValid {entries : List Entry} {draw : Int} (h : Draw.isValid draw = false) :
    select entries draw = .error (.badDraw draw) := by
  simp [select, h]

/-- Selection refuses a number that is no draw. A draw gives the entry at the one position of the stable order that
    it falls to, and nothing exactly if it is past the total; the spans tile the draws up to the total. -/
theorem select_takes_position (entries : List Entry) :
    ∃ sorted, (∀ other, StableOrder other entries ↔ other = sorted) ∧ ascending entries = sorted ∧
      (∀ draw : Int, ¬(1 ≤ draw ∧ draw ≤ 100) → select entries draw = .error (.badDraw draw)) ∧
      (∀ draw : Int, 1 ≤ draw → draw ≤ 100 →
        (draw ≤ total entries → ∃ i e, sorted[i]? = some e ∧ FallsAt sorted draw i ∧
          (∀ j, FallsAt sorted draw j → j = i) ∧ select entries draw = .ok (some e)) ∧
        (select entries draw = .ok none ↔ total entries < draw)) ∧
      (spans entries).map Span.entry = sorted ∧ Tiling (spans entries) entries := by
  refine ⟨ascending entries, fun other => ⟨fun h => h.eq (stableOrder_ascending entries), ?_⟩, rfl,
    fun draw hdraw => ?_, fun draw hlow hhigh => ⟨fun hreach => ?_, ?_⟩, map_entry_spans entries, tiling_spans entries⟩
  · rintro rfl
    exact stableOrder_ascending entries
  · exact select_of_not_isValid (Bool.eq_false_iff.mpr fun hvalid => hdraw (Draw.isValid_iff.mp hvalid))
  · obtain ⟨i, e, hat, hfalls, hcovering⟩ := exists_fallsAt hlow hreach
    refine ⟨i, e, hat, hfalls, fun j hj => hj.eq hfalls, ?_⟩
    rw [select_of_isValid (Draw.isValid_iff.mpr ⟨hlow, hhigh⟩), hcovering]
  · rw [select_of_isValid (Draw.isValid_iff.mpr ⟨hlow, hhigh⟩), Except.ok.injEq, ← Option.not_isSome_iff_eq_none,
      isSome_covering? (by omega)]
    exact Int.not_le

/-- A plan that no check has seen: each version comes twice, first as an unstable one, and the shares are too many. -/
def uncheckedPlan : Plan :=
  { samplePlan with entries := distrusted samplePlan.entries ++ samplePlan.entries }

theorem total_uncheckedPlan : total uncheckedPlan.entries = 200 := rfl

theorem stableOrder_uncheckedPlan : StableOrder
    [uncheckedPlan.entries[0], uncheckedPlan.entries[3], uncheckedPlan.entries[2], uncheckedPlan.entries[5],
      uncheckedPlan.entries[1], uncheckedPlan.entries[4]] uncheckedPlan.entries := by
  refine .of_stable (by decide) fun share => ?_
  by_cases hshare : share = 0 ∨ share = 40 ∨ share = 60
  · rcases hshare with rfl | rfl | rfl <;> rfl
  · have hother : ∀ {l : List Entry}, (∀ e ∈ l, e.share.val = 0 ∨ e.share.val = 40 ∨ e.share.val = 60) →
        (l.filter fun e => e.share.val = share) = [] := fun h =>
      List.filter_eq_nil_iff.mpr fun e he heq => hshare (of_decide_eq_true heq ▸ h e he)
    rw [hother (by decide), hother (by decide)]

/-- Of the two entries with the same share the one that stands further back takes the draws 41 to 80. -/
theorem select_takes_position_sample :
    select uncheckedPlan.entries 45 = .ok (some uncheckedPlan.entries[5]) ∧
      select uncheckedPlan.entries 101 = .error (.badDraw 101) := by
  obtain ⟨sorted, horder, -, hrefused, hdraws, -, -⟩ := select_takes_position uncheckedPlan.entries
  obtain rfl := (horder _).mp stableOrder_uncheckedPlan
  obtain ⟨hfound, -⟩ := hdraws 45 (by decide) (by decide)
  obtain ⟨i, e, hat, -, hunique, hselect⟩ := hfound (by rw [total_uncheckedPlan]; omega)
  obtain rfl := hunique 3 ⟨show ((40 : Nat) : Int) < 45 by omega, show (45 : Int) ≤ (80 : Nat) by omega⟩
  obtain rfl := Option.some.inj hat
  exact ⟨hselect, hrefused 101 (by decide)⟩

end ImageRollout
