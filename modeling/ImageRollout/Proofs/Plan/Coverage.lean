import ImageRollout.Proofs.Plan.Validity
import ImageRollout.Resolution.Outcome

/-! How draws fall to the entries of a plan. The spans lie one after the other, so the entry of a draw is
    the one whose share takes the running total past it, and as many draws fall to some entries as
    their shares add up to. In a valid plan every draw falls to an entry that can be used, hence each
    version gets exactly its share of the one hundred draws. -/

namespace ImageRollout

/-! ### The entries in ascending order -/

theorem ascending_perm (entries : List Entry) : (ascending entries).Perm entries :=
  List.mergeSort_perm _ _

@[simp] theorem mem_ascending {e : Entry} {entries : List Entry} : e ∈ ascending entries ↔ e ∈ entries :=
  (ascending_perm entries).mem_iff

theorem total_ascending (entries : List Entry) : total (ascending entries) = total entries :=
  total_perm (ascending_perm entries)

theorem ascending_map {f : Entry → Entry} (hf : ∀ e, (f e).share = e.share) (entries : List Entry) :
    ascending (entries.map f) = (ascending entries).map f := by
  unfold ascending
  exact (List.map_mergeSort fun a _ b _ => by simp only [hf]).symm

/-! ### The entry that a draw falls to -/

/-- The entry that a draw falls to among entries in their order, after the draws that are covered already. -/
def coveringFrom? (covered : Nat) (entries : List Entry) (draw : Int) : Option Entry :=
  ((spansFrom covered entries).find? fun s => s.covers draw).map Span.entry

theorem covering?_eq_coveringFrom? (entries : List Entry) (draw : Int) :
    covering? entries draw = coveringFrom? 0 (ascending entries) draw := rfl

@[simp] theorem coveringFrom?_nil (covered : Nat) (draw : Int) : coveringFrom? covered [] draw = none := rfl

theorem coveringFrom?_cons (covered : Nat) (e : Entry) (rest : List Entry) (draw : Int) :
    coveringFrom? covered (e :: rest) draw =
      if (covered : Int) < draw ∧ draw ≤ covered + e.share.val then some e
      else coveringFrom? (covered + e.share.val) rest draw := by
  have hcov : (Span.covers ⟨e, covered + 1, covered + e.share.val⟩ draw) =
      decide ((covered : Int) < draw ∧ draw ≤ covered + e.share.val) := by
    unfold Span.covers
    exact decide_eq_decide.mpr (by push_cast; omega)
  unfold coveringFrom?
  rw [spansFrom, List.find?_cons, hcov]
  by_cases h : (covered : Int) < draw ∧ draw ≤ covered + e.share.val <;> simp [h]

/-- A draw falls to the entry whose share takes the total of the ones before it to the draw or past it. -/
theorem coveringFrom?_eq_some_iff {covered : Nat} {entries : List Entry} {draw : Int} {e : Entry}
    (hdraw : covered < draw) :
    coveringFrom? covered entries draw = some e ↔
      ∃ before after, entries = before ++ e :: after ∧
        (covered + total before : Int) < draw ∧ draw ≤ covered + total before + e.share.val := by
  -- Every share that the draw lies past adds to what is covered.
  induction entries generalizing covered with
  | nil => simp
  | cons first rest ih =>
    rw [coveringFrom?_cons]
    by_cases hfirst : draw ≤ covered + first.share.val
    · rw [ite_cond_eq_true _ _ (eq_true ⟨hdraw, hfirst⟩)]
      constructor
      · intro h
        obtain rfl := Option.some.inj h
        exact ⟨[], rest, rfl, by simpa using hdraw, by simpa using hfirst⟩
      · rintro ⟨before, after, hsplit, hlow, -⟩
        cases before with
        | nil => rw [(List.cons.inj hsplit).1]
        | cons b before =>
          obtain ⟨rfl, -⟩ := List.cons.inj hsplit
          simp only [total_cons] at hlow
          omega
    · rw [ite_cond_eq_false _ _ (eq_false fun h => hfirst h.2), ih (by push_cast; omega)]
      constructor
      · rintro ⟨before, after, rfl, hlow, hhigh⟩
        refine ⟨first :: before, after, rfl, ?_, ?_⟩ <;> simp only [total_cons] <;> push_cast at * <;> omega
      · rintro ⟨before, after, hsplit, hlow, hhigh⟩
        cases before with
        | nil =>
          obtain ⟨rfl, -⟩ := List.cons.inj hsplit
          simp only [total_nil] at hhigh
          omega
        | cons b before =>
          obtain ⟨rfl, hrest⟩ := List.cons.inj hsplit
          simp only [total_cons] at hlow hhigh
          refine ⟨before, after, hrest, ?_, ?_⟩ <;> push_cast at * <;> omega

theorem isSome_coveringFrom? {covered : Nat} {entries : List Entry} {draw : Int} (hdraw : covered < draw) :
    (coveringFrom? covered entries draw).isSome ↔ draw ≤ covered + total entries := by
  induction entries generalizing covered with
  | nil => simp; omega
  | cons first rest ih =>
    rw [coveringFrom?_cons, total_cons]
    by_cases hfirst : draw ≤ covered + first.share.val
    · rw [ite_cond_eq_true _ _ (eq_true ⟨hdraw, hfirst⟩)]
      simp only [Option.isSome_some, true_iff]
      push_cast
      omega
    · rw [ite_cond_eq_false _ _ (eq_false fun h => hfirst h.2), ih (by push_cast; omega)]
      push_cast
      omega

theorem coveringFrom?_mem {covered : Nat} {entries : List Entry} {draw : Int} {e : Entry}
    (h : coveringFrom? covered entries draw = some e) : e ∈ entries ∧ 0 < e.share.val := by
  induction entries generalizing covered with
  | nil => cases h
  | cons first rest ih =>
    rw [coveringFrom?_cons] at h
    split at h
    · rename_i hfirst
      obtain rfl := Option.some.inj h
      exact ⟨List.mem_cons_self, by omega⟩
    · obtain ⟨hmem, hpos⟩ := ih h
      exact ⟨List.mem_cons_of_mem _ hmem, hpos⟩

theorem covering?_mem {entries : List Entry} {draw : Int} {e : Entry} (h : covering? entries draw = some e) :
    e ∈ entries ∧ 0 < e.share.val := by
  obtain ⟨hmem, hpos⟩ := coveringFrom?_mem h
  exact ⟨mem_ascending.mp hmem, hpos⟩

theorem isSome_covering? {entries : List Entry} {draw : Int} (hdraw : 0 < draw) :
    (covering? entries draw).isSome ↔ draw ≤ total entries := by
  rw [covering?_eq_coveringFrom?, isSome_coveringFrom? hdraw, total_ascending]
  simp

theorem coveringFrom?_map {f : Entry → Entry} (hf : ∀ e, (f e).share = e.share) (covered : Nat)
    (entries : List Entry) (draw : Int) :
    coveringFrom? covered (entries.map f) draw = (coveringFrom? covered entries draw).map f := by
  induction entries generalizing covered with
  | nil => rfl
  | cons first rest ih =>
    rw [List.map_cons, coveringFrom?_cons, coveringFrom?_cons, hf, ih]
    split <;> rfl

theorem SameTerms.covering?_eq {entries others : List Entry} (h : SameTerms entries others) (draw : Int) :
    (covering? entries draw).map Entry.unsigned = (covering? others draw).map Entry.unsigned := by
  have hmap : ∀ l : List Entry, (covering? l draw).map Entry.unsigned = covering? (l.map Entry.unsigned) draw :=
    fun l => by
      rw [covering?_eq_coveringFrom?, covering?_eq_coveringFrom?, ascending_map Entry.unsigned_share,
        coveringFrom?_map Entry.unsigned_share]
  rw [hmap, hmap, h]

/-! ### Counting draws -/

/-- As many draws fall to the entries that satisfy a condition as their shares add up to. -/
theorem countP_coveringFrom? (p : Entry → Bool) (covered : Nat) (entries : List Entry) :
    ((List.range' (covered + 1) (total entries)).countP fun draw : Nat => (coveringFrom? covered entries draw).any p) =
      total (entries.filter p) := by
  induction entries generalizing covered with
  | nil => rfl
  | cons first rest ih =>
    -- The draws past `covered` are those of the share of `first`, then those of the rest.
    have hmine : ((List.range' (covered + 1) first.share.val).countP fun draw : Nat =>
        (coveringFrom? covered (first :: rest) draw).any p) = if p first then first.share.val else 0 := by
      have hfirst : ∀ draw ∈ List.range' (covered + 1) first.share.val,
          (coveringFrom? covered (first :: rest) draw).any p = p first := fun draw hdraw => by
        obtain ⟨hlow, hhigh⟩ := List.mem_range'_1.mp hdraw
        rw [coveringFrom?_cons, ite_cond_eq_true _ _ (eq_true (by omega))]
        rfl
      rw [List.countP_congr fun draw hdraw => by rw [hfirst draw hdraw]]
      cases p first <;> simp
    have hrest : ((List.range' (covered + first.share.val + 1) (total rest)).countP fun draw : Nat =>
        (coveringFrom? covered (first :: rest) draw).any p) = total (rest.filter p) := by
      rw [← ih]
      refine List.countP_congr fun draw hdraw => ?_
      obtain ⟨hlow, -⟩ := List.mem_range'_1.mp hdraw
      rw [coveringFrom?_cons, ite_cond_eq_false _ _ (eq_false (by omega))]
    have hsplit : List.range' (covered + 1) (total (first :: rest)) =
        List.range' (covered + 1) first.share.val ++ List.range' (covered + first.share.val + 1) (total rest) := by
      rw [total_cons, ← List.range'_append_1, Nat.add_right_comm]
    rw [hsplit, List.countP_append, hmine, hrest]
    cases hp : p first <;> simp [hp]

theorem countP_covering? (p : Entry → Bool) (entries : List Entry) :
    ((List.range' 1 (total entries)).countP fun draw : Nat => (covering? entries draw).any p) = total (entries.filter p) := by
  have hcount := countP_coveringFrom? p 0 (ascending entries)
  rw [total_ascending, total_perm ((ascending_perm entries).filter p)] at hcount
  exact hcount

/-- Of entries with distinct versions one alone has the version of an entry. -/
theorem filter_version {entries : List Entry} (h : (entries.map fun e => e.version.val).Nodup) {e : Entry}
    (he : e ∈ entries) : (entries.filter fun o => o.version.val = e.version.val) = [e] := by
  induction entries with
  | nil => cases he
  | cons first rest ih =>
    obtain ⟨hnew, hrest⟩ := List.nodup_cons.mp h
    have hne : ∀ o ∈ rest, o.version.val ≠ first.version.val := fun o ho heq =>
      hnew (List.mem_map.mpr ⟨o, ho, heq⟩)
    rcases List.mem_cons.mp he with rfl | he
    · have hnil : (rest.filter fun o => o.version.val = e.version.val) = [] :=
        List.filter_eq_nil_iff.mpr fun o ho => by simpa using hne o ho
      rw [List.filter_cons_of_pos (by simp), hnil]
    · rw [List.filter_cons_of_neg (by simpa using (hne e he).symm), ih hrest he]

/-! ### Valid plans -/

theorem Draw.isValid_iff {draw : Int} : Draw.isValid draw = true ↔ 1 ≤ draw ∧ draw ≤ 100 := by
  unfold Draw.isValid
  exact decide_eq_true_iff

theorem select_of_isValid {entries : List Entry} {draw : Int} (h : Draw.isValid draw = true) :
    select entries draw = .ok (covering? entries draw) := by
  simp [select, h]

/-- Every draw falls to an entry of a valid plan, and that entry can be used. -/
theorem Valid.judge_eq {entries : List Entry} (h : Valid entries) {draw : Int} (hdraw : Draw.isValid draw = true) :
    ∃ e ∈ entries, covering? entries draw = some e ∧ judge entries draw = .selected e draw := by
  obtain ⟨hlow, hhigh⟩ := Draw.isValid_iff.mp hdraw
  have hsome : (covering? entries draw).isSome := by
    rw [isSome_covering? (by omega), h.full]
    exact hhigh
  obtain ⟨e, he⟩ := Option.isSome_iff_exists.mp hsome
  obtain ⟨hmem, hpos⟩ := covering?_mem he
  have hstable : e.stability ≠ .unstable := fun hu => by
    have := h.unstable e hmem hu
    omega
  refine ⟨e, hmem, he, ?_⟩
  unfold judge
  rw [select_of_isValid hdraw, he]
  simp [hstable, Nat.pos_iff_ne_zero.mp hpos]

theorem resolve_eq_judge (imageType : String) (plan : Plan) (strategy : Strategy) (g : Generator) :
    resolve imageType (some plan) (some strategy) g =
      (judge plan.entries (strategy.draw imageType g).1, (strategy.draw imageType g).2) := rfl

/-- Of the one hundred draws, a valid plan gives each of its versions as many as the version's share, and
    every draw gives the version of exactly one entry; none shows the plan to be corrupt. -/
theorem draws_follow_shares {plan : Plan} (h : checkPlan plan.entries = .ok ()) (imageType : String) (g : Generator) :
    (∀ e ∈ plan.entries,
      ((List.range' 1 100).countP fun draw : Nat =>
        (resolve imageType (some plan) (some (.assigned fun _ => (draw : Int))) g).1.version? = some e.version.val) =
          e.share.val) ∧
    ∀ strategy : Strategy, 1 ≤ (strategy.draw imageType g).1 → (strategy.draw imageType g).1 ≤ 100 →
      (∃ e ∈ plan.entries,
        (resolve imageType (some plan) (some strategy) g).1.version? = some e.version.val ∧
          ∀ o ∈ plan.entries,
            (resolve imageType (some plan) (some strategy) g).1.version? = some o.version.val → o = e) ∧
      (resolve imageType (some plan) (some strategy) g).1.violation? = none := by
  have hvalid := checkPlan_eq_ok_iff.mp h
  refine ⟨fun e he => ?_, fun strategy hlow hhigh => ?_⟩
  · have hversion : ∀ draw ∈ List.range' 1 100,
        decide ((resolve imageType (some plan) (some (.assigned fun _ => (draw : Int))) g).1.version? =
          some e.version.val) = (covering? plan.entries draw).any fun o => o.version.val = e.version.val := by
      intro draw hdraw
      obtain ⟨hlow, hhigh⟩ := List.mem_range'_1.mp hdraw
      have hin : Draw.isValid draw = true := Draw.isValid_iff.mpr (by omega)
      obtain ⟨o, -, hcov, hjudge⟩ := hvalid.judge_eq hin
      have hresolve : (resolve imageType (some plan) (some (.assigned fun _ => (draw : Int))) g).1 =
          .selected o draw := hjudge
      rw [hresolve, hcov]
      simp [Outcome.version?]
    rw [List.countP_congr fun draw hdraw => by rw [hversion draw hdraw]]
    have hcount := countP_covering? (fun o => o.version.val = e.version.val) plan.entries
    rw [hvalid.full] at hcount
    rw [hcount, filter_version hvalid.distinct he, total_cons, total_nil, Nat.add_zero]
  · obtain ⟨e, he, -, hjudge⟩ := hvalid.judge_eq (Draw.isValid_iff.mpr ⟨hlow, hhigh⟩)
    rw [resolve_eq_judge, hjudge]
    refine ⟨⟨e, he, rfl, fun o ho heq => ?_⟩, rfl⟩
    have hsame : o ∈ plan.entries.filter fun o => o.version.val = e.version.val :=
      List.mem_filter.mpr ⟨ho, by simpa [Outcome.version?] using heq.symm⟩
    rw [filter_version hvalid.distinct he] at hsame
    exact List.mem_singleton.mp hsame

theorem draws_follow_shares_sample :
    checkPlan samplePlan.entries = .ok () ∧
      ((List.range' 1 100).countP fun draw : Nat =>
        (resolve "spark" (some samplePlan) (some (.assigned fun _ => (draw : Int))) ⟨[], 1⟩).1.version? = some "2.0") =
          60 := by
  have hcheck : checkPlan samplePlan.entries = .ok () := rfl
  obtain ⟨hcount, -⟩ := draws_follow_shares hcheck "spark" ⟨[], 1⟩
  exact ⟨hcheck, hcount _ (.tail _ (.head _))⟩

end ImageRollout
