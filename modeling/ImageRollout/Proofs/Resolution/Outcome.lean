import ImageRollout.Proofs.Plan.Position
import ImageRollout.Resolution.Survey

/-! What a draw makes of a stored plan, whether or not anyone has checked it. The version of the entry that
    the draw falls to is selected unless the entry is unstable. Otherwise the plan is corrupt: the draw
    is past the total, or it falls to an unstable entry. No draw falls to an entry without share. -/

namespace ImageRollout

theorem FallsTo.share_pos {entries : List Entry} {draw : Int} {e : Entry} (hdraw : 0 < draw)
    (h : FallsTo entries draw e) : 0 < e.share.val :=
  (covering?_mem ((covering?_eq_some_iff_fallsTo hdraw).mpr h)).2

theorem FallsTo.eq {entries : List Entry} {draw : Int} {e o : Entry} (hdraw : 0 < draw) (h : FallsTo entries draw e)
    (h' : FallsTo entries draw o) : e = o :=
  Option.some.inj (((covering?_eq_some_iff_fallsTo hdraw).mpr h).symm.trans ((covering?_eq_some_iff_fallsTo hdraw).mpr h'))

theorem not_fallsTo_of_total_lt {entries : List Entry} {draw : Int} (h : (total entries : Int) < draw) (e : Entry) :
    ¬FallsTo entries draw e := fun hfalls => by
  have hdraw : 0 < draw := by omega
  have hcovering := (covering?_eq_some_iff_fallsTo hdraw).mpr hfalls
  have hreach := (isSome_covering? hdraw).mp (Option.isSome_of_eq_some hcovering)
  omega

/-- What a draw makes of the entries: it is past their total, or it falls to one of them, whose stability decides. -/
inductive Judged (entries : List Entry) (draw : Int) : Outcome → Prop where
  | past (h : (total entries : Int) < draw) : Judged entries draw (.violated draw (.uncovered draw))
  | unstable {e : Entry} (h : FallsTo entries draw e) (hstability : e.stability = .unstable) :
      Judged entries draw (.violated draw (.unstable e.version.val))
  | usable {e : Entry} (h : FallsTo entries draw e) (hstability : e.stability ≠ .unstable) :
      Judged entries draw (.selected e draw)

theorem judged (entries : List Entry) {draw : Int} (h : Draw.isValid draw = true) :
    Judged entries draw (judge entries draw) := by
  have hdraw : 0 < draw := (Draw.isValid_iff.mp h).1
  unfold judge
  rw [select_of_isValid h]
  cases hcovering : covering? entries draw with
  | none =>
    refine .past (Int.not_le.mp fun hreach => ?_)
    have hsome := (isSome_covering? hdraw).mpr hreach
    simp [hcovering] at hsome
  | some e =>
    have hfalls := (covering?_eq_some_iff_fallsTo hdraw).mp hcovering
    have hshare : e.share.val ≠ 0 := Nat.pos_iff_ne_zero.mp (hfalls.share_pos hdraw)
    dsimp only
    rw [if_neg hshare]
    by_cases hstability : e.stability = .unstable
    · rw [if_pos hstability]
      exact .unstable hfalls hstability
    · rw [if_neg hstability]
      exact .usable hfalls hstability

namespace Judged

variable {entries : List Entry} {draw : Int} {outcome : Outcome}

theorem draw?_eq (h : Judged entries draw outcome) : outcome.draw? = some draw := by
  cases h <;> rfl

theorem version?_eq_some_iff (h : Judged entries draw outcome) (hdraw : 0 < draw) {version : String} :
    outcome.version? = some version ↔
      ∃ e, FallsTo entries draw e ∧ e.stability ≠ .unstable ∧ e.version.val = version := by
  cases h with
  | past h =>
    refine iff_of_false (fun hversion => nomatch hversion) ?_
    rintro ⟨e, he, -, -⟩
    exact not_fallsTo_of_total_lt h e he
  | unstable h hstability =>
    refine iff_of_false (fun hversion => nomatch hversion) ?_
    rintro ⟨e, he, hne, -⟩
    exact hne (he.eq hdraw h ▸ hstability)
  | usable h hstability =>
    constructor
    · intro hversion
      exact ⟨_, h, hstability, Option.some.inj hversion⟩
    · rintro ⟨e, he, -, rfl⟩
      rw [he.eq hdraw h]
      rfl

theorem of_version?_eq_none (h : Judged entries draw outcome) (hnone : outcome.version? = none) :
    (total entries < draw ∧ outcome = .violated draw (.uncovered draw)) ∨
      ∃ e, FallsTo entries draw e ∧ e.stability = .unstable ∧ outcome = .violated draw (.unstable e.version.val) := by
  cases h with
  | past h => exact .inl ⟨h, rfl⟩
  | unstable h hstability => exact .inr ⟨_, h, hstability, rfl⟩
  | usable h hstability => cases hnone

theorem ne_noShare (h : Judged entries draw outcome) (other : Int) (version : String) :
    outcome ≠ .violated other (.noShare version) := by
  rintro rfl
  cases h

end Judged

theorem judge_ne_noShare (entries : List Entry) (draw other : Int) (version : String) :
    judge entries draw ≠ .violated other (.noShare version) := by
  cases hvalid : Draw.isValid draw with
  | true => exact (judged entries hvalid).ne_noShare other version
  | false =>
    unfold judge
    rw [select_of_not_isValid hvalid]
    exact fun heq => nomatch heq

/-- With a plan the outcome tells the draw and the entry that it falls to, or why the plan is corrupt; that a
    selected entry has no share is never the reason. Without a plan there is no draw, nor need of a strategy. -/
theorem resolve_tells_covering (imageType : String) (plan : Plan) (strategy : Strategy) (g : Generator) :
    (∀ draw, (strategy.draw imageType g).1 = draw → 1 ≤ draw → draw ≤ 100 →
      ∃ outcome, resolve imageType (some plan) (some strategy) g = (outcome, (strategy.draw imageType g).2) ∧
        outcome.draw? = some draw ∧
        (∀ version, outcome.version? = some version ↔
          ∃ e, FallsTo plan.entries draw e ∧ e.stability ≠ .unstable ∧ e.version.val = version) ∧
        (∀ e, FallsTo plan.entries draw e → 0 < e.share.val) ∧
        (outcome.version? = none →
          (total plan.entries < draw ∧ outcome = .violated draw (.uncovered draw)) ∨
            ∃ e, FallsTo plan.entries draw e ∧ e.stability = .unstable ∧
              outcome = .violated draw (.unstable e.version.val))) ∧
    (∀ draw version, (resolve imageType (some plan) (some strategy) g).1 ≠ .violated draw (.noShare version)) ∧
    ∀ given : Option Strategy, resolve imageType none given g = (.noPlan, g) ∧
      Findings.asks [(imageType, (resolve imageType none given g).1)] = [] := by
  refine ⟨fun draw hstrategy hlow hhigh => ?_, fun draw version => judge_ne_noShare plan.entries _ draw version,
    fun given => by cases given <;> exact ⟨rfl, rfl⟩⟩
  have hdraw : 0 < draw := by omega
  have hjudged := judged plan.entries (Draw.isValid_iff.mpr ⟨hlow, hhigh⟩)
  exact ⟨judge plan.entries draw, by rw [resolve_eq_judge, hstrategy], hjudged.draw?_eq,
    fun version => hjudged.version?_eq_some_iff hdraw, fun e he => he.share_pos hdraw, hjudged.of_version?_eq_none⟩

theorem fallsTo_uncheckedPlan : FallsTo uncheckedPlan.entries 30 uncheckedPlan.entries[2] ∧
    FallsTo uncheckedPlan.entries 61 uncheckedPlan.entries[5] := by
  refine ⟨⟨_, stableOrder_uncheckedPlan, 2, rfl, ?_, ?_⟩, ⟨_, stableOrder_uncheckedPlan, 3, rfl, ?_, ?_⟩⟩
  · exact show ((0 : Nat) : Int) < 30 by omega
  · exact show (30 : Int) ≤ (40 : Nat) by omega
  · exact show ((40 : Nat) : Int) < 61 by omega
  · exact show (61 : Int) ≤ (80 : Nat) by omega

theorem resolve_tells_covering_sample :
    (resolve "spark" (some uncheckedPlan) (some (.assigned fun _ => 30)) ⟨[], 1⟩).1 = .violated 30 (.unstable "1.1") ∧
      (resolve "spark" (some uncheckedPlan) (some (.assigned fun _ => 61)) ⟨[], 1⟩).1.version? = some "1.1" := by
  obtain ⟨hcorrupt, -⟩ := resolve_tells_covering "spark" uncheckedPlan (.assigned fun _ => 30) ⟨[], 1⟩
  obtain ⟨hselected, -⟩ := resolve_tells_covering "spark" uncheckedPlan (.assigned fun _ => 61) ⟨[], 1⟩
  obtain ⟨hunstable, husable⟩ := fallsTo_uncheckedPlan
  constructor
  · obtain ⟨outcome, hresolve, -, hversion, -, hnone⟩ := hcorrupt 30 rfl (by decide) (by decide)
    have hunselected : outcome.version? = none := Option.eq_none_iff_forall_ne_some.mpr fun version h => by
      obtain ⟨e, he, hstability, -⟩ := (hversion version).mp h
      exact hstability (he.eq (by decide) hunstable ▸ rfl)
    rw [hresolve]
    rcases hnone hunselected with ⟨hpast, -⟩ | ⟨e, he, -, houtcome⟩
    · rw [total_uncheckedPlan] at hpast
      omega
    · rw [houtcome, he.eq (by decide) hunstable]
      rfl
  · obtain ⟨outcome, hresolve, -, hversion, -, -⟩ := hselected 61 rfl (by decide) (by decide)
    rw [hresolve]
    exact (hversion "1.1").mpr ⟨_, husable, by decide, rfl⟩

end ImageRollout
