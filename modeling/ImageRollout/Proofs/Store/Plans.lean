import ImageRollout.Proofs.Names
import ImageRollout.Proofs.Resolution.Integrity
import ImageRollout.Store.Writer

/-! The plans of a store. They are in order if each image type has at most one active plan, every plan
    passes the check, the inactive ones too, and its image type is registered. Reading the active plan
    of a type and fetching the plans of many types then tell the same. -/

namespace ImageRollout

/-! ### One active record for each type -/

section

variable {α β : Type} {typeOf : α → String} {isActive : α → Bool} {records : List α}

/-- Of the records of one type at most one is active. -/
def OneActive (typeOf : α → String) (isActive : α → Bool) (records : List α) : Prop :=
  records.Pairwise fun p q => isActive p → isActive q → typeOf p ≠ typeOf q

theorem OneActive.map {typeOf' : β → String} {isActive' : β → Bool} (h : OneActive typeOf isActive records) {f : α → β}
    (htype : ∀ p, typeOf' (f p) = typeOf p) (hactive : ∀ p, isActive' (f p) → isActive p) :
    OneActive typeOf' isActive' (records.map f) := by
  refine List.pairwise_map.mpr (h.imp fun {p q} hpq hp hq => ?_)
  rw [htype, htype]
  exact hpq (hactive p hp) (hactive q hq)

/-- The types may be told in another way. -/
theorem OneActive.congr {typeOf' : α → String} (h : OneActive typeOf isActive records)
    (htype : ∀ p ∈ records, typeOf' p = typeOf p) : OneActive typeOf' isActive records := by
  refine List.Pairwise.imp_of_mem (fun {p q} hp hq hpq hpa hqa => ?_) h
  rw [htype p hp, htype q hq]
  exact hpq hpa hqa

/-- A new record comes after the others; if it is active, no other one of its type may be. -/
theorem OneActive.concat (h : OneActive typeOf isActive records) {new : α}
    (hnew : isActive new → ∀ p ∈ records, isActive p → typeOf p ≠ typeOf new) :
    OneActive typeOf isActive (records ++ [new]) := by
  refine List.pairwise_append.mpr ⟨h, List.pairwise_singleton _ _, fun p hp q hq hpa hqa => ?_⟩
  obtain rfl := List.mem_singleton.mp hq
  exact hnew hqa p hp hpa

theorem OneActive.eq_of_mem (h : OneActive typeOf isActive records) {p q : α} (hp : p ∈ records) (hq : q ∈ records)
    (hpa : isActive p) (hqa : isActive q) (htype : typeOf p = typeOf q) : p = q := by
  induction records with
  | nil => cases hp
  | cons first rest ih =>
    obtain ⟨hfirst, hrest⟩ := List.pairwise_cons.mp h
    rcases List.mem_cons.mp hp with rfl | hpr <;> rcases List.mem_cons.mp hq with rfl | hqr
    · rfl
    · exact absurd htype (hfirst q hqr hpa hqa)
    · exact absurd htype.symm (hfirst p hpr hqa hpa)
    · exact ih hrest hpr hqr

theorem OneActive.length_le_one (h : OneActive typeOf isActive records) (imageType : String) :
    (records.filter fun p => typeOf p = imageType ∧ isActive p).length ≤ 1 := by
  have hpair := h.sublist (List.filter_sublist (p := fun p => decide (typeOf p = imageType ∧ isActive p)))
  have hmem : ∀ p ∈ records.filter fun p => typeOf p = imageType ∧ isActive p, typeOf p = imageType ∧ isActive p :=
    fun p hp => of_decide_eq_true (List.mem_filter.mp hp).2
  generalize records.filter (fun p => decide (typeOf p = imageType ∧ isActive p)) = found at hpair hmem
  match found with
  | [] => exact Nat.zero_le _
  | [_] => exact Nat.le_refl _
  | p :: q :: rest =>
    obtain ⟨hp, hpa⟩ := hmem p List.mem_cons_self
    obtain ⟨hq, hqa⟩ := hmem q (List.mem_cons_of_mem _ List.mem_cons_self)
    exact absurd (hp.trans hq.symm) (List.rel_of_pairwise_cons hpair List.mem_cons_self hpa hqa)

end

/-- What is found is the only thing that can be. -/
theorem find?_eq_some_of_unique {α : Type} {p : α → Bool} {items : List α} {a : α} (hmem : a ∈ items) (ha : p a)
    (hunique : ∀ b ∈ items, p b → b = a) : items.find? p = some a := by
  cases hfind : items.find? p with
  | none => exact absurd ha (List.find?_eq_none.mp hfind a hmem)
  | some b => rw [hunique b (List.mem_of_find?_eq_some hfind) (List.find?_some hfind)]

/-! ### Plans in order -/

/-- The active plan of an image type among plans. -/
def activeIn (plans : List Plan) (imageType : String) : Option Plan :=
  plans.find? fun p => p.imageType = imageType ∧ p.active

/-- What the plans of a store satisfy. -/
structure InOrder (isType : String → Prop) (plans : List Plan) : Prop where
  single : ∀ imageType, (plans.filter fun p => p.imageType = imageType ∧ p.active).length ≤ 1
  accepted : ∀ p ∈ plans, checkPlan p.entries = .ok ()
  registered : ∀ p ∈ plans, isType p.imageType

/-- An answer that has the active plans of the types that were asked for, and nothing else. -/
def PlanAnswer.Of (plans : List Plan) (imageTypes : List String) (answer : PlanAnswer) : Prop :=
  ∀ imageType, answer.lookup imageType =
    if imageType ∈ imageTypes then (activeIn plans imageType).map some else none

/-- A store that tells its active plans, one by one and many at once. -/
structure Reads {σ : Type} (writer : PlanWriter σ) (source : Source σ) (s : σ) (plans : List Plan) : Prop where
  one : ∀ imageType, ((writer.activePlan? imageType).run s).result = .ok (activeIn plans imageType)
  many : ∀ imageTypes, ∃ answer : PlanAnswer,
    ((source.activePlans imageTypes).run s).result = .ok (.answered answer) ∧ answer.Of plans imageTypes

theorem PlanAnswer.Of.plan?_eq {plans : List Plan} {imageTypes : List String} {answer : PlanAnswer}
    (h : answer.Of plans imageTypes) (imageType : String) :
    answer.plan? imageType = if imageType ∈ imageTypes then activeIn plans imageType else none := by
  unfold PlanAnswer.plan?
  rw [h imageType]
  split
  · cases activeIn plans imageType <;> rfl
  · rfl

theorem PlanAnswer.Of.sound {plans : List Plan} {imageTypes : List String} {answer : PlanAnswer}
    (h : answer.Of plans imageTypes) (haccepted : ∀ p ∈ plans, checkPlan p.entries = .ok ()) : answer.Sound := by
  intro imageType plan hplan
  rw [h.plan?_eq] at hplan
  split at hplan
  · exact haccepted plan (List.mem_of_find?_eq_some hplan)
  · cases hplan

end ImageRollout
