import ImageRollout.Proofs.Operations

/-! The history of plans. A store only adds to its plans: none is removed and none changes its place. A
    plan that is inactive stays as it is for good. One that is active may get other entries, by an update
    of its type, or become inactive, by a new active plan of its type. -/

namespace ImageRollout

open ImageRollout.Action

/-! ### Lists that are added to -/

/-- A list that goes on from another one: every item has kept its place, and what became of it is as `R`
    says; new items come after them. -/
inductive Extended {α : Type} (R : α → α → Prop) : List α → List α → Prop where
  | added (new : List α) : Extended R [] new
  | kept {p q : α} {before after : List α} (head : R p q) (rest : Extended R before after) :
      Extended R (p :: before) (q :: after)

namespace Extended

variable {α β : Type} {R R' : α → α → Prop}

theorem map_append {rows : List β} {f g : β → α} (h : ∀ row ∈ rows, R (f row) (g row)) (new : List α) :
    Extended R (rows.map f) (rows.map g ++ new) := by
  induction rows with
  | nil => exact .added new
  | cons row rest ih => exact .kept (h row List.mem_cons_self) (ih fun r hr => h r (List.mem_cons_of_mem _ hr))

theorem map {rows : List β} {f g : β → α} (h : ∀ row ∈ rows, R (f row) (g row)) :
    Extended R (rows.map f) (rows.map g) := by
  have happend := map_append h []
  rwa [List.append_nil] at happend

theorem refl (h : ∀ p, R p p) (records : List α) : Extended R records records := by
  induction records with
  | nil => exact .added []
  | cons p rest ih => exact .kept (h p) ih

theorem trans (h : ∀ {p q r}, R p q → R q r → R p r) {first second third : List α} (h₁ : Extended R first second)
    (h₂ : Extended R second third) : Extended R first third := by
  induction h₁ generalizing third with
  | added new => exact .added third
  | kept head _ ih =>
    cases h₂ with
    | kept head' rest' => exact .kept (h head head') (ih rest')

theorem mono (h : ∀ {p q}, R p q → R' p q) {before after : List α} (hext : Extended R before after) :
    Extended R' before after := by
  induction hext with
  | added new => exact .added new
  | kept head _ ih => exact .kept (h head) ih

/-- What no item changes may be used to choose some of them. -/
theorem filter {choose : α → Bool} (h : ∀ {p q}, R p q → choose q = choose p) {before after : List α}
    (hext : Extended R before after) : Extended R (before.filter choose) (after.filter choose) := by
  induction hext with
  | added new => exact .added _
  | @kept p q before after head _ ih =>
    rw [List.filter_cons, List.filter_cons, h head]
    cases choose p with
    | false => exact ih
    | true => exact .kept head ih

end Extended

/-! ### Plans on record -/

/-- A plan as a store has it on record, with its entries, or with what is wrong with their rows. -/
structure PlanRecord where
  /-- The image type that the store has it under. -/
  key : String
  number : Nat
  imageType : String
  name : String
  active : Bool
  entries : Except (List Issue) (List Entry)

/-- What becomes of a plan in the long run. -/
structure Kept (p q : PlanRecord) : Prop where
  key : q.key = p.key
  number : q.number = p.number
  imageType : q.imageType = p.imageType
  name : q.name = p.name
  inactive : p.active = false → q = p

theorem Kept.refl (p : PlanRecord) : Kept p p :=
  ⟨rfl, rfl, rfl, rfl, fun _ => rfl⟩

theorem Kept.trans {p q r : PlanRecord} (h₁ : Kept p q) (h₂ : Kept q r) : Kept p r := by
  refine ⟨h₂.key.trans h₁.key, h₂.number.trans h₁.number, h₂.imageType.trans h₁.imageType, h₂.name.trans h₁.name, fun hp => ?_⟩
  obtain rfl := h₁.inactive hp
  exact h₂.inactive hp

/-- The plans that are under an image type. -/
def ofType (imageType : String) (records : List PlanRecord) : List PlanRecord :=
  records.filter fun p => p.key = imageType

theorem Extended.ofType {before after : List PlanRecord} (h : Extended Kept before after) (imageType : String) :
    Extended Kept (ofType imageType before) (ofType imageType after) :=
  h.filter fun hkept => by rw [hkept.key]

def StoredPlan.record (p : StoredPlan) : PlanRecord :=
  ⟨p.key, p.number, p.imageType, p.name, p.active, .ok p.entries⟩

def Memory.records (m : Memory) : List PlanRecord :=
  m.plans.map StoredPlan.record

def Tables.record (t : Tables) (row : PlanRow) : PlanRecord :=
  ⟨row.imageType, row.number, row.imageType, row.name, row.active, t.entries row.number⟩

def Tables.records (t : Tables) : List PlanRecord :=
  t.plans.map t.record

/-- What becomes of a plan in an operation that succeeds. `written` is the entry that a store keeps for one
    that it is given. -/
structure Moved (written : Option String → Entry → Entry) (op : Operation) (p q : PlanRecord) : Prop
    extends Kept p q where
  deactivated : p.active = true → q.active = false → op.activates? = some p.key ∧ q.entries = p.entries
  rewritten : q.entries ≠ p.entries →
    ∃ entries user, op.rewrites? = some (p.key, entries, user) ∧ q.entries = .ok (entries.map (written user))

/-- What becomes of the plans in an operation: where it fails, nothing. The one exception is a new plan that
    is stored and then refused when it is read again. -/
structure Operated (written : Option String → Entry → Entry) (op : Operation)
    (result : Except Failure (Option PlanId)) (before after : List PlanRecord) : Prop where
  succeeded : ∀ id, result = .ok id → Extended (Moved written op) before after
  failed : ∀ f, result = .error f → ¬f.IsUnread → after = before
  unread : ∀ f, result = .error f → f.IsUnread →
    Extended (fun p q => Moved written op p q ∧ q.entries = p.entries) before after

section

variable {written : Option String → Entry → Entry} {op : Operation}

theorem Moved.refl (p : PlanRecord) : Moved written op p p :=
  ⟨.refl p, fun hp hq => (Bool.eq_false_iff.mp hq hp).elim, fun h => absurd rfl h⟩

theorem Moved.deactivate {p : PlanRecord} (h : op.activates? = some p.key) :
    Moved written op p { p with active := false } where
  key := rfl
  number := rfl
  imageType := rfl
  name := rfl
  inactive hp := by rw [← hp]
  deactivated _ _ := ⟨h, rfl⟩
  rewritten hne := absurd rfl hne

theorem Moved.rewrite {p : PlanRecord} (hp : p.active = true) {entries : List Entry} {user : Option String}
    (h : op.rewrites? = some (p.key, entries, user)) :
    Moved written op p { p with entries := .ok (entries.map (written user)) } where
  key := rfl
  number := rfl
  imageType := rfl
  name := rfl
  inactive hq := absurd hp (Bool.eq_false_iff.mp hq)
  deactivated _ hq := absurd hp (Bool.eq_false_iff.mp hq)
  rewritten _ := ⟨entries, user, h, rfl⟩

theorem Operated.kept {result : Except Failure (Option PlanId)} {before after : List PlanRecord}
    (h : Operated written op result before after) : Extended Kept before after := by
  cases hresult : result with
  | ok id => exact (h.succeeded id hresult).mono Moved.toKept
  | error f =>
    by_cases hunread : f.IsUnread
    · exact (h.unread f hresult hunread).mono fun hmoved => hmoved.1.toKept
    · rw [h.failed f hresult hunread]
      exact .refl Kept.refl before

/-- An operation that makes a plan gives none other entries. -/
theorem Moved.entries_eq {p q : PlanRecord} {plan : NewPlan} (h : Moved written op p q) (hop : op.adds? = some plan) :
    q.entries = p.entries := by
  by_contra hne
  obtain ⟨entries, user, hrewrites, -⟩ := h.rewritten hne
  rw [Operation.rewrites?_of_adds hop] at hrewrites
  cases hrewrites

end

/-! ### One operation in memory -/

namespace Memory

variable {m m' : Memory} {op : Operation}

theorem extended_withPlan {plan : NewPlan} (hop : op.adds? = some plan) :
    Extended (Moved (fun _ e => e) op) m.records (m.withPlan plan).records := by
  unfold withPlan records
  by_cases hactivate : plan.activate = true
  · have hactivates := Operation.activates?_of_adds hop hactivate
    rw [if_pos hactivate]
    unfold addPlan deactivate
    rw [List.map_append, List.map_map]
    refine .map_append (fun p _ => ?_) _
    rw [Function.comp_apply]
    split
    · rename_i htype
      exact .deactivate (p := p.record) (hactivates.trans (congrArg some htype.symm))
    · exact .refl _
  · rw [if_neg hactivate]
    unfold addPlan
    rw [List.map_append]
    exact .map_append (fun p _ => .refl _) _

theorem extended_replaceEntries {imageType : String} {entries : List Entry} {user : Option String}
    (hop : op.rewrites? = some (imageType, entries, user)) :
    Extended (Moved (fun _ e => e) op) m.records (m.replaceEntries imageType entries).records := by
  unfold replaceEntries records
  rw [List.map_map]
  refine .map fun p _ => ?_
  rw [Function.comp_apply]
  split
  · rename_i hp
    obtain ⟨rfl, hactive⟩ := hp
    have hmoved : Moved (fun _ e => e) op p.record { p.record with entries := .ok (_ : List Entry) } :=
      Moved.rewrite hactive hop
    rwa [List.map_id'] at hmoved
  · exact .refl _

theorem records_eq (h : m'.plans = m.plans) : m'.records = m.records :=
  congrArg (List.map StoredPlan.record) h

theorem Wrote.extended (h : Wrote op m m') : Extended (Moved (fun _ e => e) op) m.records m'.records := by
  cases h with
  | nothing h =>
    rw [records_eq h]
    exact .refl Moved.refl _
  | plan hop h =>
    subst h
    exact extended_withPlan hop
  | entries hop h =>
    subst h
    exact extended_replaceEntries hop

theorem operated (op : Operation) (m : Memory) :
    Operated (fun _ e => e) op (op.onMemory.run m).result m.records (op.onMemory.run m).state.records := by
  have hfailed : ∀ f, (op.onMemory.run m).result = .error f → (op.onMemory.run m).state.records = m.records :=
    fun f hf => records_eq ((ends_onMemory op m).failure f hf)
  refine ⟨fun _ _ => (wrote_onMemory op m).extended, fun f hf _ => hfailed f hf, fun f hf _ => ?_⟩
  rw [hfailed f hf]
  exact .refl (fun p => ⟨.refl p, rfl⟩) _

theorem kept_follow (m : Memory) (run : List Operation) : Extended Kept m.records (m.follow run).records := by
  induction run generalizing m with
  | nil => exact .refl Kept.refl _
  | cons op rest ih => exact Extended.trans (fun h₁ h₂ => h₁.trans h₂) (operated op m).kept (ih _)

end Memory

/-! ### One operation in a database -/

namespace Tables

variable {t t' : Tables} {op : Operation}

namespace Keyed

/-- A new plan has a number of its own, so the shares of the others are as they were. -/
theorem extended_withPlan (h : t.Keyed) {plan : NewPlan} (hop : op.adds? = some plan) :
    Extended (Moved Entry.inName op) t.records (t.withPlan plan).records := by
  have hentries : ∀ row ∈ t.plans, (t.withPlan plan).entries row.number = t.entries row.number := by
    intro row hrow
    have hne := Nat.ne_of_gt (h.number_lt hrow)
    unfold Tables.withPlan
    split <;> exact Sound.entries_insertPlan_of_ne hne plan
  unfold records
  by_cases hactivate : plan.activate = true
  · obtain ⟨new, hplans⟩ : ∃ new, (t.withPlan plan).plans = (t.deactivate plan.imageType plan.createdBy).plans ++ [new] := by
      unfold Tables.withPlan
      rw [if_pos hactivate]
      exact ⟨_, rfl⟩
    unfold Tables.deactivate at hplans
    rw [hplans, List.map_append, List.map_map]
    refine .map_append (fun row hrow => ?_) _
    unfold record
    rw [Function.comp_apply]
    split
    · rename_i hrow'
      rw [hentries row hrow]
      have hactivates := Operation.activates?_of_adds hop hactivate
      exact .deactivate (p := t.record row) (hactivates.trans (congrArg some hrow'.1.symm))
    · rw [hentries row hrow]
      exact .refl _
  · obtain ⟨new, hplans⟩ : ∃ new, (t.withPlan plan).plans = t.plans ++ [new] := by
      unfold Tables.withPlan
      rw [if_neg hactivate]
      exact ⟨_, rfl⟩
    rw [hplans, List.map_append]
    refine .map_append (fun row hrow => ?_) _
    unfold record
    rw [hentries row hrow]
    exact .refl _

theorem extended_replaceShares (h : t.Keyed) {row : PlanRow} (hrow : row ∈ t.plans) (hactive : row.active = true)
    {entries : List Entry} {user : Option String} (hop : op.rewrites? = some (row.imageType, entries, user)) :
    Extended (Moved Entry.inName op) t.records (t.replaceShares row.number entries user).records := by
  unfold records
  have hplans : (t.replaceShares row.number entries user).plans =
      t.plans.map fun other => if other.number = row.number then { other with modifiedBy := user } else other := rfl
  rw [hplans, List.map_map]
  refine .map fun other hother => ?_
  unfold record
  rw [Function.comp_apply]
  split
  · rename_i hnumber
    obtain rfl := h.eq_of_number hother hrow hnumber
    have hwritten := entries_of_shares (Sound.filter_shares_replaceShares t other.number entries user)
    rw [hwritten]
    exact Moved.rewrite (p := t.record other) hactive hop
  · rename_i hnumber
    rw [Sound.entries_replaceShares_of_ne fun heq => hnumber heq.symm]
    exact .refl _

end Keyed

theorem Wrote.keyed (h : Wrote op t t') (ht : t.Keyed) : t'.Keyed := by
  cases h with
  | nothing hplans hshares => exact ht.of_eq hplans hshares
  | plan hop h =>
    subst h
    exact ht.withPlan _
  | entries hrow hactive hop h =>
    subst h
    exact ht.replaceShares (ht.number_lt hrow) _ _

theorem Wrote.extended (h : Wrote op t t') (ht : t.Keyed) : Extended (Moved Entry.inName op) t.records t'.records := by
  cases h with
  | nothing hplans hshares =>
    have hrecords : t'.records = t.records := by
      unfold records record
      rw [hplans]
      exact List.map_congr_left fun row _ => by rw [entries_congr (t := t) (by rw [hshares])]
    rw [hrecords]
    exact .refl Moved.refl _
  | plan hop h =>
    subst h
    exact ht.extended_withPlan hop
  | entries hrow hactive hop h =>
    subst h
    exact ht.extended_replaceShares hrow hactive hop

end Tables

/-- A session between two operations over keyed tables. -/
def Session.Keyed (s : Session) : Prop :=
  ∃ t : Tables, t.Keyed ∧ s.Rests t

def Session.records (s : Session) : List PlanRecord :=
  s.committed.records

namespace Database

variable {s : Session} {t : Tables}

theorem operated (h : s.Keyed) (op : Operation) :
    (op.onDatabase.run s).state.Keyed ∧
      Operated Entry.inName op (op.onDatabase.run s).result s.records (op.onDatabase.run s).state.records := by
  obtain ⟨t, ht, hs⟩ := h
  have hends := ends_onDatabase hs op
  unfold Session.records
  rw [hs.committed]
  cases hresult : (op.onDatabase.run s).result with
  | ok id =>
    obtain ⟨t', hs', hwrote⟩ := hends.value id hresult
    rw [hs'.committed]
    exact ⟨⟨t', hwrote.keyed ht, hs'⟩, fun _ _ => hwrote.extended ht, nofun, nofun⟩
  | error f =>
    rcases hends.failure f hresult with hs' | ⟨hunread, plan, hop, hs'⟩
    · rw [hs'.committed]
      exact ⟨⟨t, ht, hs'⟩, nofun, fun _ _ _ => rfl, fun _ _ _ => .refl (fun p => ⟨.refl p, rfl⟩) _⟩
    · rw [hs'.committed]
      refine ⟨⟨_, ht.withPlan plan, hs'⟩, nofun, fun g hg hread => ?_, fun _ _ _ => ?_⟩
      · cases hg
        exact absurd hunread hread
      · exact (ht.extended_withPlan hop).mono fun hmoved => ⟨hmoved, hmoved.entries_eq hop⟩

theorem Leads.kept {s s' : Session} {run : List Operation} (hleads : Leads s run s') (h : s.Keyed) :
    s'.Keyed ∧ Extended Kept s.records s'.records := by
  induction hleads with
  | done => exact ⟨h, .refl Kept.refl _⟩
  | operation op _ ih =>
    obtain ⟨hkeyed, hext⟩ := ih
    obtain ⟨hkeyed', hoperated⟩ := operated hkeyed op
    exact ⟨hkeyed', hext.trans (fun h₁ h₂ => h₁.trans h₂) hoperated.kept⟩
  | reopen fault _ ih =>
    obtain ⟨⟨t, ht, hs⟩, hext⟩ := ih
    exact ⟨⟨t, ht, hs.committed, hs.committed⟩, hext⟩

end Database

/-- In either store and in every run of operations, from any point of the run to any later one, every plan
    keeps its place, its number, its name and its image type, and a plan that is inactive does not change
    at all; so it is among the plans of each image type. In one operation a plan becomes inactive only by
    a new active plan of its type, and its entries change only by an update of its type that succeeds, to
    the entries of that update. An operation that fails leaves every plan as it is; only a new plan that
    is refused when it is read again takes its place all the same. -/
theorem plans_are_only_added :
    (∀ (m : Memory) (earlier later : List Operation),
      let now := m.follow earlier
      Extended Kept now.records (m.follow (earlier ++ later)).records ∧
      (∀ imageType, Extended Kept (ofType imageType now.records) (ofType imageType (m.follow (earlier ++ later)).records)) ∧
      ∀ op, Operated (fun _ e => e) op (op.onMemory.run now).result now.records (m.follow (earlier ++ [op])).records) ∧
    ∀ (s now s' : Session) (earlier later : List Operation),
      s.Keyed → Database.Leads s earlier now → Database.Leads now later s' →
        Extended Kept now.records s'.records ∧
        (∀ imageType, Extended Kept (ofType imageType now.records) (ofType imageType s'.records)) ∧
        ∀ op, Operated Entry.inName op (op.onDatabase.run now).result now.records (op.onDatabase.run now).state.records := by
  constructor
  · intro m earlier later now
    have hkept := now.kept_follow later
    rw [← Memory.follow_append] at hkept
    refine ⟨hkept, hkept.ofType, fun op => ?_⟩
    rw [Memory.follow_append]
    exact Memory.operated op now
  · intro s now s' earlier later hs hearlier hlater
    obtain ⟨hkeyed, -⟩ := hearlier.kept hs
    obtain ⟨-, hkept⟩ := hlater.kept hkeyed
    exact ⟨hkept, hkept.ofType, fun op => (Database.operated hkeyed op).2⟩

/-- A second plan takes the place of the first one, and is then given no entries at all. -/
def sampleOperations : List Operation :=
  [.change (.create sampleDraft (some "bob")), .updatePlan "spark" [] (some "carol")]

def operatedSession : Session :=
  sampleOperations.foldl (fun s op => (op.onDatabase.run s).state) sampleSession

theorem plans_are_only_added_sample :
    sampleSession.records.map PlanRecord.active = [true] ∧ operatedSession.records.map PlanRecord.active = [false, true] ∧
      Extended Kept sampleSession.records operatedSession.records ∧
      Operated Entry.inName (.updatePlan "spark" [] none)
        ((Operation.updatePlan "spark" [] none).onDatabase.run operatedSession).result operatedSession.records
        ((Operation.updatePlan "spark" [] none).onDatabase.run operatedSession).state.records := by
  obtain ⟨t, ht, hs⟩ := reached_sampleSession.sound
  have hkeyed : sampleSession.Keyed := ⟨t, ht.keyed, hs⟩
  have hleads : Database.Leads sampleSession sampleOperations operatedSession := (Database.Leads.done.operation _).operation _
  obtain ⟨-, hdatabase⟩ := plans_are_only_added
  obtain ⟨hkept, -, -⟩ := hdatabase sampleSession sampleSession operatedSession [] sampleOperations hkeyed .done hleads
  obtain ⟨-, -, hoperated⟩ := hdatabase sampleSession operatedSession operatedSession sampleOperations [] hkeyed hleads .done
  exact ⟨by decide_cbv, by decide_cbv, hkept, hoperated _⟩

end ImageRollout
