import Mathlib.Data.List.Forall2
import ImageRollout.Proofs.Plan.Position
import ImageRollout.Proofs.Reached

/-! Entries that come back from the database. A plan is written as rows, one for each entry with its place in the
    plan, and its entries are read from these rows under the checks that any document is read under. Whatever
    entries the plan had before and in whatever order the rows lie, it is then read with the entries that were
    written, in their order, and without a complaint about any of them. -/

namespace ImageRollout

open ImageRollout.Action

/-! ### What is read for what was written -/

/-- A name that was given is kept; for one that was not stands the name of the user. -/
structure NameKept (user written read : Option String) : Prop where
  given : ∀ name, written = some name → name ≠ "" → read = some name
  missing : written = none ∨ written = some "" → read = user

/-- An entry as it is read after it was written in the name of a user. -/
structure ReadAs (user : Option String) (written read : Entry) : Prop where
  version : read.version = written.version
  share : read.share = written.share
  stability : read.stability = written.stability
  createdBy : NameKept user written.createdBy read.createdBy
  modifiedBy : NameKept user written.modifiedBy read.modifiedBy

theorem nameKept_nameOr (user written : Option String) : NameKept user written (nameOr written user) where
  given name hwritten hname := by
    subst hwritten
    unfold nameOr
    split
    · rename_i heq
      cases heq
    · rename_i heq
      exact absurd (Option.some.inj heq) hname
    · rename_i heq
      exact heq.symm
  missing hwritten := by
    rcases hwritten with rfl | rfl <;> rfl

theorem readAs_inName (user : Option String) (e : Entry) : ReadAs user e (e.inName user) :=
  ⟨rfl, rfl, rfl, nameKept_nameOr user e.createdBy, nameKept_nameOr user e.modifiedBy⟩

theorem forall₂_readAs (user : Option String) (entries : List Entry) :
    List.Forall₂ (ReadAs user) entries (entries.map (Entry.inName user)) :=
  List.forall₂_map_right_iff.mpr (List.forall₂_same.mpr fun e _ => readAs_inName user e)

/-! ### The rows of a plan -/

namespace Tables

variable {t t' : Tables} {row : PlanRow} {user : Option String} {entries : List Entry}

/-- The same plans and the same shares, in whatever order their rows lie. -/
structure SameRows (t t' : Tables) : Prop where
  plans : t.plans.Perm t'.plans
  shares : t.shares.Perm t'.shares

/-- A plan is the one active plan of its type, and its shares are those for some entries, in the name of a user. -/
structure Stores (t : Tables) (row : PlanRow) (user : Option String) (entries : List Entry) : Prop where
  sole : t.activePlansOf row.imageType = [row]
  shares : (t.shares.filter fun share => share.plan = row.number) = sharesFor row.number user 0 entries

theorem stores_withPlan (h : t.Keyed) {plan : NewPlan} (hactivate : plan.activate = true) :
    (t.withPlan plan).Stores
      ⟨t.plans.length, plan.imageType, plan.name, plan.description, true, plan.createdBy, plan.createdBy⟩
      plan.createdBy plan.entries where
  sole := by
    have hothers : (t.deactivate plan.imageType plan.createdBy).activePlansOf plan.imageType = [] := by
      refine List.eq_nil_iff_forall_not_mem.mpr fun row hrow => ?_
      obtain ⟨hmem, hactive, htype⟩ := mem_activePlansOf.mp hrow
      exact Sound.inactive_deactivate plan.imageType plan.createdBy row hmem hactive htype
    unfold Tables.withPlan
    rw [if_pos hactivate]
    unfold Tables.insertPlan activePlansOf
    rw [List.filter_append]
    refine (congrArg (· ++ _) hothers).trans ?_
    simp [hactivate]
  shares := h.filter_shares_withPlan plan

/-- The shares that a plan had before do not matter. -/
theorem stores_replaceShares (h : t.activePlansOf row.imageType = [row]) (user : Option String) (entries : List Entry) :
    (t.replaceShares row.number entries user).Stores { row with modifiedBy := user } user entries where
  sole := by
    unfold replaceShares activePlansOf
    rw [List.filter_map]
    have hchoice : ((fun other : PlanRow => decide (other.active ∧ other.imageType = row.imageType)) ∘ fun other =>
        if other.number = row.number then { other with modifiedBy := user } else other) =
          fun other => decide (other.active ∧ other.imageType = row.imageType) := by
      funext other
      rw [Function.comp_apply]
      split <;> rfl
    rw [hchoice]
    refine (congrArg (List.map _) h).trans ?_
    rw [List.map_singleton, if_pos rfl]
  shares := Sound.filter_shares_replaceShares t row.number entries user

namespace Stores

theorem active (h : t.Stores row user entries) : row.active = true := by
  have hmem : row ∈ t.activePlansOf row.imageType := h.sole ▸ List.mem_singleton_self row
  exact (mem_activePlansOf.mp hmem).2.1

theorem length_shares (h : t.Stores row user entries) :
    (t.shares.filter fun share => share.plan = row.number).length = entries.length := by
  have hdocuments := congrArg List.length (document_sharesFor row.number user 0 entries)
  rw [List.length_map, List.length_map] at hdocuments
  rw [h.shares, hdocuments]

/-- The plan as it is read. -/
theorem read (h : t.Stores row user entries) (hrows : t'.SameRows t) :
    (t'.activePlans [row.imageType]).mapM t'.plan = .ok
      [{ imageType := row.imageType, active := true, entries := entries.map (Entry.inName user), id := some row.id,
         name := some row.name }] := by
  have hsole : t'.activePlansOf row.imageType = [row] := by
    have hperm : (t'.activePlansOf row.imageType).Perm (t.activePlansOf row.imageType) := hrows.plans.filter _
    exact List.perm_singleton.mp (h.sole ▸ hperm)
  have hentries : t'.entries row.number = .ok (entries.map (Entry.inName user)) :=
    entries_of_perm_shares ((hrows.shares.filter _).trans (.of_eq h.shares))
  rw [activePlans_of_sole hsole, List.mapM_cons, List.mapM_nil]
  unfold plan
  rw [hentries, h.active]
  rfl

end Stores

end Tables

/-! ### Writing and reading -/

/-- What is left where entries were written for a plan: the tables are as tables should be, the plan is the one
    active plan of its type, with no more shares than there are entries, and whoever reads it finds the entries. -/
structure ComesBack (s : Session) (row : PlanRow) (user : Option String) (entries : List Entry) : Prop where
  committed : s.draft = s.committed
  keyed : s.committed.Keyed
  sole : s.committed.activePlansOf row.imageType = [row]
  count : (s.committed.shares.filter fun share => share.plan = row.number).length = entries.length
  read : ∃ read, List.Forall₂ (ReadAs user) entries read ∧
    ∀ r : Session, r.draft.SameRows s.committed → r.refusal? .execute (r.executed + 1) = none →
      ((Database.activePlan? row.imageType).run r).result = .ok (some
        { imageType := row.imageType, active := true, entries := read, id := some row.id, name := some row.name })

/-- A call that writes entries for a plan. It succeeds where nothing is refused, and where it succeeds it tells the
    plan and the entries come back. -/
structure WritesBack (call : Action Session PlanId) (s : Session) (row : PlanRow) (user : Option String)
    (entries : List Entry) : Prop where
  succeeds : s.Granted → (call.run s).result = .ok row.id
  comesBack : ∀ id, (call.run s).result = .ok id → id = row.id ∧ ComesBack (call.run s).state row user entries

theorem Session.Rests.comesBack {s : Session} {t : Tables} (hs : s.Rests t) (ht : t.Keyed) {row : PlanRow}
    {user : Option String} {entries : List Entry} (h : t.Stores row user entries) : ComesBack s row user entries := by
  obtain ⟨rfl, hdraft⟩ := hs
  refine ⟨hdraft, ht, h.sole, h.length_shares, _, forall₂_readAs user entries, fun r hrows hfree => ?_⟩
  have hread := h.read hrows
  rw [← Names.ordered_singleton row.imageType] at hread
  unfold Database.activePlan?
  rw [run_bind_ok (Database.result_activePlans_of_read hread hfree)]
  simp [Database.lookup_byType, Database.lastOf]

/-- Entries survive the database. After a new active plan was made for them, or the active plan of a type was
    updated to them, it is read with these entries in their order: each with its version, its share and its
    stability, with the names that it gave and the name of the user for those that it did not. What entries there
    were before and in what order the rows lie makes no difference. -/
theorem written_entries_come_back {s : Session} {t : Tables} (hs : s.Rests t) (ht : t.Keyed) (imageType : String)
    (entries : List Entry) (user : Option String) :
    (∀ (name : String) (description : Option String), (t.type? imageType).isSome →
      WritesBack (Database.createPlan { imageType, name, entries, activate := true, description, createdBy := user }) s
        ⟨t.plans.length, imageType, name, description, true, user, user⟩ user entries) ∧
    ∀ row : PlanRow, t.activePlansOf imageType = [row] →
      WritesBack (Database.updatePlan imageType entries user) s { row with modifiedBy := user } user entries := by
  have htakes : s.Granted → t.engine.TakesAll := fun hgranted => hs.committed ▸ hgranted.committed
  refine ⟨fun name description htype => ⟨fun hgranted => ?_, fun id hid => ?_⟩,
    fun row hrow => ⟨fun hgranted => ?_, fun id hid => ?_⟩⟩
  · rw [Database.result_createPlan _ ⟨hs, hgranted.fault⟩ (htakes hgranted)]
    exact if_pos htype
  · obtain ⟨rfl, -, hs'⟩ := (Database.ends_createPlan hs _).value id hid
    exact ⟨rfl, hs'.comesBack (ht.withPlan _) (Tables.stores_withPlan ht rfl)⟩
  · rw [Database.result_updatePlan _ _ _ ⟨hs, hgranted.fault⟩ (htakes hgranted), Tables.activePlans_of_sole hrow]
    rfl
  · obtain ⟨found, hfound, rfl, hs'⟩ := (Database.ends_updatePlan hs imageType entries user).value id hid
    rw [Tables.activePlans_of_sole hrow] at hfound
    obtain rfl : row = found := Option.some.inj hfound
    obtain ⟨hmem, -, rfl⟩ := Tables.mem_activePlansOf.mp (hrow ▸ List.mem_singleton_self row)
    exact ⟨rfl, hs'.comesBack (ht.replaceShares (ht.number_lt hmem) entries user)
      (Tables.stores_replaceShares hrow user entries)⟩

/-- The active plan after an update to entries that no check has seen. -/
def rewrittenSession : Session :=
  ((Database.updatePlan "spark" uncheckedPlan.entries (some "bob")).run sampleSession).state

/-- Another session, which finds the shares in the opposite order. -/
def reversedSession : Session :=
  .start { rewrittenSession.committed with shares := rewrittenSession.committed.shares.reverse } none

theorem written_entries_come_back_sample :
    reversedSession.draft.shares ≠ rewrittenSession.committed.shares ∧
      ∃ read, List.Forall₂ (ReadAs (some "bob")) uncheckedPlan.entries read ∧
        ((Database.activePlan? "spark").run reversedSession).result = .ok (some
          { imageType := "spark", active := true, entries := read, id := some (.made 0), name := some "spark rampup" }) := by
  obtain ⟨t, ht, hs⟩ := reached_sampleSession.sound
  obtain rfl := hs.committed
  obtain ⟨-, hupdate⟩ := written_entries_come_back hs ht.keyed "spark" uncheckedPlan.entries (some "bob")
  have hsole : sampleSession.committed.activePlansOf "spark" =
      [⟨0, "spark", "spark rampup", none, true, some "alice", some "alice"⟩] := by decide_cbv
  obtain ⟨hsucceeds, hcomes⟩ := hupdate _ hsole
  have hgranted : sampleSession.Granted := ⟨by decide_cbv, fun _ _ => rfl, fun _ _ => rfl⟩
  obtain ⟨-, hback⟩ := hcomes _ (hsucceeds hgranted)
  obtain ⟨read, hread, hreader⟩ := hback.read
  have hrows : reversedSession.draft.SameRows rewrittenSession.committed := ⟨.refl _, List.reverse_perm _⟩
  exact ⟨by decide_cbv, read, hread, hreader reversedSession hrows rfl⟩

end ImageRollout
