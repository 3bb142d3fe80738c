import ImageRollout.Proofs.Action
import ImageRollout.Store.Session

/-! Statements of a session. A statement that the database refuses ends what it is part of and leaves the
    tables alone; one that it does not refuse works on the draft, and a commit makes the draft the
    tables. A database that refuses nothing takes any rows too. -/

namespace ImageRollout

open ImageRollout.Action

/-- The failure of a statement that the database refused. -/
def Failure.IsRefusal (f : Failure) : Prop :=
  ∃ operation reason, f = .domain (.database operation reason)

/-- The failure of a statement that was to read again what is stored. -/
def Failure.IsUnread (f : Failure) : Prop :=
  ∃ reason, f = .misuse (.unread reason)

theorem Failure.not_isUnread_domain (f : DomainFailure) : ¬(Failure.domain f).IsUnread := by
  rintro ⟨reason, h⟩
  cases h

/-- A database that takes any rows: no text is too long for its column. -/
def Engine.TakesAll (engine : Engine) : Prop :=
  ∀ plans shares, engine.objection? plans shares = none

namespace Session

/-- A session between two operations: the draft is the tables. -/
structure Rests (s : Session) (t : Tables) : Prop where
  committed : s.committed = t
  draft : s.draft = t

theorem rests_start (t : Tables) (fault : Option Fault) : (start t fault).Rests t := ⟨rfl, rfl⟩

theorem rests_rollback {s : Session} {t : Tables} (h : s.committed = t) : s.rollback.Rests t := ⟨h, h⟩

section

variable {s : Session} {onEvent : Event → Prop} {onValue : Unit → Session → Prop} {onFailure : Failure → Session → Prop}

theorem ends_unlessRefused {operation : String} {refusal : Option String}
    (hevent : ∀ reason, onEvent (.databaseFailed operation reason)) (hvalue : onValue () s)
    (hfailure : ∀ reason, refusal = some reason → onFailure (.domain (.database operation reason)) s) :
    Ends (unlessRefused operation refusal) s onEvent onValue onFailure := by
  cases refusal with
  | none => exact .pure hvalue
  | some reason =>
    exact .report_bind (by simpa using hevent reason) (.fail (hfailure reason rfl))

theorem ends_execute {operation : String} (hevent : ∀ reason, onEvent (.databaseFailed operation reason))
    (hvalue : onValue () { s with executed := s.executed + 1 })
    (hfailure : ∀ reason, s.refusal? .execute (s.executed + 1) = some reason →
      onFailure (.domain (.database operation reason)) { s with executed := s.executed + 1 }) :
    Ends (execute operation) s onEvent onValue onFailure :=
  .change_bind (.read_bind (ends_unlessRefused hevent hvalue hfailure))

theorem ends_commit {operation : String} (hevent : ∀ reason, onEvent (.databaseFailed operation reason))
    (hvalue : onValue () { s with commits := s.commits + 1, committed := s.draft })
    (hfailure : ∀ reason, onFailure (.domain (.database operation reason)) { s with commits := s.commits + 1 }) :
    Ends (commit operation) s onEvent onValue onFailure := by
  refine .change_bind (.read_bind ?_)
  refine Ends.bind (fun _ t => t = { s with commits := s.commits + 1 })
    (ends_unlessRefused hevent rfl fun reason _ => hfailure reason) fun _ t ht => ?_
  subst ht
  exact .change hvalue

theorem ends_refresh (hvalue : onValue () { s with refreshes := s.refreshes + 1 })
    (hfailure : ∀ reason, onFailure (.misuse (.unread reason)) { s with refreshes := s.refreshes + 1 }) :
    Ends refresh s onEvent onValue onFailure := by
  refine .change_bind (.read_bind ?_)
  split
  · exact .pure hvalue
  · exact .fail (hfailure _)

end

/-! ### A database that refuses nothing -/

/-- A session between two operations with a database that refuses no statement. -/
structure Calm (s : Session) (t : Tables) : Prop extends s.Rests t where
  fault : s.fault = none

/-- A session with a database that refuses nothing, neither a statement nor the rows of a draft. -/
structure Granted (s : Session) : Prop where
  fault : s.fault = none
  committed : s.committed.engine.TakesAll
  draft : s.draft.engine.TakesAll

theorem Calm.granted {s : Session} {t : Tables} (h : s.Calm t) (htakes : t.engine.TakesAll) : s.Granted :=
  ⟨h.fault, h.committed.symm ▸ htakes, h.draft.symm ▸ htakes⟩

/-- An action that fails at no statement where the database refuses nothing. -/
def Quiet {α : Type} (a : Action Session α) : Prop :=
  ∀ s, s.Granted → (a.run s).state.Granted ∧ ∀ f, (a.run s).result = .error f → ¬f.IsRefusal ∧ ¬f.IsUnread

section

variable {α β : Type}

theorem Quiet.bind {a : Action Session α} {f : α → Action Session β} (ha : Quiet a) (hf : ∀ x, Quiet (f x)) :
    Quiet (a >>= f) := by
  intro s hs
  obtain ⟨hfault, hfail⟩ := ha s hs
  cases hresult : (a.run s).result with
  | ok x =>
    rw [run_bind_ok hresult]
    exact hf x _ hfault
  | error failure =>
    rw [run_bind_error hresult]
    refine ⟨hfault, fun g hg => ?_⟩
    cases hg
    exact hfail failure hresult

theorem Quiet.pure (x : α) : Quiet (Pure.pure x : Action Session α) :=
  fun _ hs => ⟨hs, nofun⟩

theorem Quiet.report (events : List Event) : Quiet (Action.report events) :=
  fun _ hs => ⟨hs, nofun⟩

theorem Quiet.fail {f : Failure} (hrefusal : ¬f.IsRefusal) (hunread : ¬f.IsUnread) :
    Quiet (Action.fail f : Action Session α) := by
  refine fun _ hs => ⟨hs, fun g hg => ?_⟩
  cases hg
  exact ⟨hrefusal, hunread⟩

theorem Quiet.query (f : Tables → α) : Quiet (query f) :=
  fun _ hs => ⟨hs, nofun⟩

/-- What is edited leaves the engine as it is. -/
theorem Quiet.edit {f : Tables → Tables} (hf : ∀ t, (f t).engine = t.engine) : Quiet (edit f) :=
  fun s hs => ⟨⟨hs.fault, hs.committed, (hf s.draft).symm ▸ hs.draft⟩, nofun⟩

theorem Quiet.undoing {a : Action Session α} (h : Quiet a) : Quiet (Action.undoing rollback a) := by
  intro s hs
  obtain ⟨hfault, hfail⟩ := h s hs
  cases hresult : (a.run s).result with
  | ok x =>
    rw [run_undoing_ok rollback hresult]
    exact ⟨hfault, nofun⟩
  | error failure =>
    rw [run_undoing_error rollback hresult]
    refine ⟨⟨hfault.fault, hfault.committed, hfault.committed⟩, fun g hg => ?_⟩
    cases hg
    exact hfail failure hresult

theorem refusal?_of_fault {s : Session} (h : s.fault = none) (statement : Statement) (turn : Nat) :
    s.refusal? statement turn = none := by
  unfold refusal?
  rw [h]
  rfl

theorem run_execute {s : Session} (h : s.fault = none) (operation : String) :
    (execute operation).run s = ⟨.ok (), [], { s with executed := s.executed + 1 }⟩ := by
  have hnone := refusal?_of_fault (s := { s with executed := s.executed + 1 }) h .execute (s.executed + 1)
  unfold execute
  rw [run_change_bind, run_read_bind, hnone]
  rfl

theorem run_commit {s : Session} (h : s.Granted) (operation : String) :
    (commit operation).run s = ⟨.ok (), [], { s with commits := s.commits + 1, committed := s.draft }⟩ := by
  have hnone := refusal?_of_fault (s := { s with commits := s.commits + 1 }) h.fault .commit (s.commits + 1)
  have htaken : s.draft.objection? = none := h.draft _ _
  unfold commit
  rw [run_change_bind, run_read_bind, hnone, htaken]
  rfl

theorem run_refresh {s : Session} (h : s.fault = none) :
    refresh.run s = ⟨.ok (), [], { s with refreshes := s.refreshes + 1 }⟩ := by
  have hnone := refusal?_of_fault (s := { s with refreshes := s.refreshes + 1 }) h .refresh (s.refreshes + 1)
  unfold refresh
  rw [run_change_bind, run_read_bind, hnone]
  rfl

theorem Quiet.execute (operation : String) : Quiet (execute operation) := by
  intro s hs
  rw [run_execute hs.fault]
  exact ⟨⟨hs.fault, hs.committed, hs.draft⟩, nofun⟩

theorem Quiet.commit (operation : String) : Quiet (commit operation) := by
  intro s hs
  rw [run_commit hs]
  exact ⟨⟨hs.fault, hs.draft, hs.draft⟩, nofun⟩

theorem Quiet.refresh : Quiet refresh := by
  intro s hs
  rw [run_refresh hs.fault]
  exact ⟨⟨hs.fault, hs.committed, hs.draft⟩, nofun⟩

end

end Session

end ImageRollout
