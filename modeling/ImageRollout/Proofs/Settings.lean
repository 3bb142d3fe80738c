import Mathlib
import ImageRollout.Flow.Launch
import ImageRollout.Proofs.Action
import ImageRollout.Proofs.Names
import ImageRollout.Proofs.Schema.Checked

/-! The settings in force. Settings that are loaded leave time for store calls, and the word for the
    selection is one of the two that the strategies know, however it was written. So the default strategy
    can always be made, and a flow that does not say whether it is sticky gets the same one. -/

namespace ImageRollout

open ImageRollout.Action

variable {σ : Type}

/-! ### Words for the selection -/

theorem Selection.ofName?_name (selection : Selection) : ofName? selection.name = some selection := by
  cases selection <;> decide

theorem Selection.name_of_ofName? {s : String} {selection : Selection} (h : ofName? s = some selection) :
    selection.name = s := by
  have hfound := List.find?_some h
  exact of_decide_eq_true hfound

theorem Selection.name_eq_iff {selection other : Selection} : selection.name = other.name ↔ selection = other := by
  refine ⟨fun h => ?_, congrArg name⟩
  have hsome := ofName?_name selection
  rw [h, ofName?_name] at hsome
  exact (Option.some.inj hsome).symm

/-! ### What is loaded -/

namespace Settings

/-- What is given under a name: an argument, else a variable of the environment. -/
def given? (arguments : List (String × Json)) (environment : List (String × String)) (name : String) : Option Json :=
  (Json.member? name arguments).or ((environment.reverse.lookup name).map .str)

/-- The text for the selection, as it is given or by default. Only a text is accepted. -/
def configuredSelection (arguments : List (String × Json)) (environment : List (String × String)) : String :=
  match given? arguments environment "DEFAULT_SELECTION_STRATEGY" with
  | some (.str s) => s
  | _ => "random"

/-- The word is that of the selection which the configured text names, stripped and in small letters. -/
def IsConfigured (arguments : List (String × Json)) (environment : List (String × String)) (word : String) : Prop :=
  ∃ selection, Selection.ofName? (Text.toSmall (Text.strip (configuredSelection arguments environment))) = some selection ∧
    word = selection.name

/-- What loaded settings are like. -/
structure Loaded (arguments : List (String × Json)) (environment : List (String × String)) (settings : Settings) :
    Prop where
  timeout : settings.storeTimeout.isOver = false
  selection : IsConfigured arguments environment settings.defaultSelection

theorem member?_environment_arguments (arguments : List (String × Json)) (environment : List (String × String))
    (name : String) :
    Json.member? name (environment.map (fun (name, value) => (name, Json.str value)) ++ arguments) =
      given? arguments environment name := by
  unfold given? Json.member?
  rw [List.reverse_append, List.lookup_append, ← List.map_reverse, Names.lookup_map fun _ => Json.str]

theorem accepts_timeout (j : Json) : (timeout j).Accepts fun time => time.isOver = false := by
  refine Checked.Accepts.andThen (fun x => ?_) _
  rintro time htime
  by_cases hover : x.atMostZero = true
  · rw [if_pos hover] at htime
    cases htime
  · rw [if_neg hover] at htime
    cases htime
    exact Bool.eq_false_iff.mpr hover

theorem accepts_selectionWord (j : Json) : (selectionWord j).Accepts fun word => ∃ s, j = .str s ∧
    ∃ selection, Selection.ofName? (Text.toSmall (Text.strip s)) = some selection ∧ word = selection.name := by
  rintro word hword
  unfold selectionWord at hword
  cases j with
  | str s =>
    refine ⟨s, rfl, ?_⟩
    simp only [Form.text, Checked.andThen] at hword
    split at hword
    · rename_i selection hselection
      cases hword
      exact ⟨selection, hselection, rfl⟩
    · cases hword
  | null | bool | int | real | arr | obj => cases hword

theorem accepts_defaultSelection (arguments : List (String × Json)) (environment : List (String × String)) :
    (Form.defaulted (environment.map (fun (name, value) => (name, Json.str value)) ++ arguments)
      "DEFAULT_SELECTION_STRATEGY" "random" selectionWord).Accepts (IsConfigured arguments environment) := by
  unfold IsConfigured configuredSelection
  refine .defaulted (fun hnone => ?_) fun j hj word hword => ?_
  · rw [member?_environment_arguments] at hnone
    rw [hnone]
    exact ⟨.random, by decide_cbv, rfl⟩
  · obtain ⟨s, rfl, hselection⟩ := accepts_selectionWord j word hword
    rw [member?_environment_arguments] at hj
    rw [hj]
    exact hselection

theorem accepts_loaded (arguments : List (String × Json)) (environment : List (String × String)) :
    (load arguments environment).Accepts (Loaded arguments environment) := by
  have hdefault : (storeTimeout {}).isOver = false := by decide
  have htimeout : (Form.defaulted (environment.map (fun (name, value) => (name, Json.str value)) ++ arguments)
      "STORE_TIMEOUT_SECONDS" (storeTimeout {}) timeout).Accepts fun time => time.isOver = false :=
    .defaulted (fun _ => hdefault) fun j _ => accepts_timeout j
  have hword := accepts_defaultSelection arguments environment
  refine .seq_any (.seq_any (.seq hword (.seq htimeout ?_)) _) _
  refine .seq_any (.seq_any (.seq_any (.seq_any (.seq_any (.seq_any (.map ?_ _) _) _) _) _) _) _
  exact fun _ _ _ _ _ _ _ time htime word hword _ _ => ⟨htime, hword⟩

/-- Settings that are loaded leave time for every store call. -/
theorem accepts_load (arguments : List (String × Json)) (environment : List (String × String)) :
    (load arguments environment).Accepts fun settings => settings.storeTimeout.isOver = false :=
  fun settings h => (accepts_loaded arguments environment settings h).timeout

end Settings

/-! ### The strategy of a key -/

theorem bytesOf_ne_nil {s : String} (h : s ≠ "") : bytesOf s ≠ [] := by
  have hchars : s.toList ≠ [] := fun hnil => h (String.toList_eq_nil_iff.mp hnil)
  obtain ⟨c, rest, hcons⟩ := List.exists_cons_of_ne_nil hchars
  unfold bytesOf
  rw [hcons, List.flatMap_cons]
  refine List.append_ne_nil_of_left_ne_nil (List.length_pos_iff.mp ?_) _
  rw [String.length_utf8EncodeChar]
  exact c.utf8Size_pos

/-- The key that a text makes. -/
def Key.ofText (s : String) (h : s ≠ "") : Key :=
  ⟨bytesOf s, bytesOf_ne_nil h⟩

theorem Key.eq_of_bytes_eq {k other : Key} (h : k.bytes = other.bytes) : k = other := by
  cases k
  cases other
  cases h
  rfl

theorem Key.ofBytes?_eq_some {bytes : List UInt8} (h : bytes ≠ []) : ofBytes? bytes = some ⟨bytes, h⟩ :=
  dif_pos h

theorem Key.ofBytes?_nil : ofBytes? [] = none :=
  dif_neg fun h => h rfl

theorem choose_deterministic (configured s : String) (h : s ≠ "") :
    Strategy.choose configured (some Selection.deterministic.name) (bytesOf s) = (.ok (.keyed (.ofText s h)), []) := by
  unfold Strategy.choose
  simp only [Selection.ofName?_name]
  unfold Strategy.ofSelection
  simp only [Key.ofBytes?_eq_some (bytesOf_ne_nil h)]
  rfl

theorem choose_random (configured : String) (key : List UInt8) :
    Strategy.choose configured (some Selection.random.name) key = (.ok .generated, []) := by
  unfold Strategy.choose
  simp only [Selection.ofName?_name]
  rfl

theorem chosenStrategy_of_ok {settings : Settings} {word : Option String} {key : List UInt8}
    {strategy : Strategy} (h : Strategy.choose settings.defaultSelection word key = (.ok strategy, [])) :
    (chosenStrategy settings word key : Action σ Strategy) = pure strategy := by
  unfold chosenStrategy
  rw [h]
  rfl

theorem resolveRequest_eq {request : ResolutionRequest} {settings : Settings} {strategy : Strategy}
    (h : Strategy.choose settings.defaultSelection (some request.selection.name) (bytesOf (request.key.getD "")) =
      (.ok strategy, [])) (source : Source σ) (rules : Rules) :
    resolveRequest source settings rules request = resolveAll source rules request.imageTypes (some strategy) := by
  unfold resolveRequest
  rw [chosenStrategy_of_ok h]
  rfl

/-! ### The default strategy -/

namespace Strategy

variable (key : List UInt8)

/-- By default the draws are those of the key if the selection is deterministic and there is a key;
    otherwise they are random. -/
structure IsDefault (deterministic : Prop) (strategy : Strategy) : Prop where
  keyed_iff (k : Key) : strategy = .keyed k ↔ deterministic ∧ k.bytes = key
  generated_iff : strategy = .generated ↔ ¬(deterministic ∧ key ≠ [])

theorem choose_default_random : choose Selection.random.name none key = (.ok .generated, []) := by
  unfold choose
  simp only [Selection.ofName?_name]

theorem choose_default_deterministic (k : Key) :
    choose Selection.deterministic.name none k.bytes = (.ok (.keyed k), []) := by
  unfold choose
  simp only [Selection.ofName?_name, Key.ofBytes?_eq_some k.bytes_ne_nil]

theorem choose_default_keyless : choose Selection.deterministic.name none [] = (.ok .generated, [.noKey]) := by
  unfold choose
  simp only [Selection.ofName?_name, Key.ofBytes?_nil]

theorem isDefault_generated {deterministic : Prop} (h : ¬(deterministic ∧ key ≠ [])) :
    IsDefault key deterministic .generated where
  keyed_iff k := by
    refine ⟨fun heq => (by cases heq), ?_⟩
    rintro ⟨hdeterministic, rfl⟩
    exact absurd ⟨hdeterministic, k.bytes_ne_nil⟩ h
  generated_iff := iff_of_true rfl h

theorem isDefault_keyed {deterministic : Prop} (h : deterministic) (k : Key) :
    IsDefault k.bytes deterministic (.keyed k) where
  keyed_iff other := by
    refine ⟨?_, ?_⟩
    · rintro ⟨⟩
      exact ⟨h, rfl⟩
    · rintro ⟨-, hbytes⟩
      rw [Key.eq_of_bytes_eq hbytes]
  generated_iff := iff_of_false (by rintro ⟨⟩) fun hnot => hnot ⟨h, k.bytes_ne_nil⟩

/-- With a word for a selection in force a default strategy is made, whatever the key. -/
theorem exists_default (selection : Selection) :
    ∃ strategy, (choose selection.name none key).1 = .ok strategy ∧
      IsDefault key (selection = .deterministic) strategy := by
  cases selection with
  | random =>
    refine ⟨.generated, by rw [choose_default_random], isDefault_generated key ?_⟩
    rintro ⟨⟨⟩, -⟩
  | deterministic =>
    by_cases hkey : key = []
    · subst hkey
      refine ⟨.generated, by rw [choose_default_keyless], isDefault_generated [] ?_⟩
      exact fun hnot => hnot.2 rfl
    · exact ⟨.keyed ⟨key, hkey⟩, by rw [choose_default_deterministic ⟨key, hkey⟩], isDefault_keyed rfl ⟨key, hkey⟩⟩

end Strategy

theorem Launch.choose_default {launch : Launch} {settings : Settings} {selection : Selection}
    (hsticky : launch.sticky = none) (hword : settings.defaultSelection = selection.name) :
    Strategy.choose settings.defaultSelection none (bytesOf launch.name) = (.ok (launch.strategy settings), []) := by
  unfold strategy isSticky
  rw [hsticky, hword]
  cases selection with
  | random => exact Strategy.choose_default_random _
  | deterministic => exact Strategy.choose_default_deterministic launch.key

/-- The configured text, stripped and in small letters, is the word of the deterministic selection. -/
def Settings.IsDeterministic (arguments : List (String × Json)) (environment : List (String × String)) : Prop :=
  Text.toSmall (Text.strip (configuredSelection arguments environment)) = Selection.deterministic.name

instance (arguments : List (String × Json)) (environment : List (String × String)) :
    Decidable (Settings.IsDeterministic arguments environment) :=
  inferInstanceAs (Decidable (_ = _))

/-- The launch of a flow with the default strategy of its name. -/
def Launch.planByDefault (launch : Launch) (source : Source σ) (settings : Settings) (rules : Rules) :
    Action (Backing σ) LaunchPlan := do
  Action.report [.flowStarted launch.name launch.imageTypes]
  let strategy ← chosenStrategy settings none (bytesOf (launch.project ++ "." ++ launch.flowId))
  let versions ← resolveAll source rules launch.imageTypes (some strategy)
  pure ⟨launch.name, versions, launch.proxyUsers settings⟩

/-- Arguments that configure the deterministic selection, though not by its exact word. -/
def looseArguments : List (String × Json) :=
  [("DATABASE_URL", .str ""), ("DEFAULT_SELECTION_STRATEGY", .str "\tDeterministic ")]

def looseLaunch : Launch where
  project := "etl"
  flowId := "nightly"
  flow := { id := "nightly", type? := some "flow", children := [{ id := "load", type? := some "spark" }] }

end ImageRollout
