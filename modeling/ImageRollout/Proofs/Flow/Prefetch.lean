import Mathlib.Data.List.DropRight
import ImageRollout.Flow.Prefetch
import ImageRollout.Proofs.Names

/-! The written map of the users whose images are fetched ahead. It is read segment by segment, so what is wrong
    with one segment matters to no other. The pairs that are read from a map are such as can be written, and
    they are read back from the map that is written for them. -/

namespace ImageRollout

/-! ### Texts without blanks at their ends -/

namespace Text

theorem mem_of_mem_trimChars {p : Char → Bool} {c : Char} {cs : List Char} (h : c ∈ trimChars p cs) : c ∈ cs := by
  have htrailing : c ∈ (cs.dropWhile p).reverse := (List.dropWhile_suffix p).subset (List.mem_reverse.mp h)
  exact (List.dropWhile_suffix p).subset (List.mem_reverse.mp htrailing)

theorem trimChars_trimChars (p : Char → Bool) (cs : List Char) : trimChars p (trimChars p cs) = trimChars p cs := by
  -- Unless nothing is left, what is left starts where the leading characters of `p` ended.
  have hstart : trimChars p cs <+: cs.dropWhile p := List.rdropWhile_prefix p _
  have hleading : (trimChars p cs).dropWhile p = trimChars p cs := by
    refine List.dropWhile_eq_self_iff.mpr fun hlength => ?_
    rw [hstart.getElem hlength]
    exact List.dropWhile_eq_self_iff.mp (List.dropWhile_idempotent p cs) _
  show ((trimChars p cs).dropWhile p).rdropWhile p = _
  rw [hleading]
  exact List.rdropWhile_idempotent p _

theorem strip_strip (s : String) : strip (strip s) = strip s := by
  simp [strip, trim, trimChars_trimChars]

theorem mem_of_mem_strip {c : Char} {s : String} (h : c ∈ (strip s).toList) : c ∈ s.toList := by
  unfold strip trim at h
  rw [String.toList_ofList] at h
  exact mem_of_mem_trimChars h

end Text

namespace Prefetch

/-! ### Segments -/

theorem splitAt_eq_splitOn (separator : Char) (cs : List Char) : splitAt separator cs = cs.splitOn separator := by
  induction cs with
  | nil => rfl
  | cons c rest ih =>
    rw [splitAt, List.splitOn_cons_eq_if_modifyHead, ih]
    by_cases h : c = separator
    · simp [h]
    · rw [if_neg h, if_neg (by simpa using h)]
      obtain ⟨part, parts, hparts⟩ := List.exists_cons_of_ne_nil (List.splitOn_ne_nil separator rest)
      rw [hparts]
      rfl

theorem not_mem_of_mem_splitAt {separator : Char} {cs part : List Char} (h : part ∈ splitAt separator cs) :
    separator ∉ part := by
  induction cs generalizing part with
  | nil =>
    obtain rfl := List.mem_singleton.mp h
    exact List.not_mem_nil
  | cons c rest ih =>
    rw [splitAt] at h
    split at h
    · rcases List.mem_cons.mp h with rfl | hrest
      · exact List.not_mem_nil
      · exact ih hrest
    · rename_i hc
      split at h
      · obtain rfl := List.mem_singleton.mp h
        exact fun hmem => hc (List.mem_singleton.mp hmem).symm
      · rename_i first parts hparts
        rcases List.mem_cons.mp h with rfl | hlater
        · have hfirst : separator ∉ first := ih (hparts ▸ List.mem_cons_self)
          exact List.not_mem_cons_of_ne_of_not_mem (Ne.symm hc) hfirst
        · exact ih (hparts ▸ List.mem_cons_of_mem _ hlater)

theorem mem_pairs {map : String} {pair : String × String} :
    pair ∈ pairs map ↔ (∃ part ∈ splitAt ';' map.toList, segment part = pair) ∧ pair.1 ≠ "" ∧ pair.2 ≠ "" := by
  unfold pairs
  rw [List.mem_filter, List.mem_map]
  simp

theorem ne_empty_of_mem_pairs {map jobType user : String} (h : (jobType, user) ∈ pairs map) :
    jobType ≠ "" ∧ user ≠ "" :=
  (mem_pairs.mp h).2

theorem mem_users {map : String} {jobTypes : List String} {user : String} :
    user ∈ users map jobTypes ↔ ∃ jobType ∈ jobTypes, (jobType, user) ∈ pairs map := by
  unfold users
  rw [Names.mem_ordered, List.mem_map]
  constructor
  · rintro ⟨⟨jobType, _⟩, hmem, rfl⟩
    obtain ⟨hpair, hjobType⟩ := List.mem_filter.mp hmem
    exact ⟨jobType, List.contains_iff_mem.mp hjobType, hpair⟩
  · rintro ⟨jobType, hjobType, hpair⟩
    exact ⟨(jobType, user), List.mem_filter.mpr ⟨hpair, List.contains_iff_mem.mpr hjobType⟩, rfl⟩

/-! ### Maps that are put together -/

/-- The segments of a map, one after the other. -/
def joined (segments : List String) : String :=
  ";".intercalate segments

theorem pairs_append (a b : String) : pairs (a ++ ";" ++ b) = pairs a ++ pairs b := by
  have hchars : (a ++ ";" ++ b).toList = a.toList ++ ';' :: b.toList := by simp
  unfold pairs
  rw [hchars, splitAt_eq_splitOn, List.splitOn_append_cons_self, ← splitAt_eq_splitOn, ← splitAt_eq_splitOn,
    List.map_append, List.filter_append]

theorem pairs_joined_append (segments others : List String) :
    pairs (joined (segments ++ others)) = pairs (joined segments) ++ pairs (joined others) := by
  have hempty : pairs (joined []) = [] := rfl
  by_cases hsegments : segments = []
  · rw [hsegments, hempty]
    rfl
  by_cases hothers : others = []
  · rw [hothers, hempty, List.append_nil, List.append_nil]
  unfold joined
  rw [String.intercalate_append_of_ne_nil hsegments hothers, pairs_append]

theorem pairs_joined_cons (s : String) (segments : List String) :
    pairs (joined (s :: segments)) = pairs s ++ pairs (joined segments) := by
  have hone : joined [s] = s := String.intercalate_singleton
  rw [← List.singleton_append, pairs_joined_append, hone]

theorem mem_users_of_pairs {map a b : String} (h : ∀ pair, pair ∈ pairs map ↔ pair ∈ pairs a ∨ pair ∈ pairs b)
    (jobTypes : List String) (user : String) : user ∈ users map jobTypes ↔ user ∈ users a jobTypes ∨ user ∈ users b jobTypes := by
  rw [mem_users, mem_users, mem_users]
  simp only [h, and_or_left, exists_or]

/-- The pairs of two maps that are put together are those of the one and then those of the other, and the users are
    those of either. So the users of a segment are its own: with another in its place, or with none, the users of
    all others are the same. -/
theorem segments_keep_to_themselves :
    (∀ a b : String, pairs (a ++ ";" ++ b) = pairs a ++ pairs b) ∧
    (∀ (a b : String) (jobTypes : List String),
      users (a ++ ";" ++ b) jobTypes = Names.ordered (users a jobTypes ++ users b jobTypes)) ∧
    ∀ (before : List String) (segment : String) (after : List String),
      pairs (joined (before ++ segment :: after)) = pairs (joined before) ++ pairs segment ++ pairs (joined after) ∧
      pairs (joined (before ++ after)) = pairs (joined before) ++ pairs (joined after) ∧
      ∀ (jobTypes : List String) (user : String),
        user ∈ users (joined (before ++ segment :: after)) jobTypes ↔
          user ∈ users (joined (before ++ after)) jobTypes ∨ user ∈ users segment jobTypes := by
  refine ⟨pairs_append, fun a b jobTypes => ?_, fun before segment after => ?_⟩
  · have hpairs : ∀ pair, pair ∈ pairs (a ++ ";" ++ b) ↔ pair ∈ pairs a ∨ pair ∈ pairs b := fun pair => by
      rw [pairs_append, List.mem_append]
    refine (Names.ascending_ordered _).eq_of_mem_iff (Names.ascending_ordered _) fun user => ?_
    exact (mem_users_of_pairs hpairs jobTypes user).trans (List.mem_append.symm.trans Names.mem_ordered.symm)
  · have hwith : pairs (joined (before ++ segment :: after)) =
        pairs (joined before) ++ pairs segment ++ pairs (joined after) := by
      rw [pairs_joined_append, pairs_joined_cons, List.append_assoc]
    have hwithout := pairs_joined_append before after
    refine ⟨hwith, hwithout, mem_users_of_pairs fun pair => ?_⟩
    rw [hwith, hwithout, List.mem_append, List.mem_append, List.mem_append]
    exact or_right_comm

/-! ### Maps that are written -/

/-- A pair that can be written into a map: both parts are there, without blanks around them, and no character of
    theirs is taken for the end of the part. -/
structure Writable (pair : String × String) : Prop where
  jobType_ne : pair.1 ≠ ""
  user_ne : pair.2 ≠ ""
  strip_jobType : Text.strip pair.1 = pair.1
  strip_user : Text.strip pair.2 = pair.2
  jobType_unsplit : ';' ∉ pair.1.toList
  user_unsplit : ';' ∉ pair.2.toList
  jobType_undivided : ',' ∉ pair.1.toList

instance (pair : String × String) : Decidable (Writable pair) :=
  decidable_of_iff
    (pair.1 ≠ "" ∧ pair.2 ≠ "" ∧ Text.strip pair.1 = pair.1 ∧ Text.strip pair.2 = pair.2 ∧ ';' ∉ pair.1.toList ∧
      ';' ∉ pair.2.toList ∧ ',' ∉ pair.1.toList)
    ⟨fun ⟨h₁, h₂, h₃, h₄, h₅, h₆, h₇⟩ => ⟨h₁, h₂, h₃, h₄, h₅, h₆, h₇⟩,
      fun ⟨h₁, h₂, h₃, h₄, h₅, h₆, h₇⟩ => ⟨h₁, h₂, h₃, h₄, h₅, h₆, h₇⟩⟩

/-- The segment that is written for a pair. -/
def segmentOf (pair : String × String) : String :=
  pair.1 ++ "," ++ pair.2

/-- The map that is written for some pairs. -/
def written (ps : List (String × String)) : String :=
  joined (ps.map segmentOf)

section

variable {pair : String × String}

theorem toList_segmentOf (pair : String × String) : (segmentOf pair).toList = pair.1.toList ++ ',' :: pair.2.toList := by
  simp [segmentOf]

theorem unsplit_segmentOf (h : Writable pair) : ';' ∉ (segmentOf pair).toList := by
  rw [toList_segmentOf, List.mem_append, List.mem_cons]
  rintro (hmem | heq | hmem)
  · exact h.jobType_unsplit hmem
  · exact absurd heq (by decide)
  · exact h.user_unsplit hmem

theorem segment_segmentOf (h : Writable pair) : segment (segmentOf pair).toList = pair := by
  have hbefore : ∀ c ∈ pair.1.toList, (c != ',') = true := fun c hc => bne_iff_ne.mpr fun heq => h.jobType_undivided (heq ▸ hc)
  have htake : (pair.1.toList ++ ',' :: pair.2.toList).takeWhile (· != ',') = pair.1.toList := by
    rw [List.takeWhile_append_of_pos hbefore]
    simp
  have hdrop : ((pair.1.toList ++ ',' :: pair.2.toList).dropWhile (· != ',')).drop 1 = pair.2.toList := by
    rw [List.dropWhile_append_of_pos hbefore]
    simp
  unfold segment
  rw [toList_segmentOf, htake, hdrop, String.ofList_toList, String.ofList_toList, h.strip_jobType, h.strip_user]

theorem pairs_segmentOf (h : Writable pair) : pairs (segmentOf pair) = [pair] := by
  unfold pairs
  rw [splitAt_eq_splitOn, List.splitOn_eq_singleton (unsplit_segmentOf h), List.map_singleton, segment_segmentOf h]
  simp [h.jobType_ne, h.user_ne]

theorem pairs_written {ps : List (String × String)} (h : ∀ pair ∈ ps, Writable pair) : pairs (written ps) = ps := by
  induction ps with
  | nil => rfl
  | cons first rest ih =>
    have hrest : pairs (written rest) = rest := ih fun pair hpair => h pair (List.mem_cons_of_mem _ hpair)
    unfold written at hrest ⊢
    rw [List.map_cons, pairs_joined_cons, pairs_segmentOf (h first List.mem_cons_self), hrest, List.singleton_append]

theorem writable_segment {part : List Char} (h : ';' ∉ part) (hjobType : (segment part).1 ≠ "")
    (huser : (segment part).2 ≠ "") : Writable (segment part) where
  jobType_ne := hjobType
  user_ne := huser
  strip_jobType := Text.strip_strip _
  strip_user := Text.strip_strip _
  jobType_unsplit hmem := by
    have hbefore := Text.mem_of_mem_strip hmem
    rw [String.toList_ofList] at hbefore
    exact h (List.takeWhile_subset _ hbefore)
  user_unsplit hmem := by
    have hafter := Text.mem_of_mem_strip hmem
    rw [String.toList_ofList] at hafter
    exact h ((List.dropWhile_suffix _).subset (List.mem_of_mem_drop hafter))
  jobType_undivided hmem := by
    have hbefore := Text.mem_of_mem_strip hmem
    rw [String.toList_ofList] at hbefore
    have hne : (',' != ',') = true := List.mem_takeWhile_imp (p := (· != ',')) hbefore
    exact absurd rfl (bne_iff_ne.mp hne)

theorem writable_of_mem_pairs {map : String} (h : pair ∈ pairs map) : Writable pair := by
  obtain ⟨⟨part, hpart, rfl⟩, hjobType, huser⟩ := mem_pairs.mp h
  exact writable_segment (not_mem_of_mem_splitAt hpart) hjobType huser

end

/-- What can be written into a map is read back from it, in its order. What is read from any map at all can be
    written, so the map that is written for it is read as that map was. -/
theorem written_pairs_are_read_back :
    (∀ ps : List (String × String), (∀ pair ∈ ps, Writable pair) → pairs (written ps) = ps) ∧
    ∀ map : String, (∀ pair ∈ pairs map, Writable pair) ∧ pairs (written (pairs map)) = pairs map := by
  refine ⟨fun ps => pairs_written, fun map => ?_⟩
  have hwritable : ∀ pair ∈ pairs map, Writable pair := fun pair => writable_of_mem_pairs
  exact ⟨hwritable, pairs_written hwritable⟩

/-- A user may be written with commas, and a job type with a blank inside. -/
theorem written_pairs_are_read_back_sample :
    (∀ pair ∈ [("spark", "etl,,x"), ("map reduce", "root")], Writable pair) ∧
      pairs (written [("spark", "etl,,x"), ("map reduce", "root")]) = [("spark", "etl,,x"), ("map reduce", "root")] ∧
      pairs (written (pairs " ;hive;\u00a0spark\x1f , etl,,x ;,root;pig,;map reduce,root;")) =
        [("spark", "etl,,x"), ("map reduce", "root")] := by
  obtain ⟨hwritten, hread⟩ := written_pairs_are_read_back
  obtain ⟨-, hagain⟩ := hread " ;hive;\u00a0spark\x1f , etl,,x ;,root;pig,;map reduce,root;"
  have hwritable : ∀ pair ∈ [("spark", "etl,,x"), ("map reduce", "root")], Writable pair := by decide
  exact ⟨hwritable, hwritten _ hwritable, hagain.trans (by decide)⟩

end Prefetch

end ImageRollout
