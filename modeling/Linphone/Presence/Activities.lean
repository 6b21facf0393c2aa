import Linphone.Call.Presence

/-!
# Activities by number

`linphone_presence_model_get_nth_activity` (`coreapi/presence.c`) runs over all persons of the
model with the number it looks for and the number of activities passed so far. A person that holds
the activity sets the result but does not move the running number, so a later person long enough
is asked as if it stood in its place. The persons are given by their lists of activities, the
activities by their addresses `α`.
-/

namespace Linphone

variable {α : Type}

/-- `struct _get_activity_st` -/
structure ActivitySearch (α : Type) where
  requestedIdx : Nat
  currentIdx : Nat := 0
  activity : Option α := none

/-- `presence_model_get_activity` -/
def ActivitySearch.visit (st : ActivitySearch α) (activities : List α) : ActivitySearch α :=
  if st.requestedIdx < st.currentIdx + activities.length then
    { st with activity := activities[st.requestedIdx - st.currentIdx]? }
  else { st with currentIdx := st.currentIdx + activities.length }

/-- `linphone_presence_model_get_nb_activities` -/
def nbActivities (persons : List (List α)) : Nat :=
  persons.foldl (fun nb activities => nb + activities.length) 0

/-- `linphone_presence_model_get_nth_activity`, `none` being a NULL model -/
def nthActivity (model : Option (List (List α))) (idx : Nat) : Option α :=
  model.bind fun persons =>
    if nbActivities persons ≤ idx then none
    else (persons.foldl ActivitySearch.visit { requestedIdx := idx }).activity

theorem nbActivities_eq (persons : List (List α)) :
    nbActivities persons = persons.flatten.length := by
  have hfold : ∀ nb, persons.foldl (fun nb activities => nb + activities.length) nb =
      nb + persons.flatten.length := by
    induction persons with
    | nil => simp
    | cons activities persons ih =>
        intro nb
        rw [List.foldl_cons, ih, List.flatten_cons, List.length_append, Nat.add_assoc]
  rw [nbActivities, hfold, Nat.zero_add]

/-- What `call_received` reads is the same search over the types of the activities. -/
theorem presenceModelGetNthActivity_eq (model : PresenceModel) (idx : Nat) :
    presenceModelGetNthActivity (some model) idx =
      nthActivity (some (model.persons.map PresencePerson.activities)) idx := by
  have hvisit : ∀ (persons : List PresencePerson) (st : GetActivitySt),
      (persons.foldl GetActivitySt.visit st).activity =
        ((persons.map PresencePerson.activities).foldl ActivitySearch.visit
          ⟨st.requestedIdx, st.currentIdx, st.activity⟩).activity := by
    intro persons
    induction persons with
    | nil => exact fun _ => rfl
    | cons person persons ih =>
        intro st
        rw [List.foldl_cons, ih, List.map_cons, List.foldl_cons]
        by_cases hin : st.requestedIdx < st.currentIdx + person.activities.length
        · simp [GetActivitySt.visit, ActivitySearch.visit, hin]
        · simp [GetActivitySt.visit, ActivitySearch.visit, hin]
  have hnb : model.getNbActivities =
      nbActivities (model.persons.map PresencePerson.activities) := by
    rw [PresenceModel.getNbActivities, nbActivities, List.foldl_map]
  change (if idx < model.getNbActivities then _ else none) = if _ ≤ idx then none else _
  rw [← hnb, hvisit]
  by_cases hin : idx < model.getNbActivities
  · rw [if_pos hin, if_neg (by omega)]
  · rw [if_neg hin, if_pos (by omega)]

/-! ## What the search finds -/

/-- The activity under number `r`, where a person that holds it passes the same number on. -/
def lastHit : List (List α) → Nat → Option α
  | [], _ => none
  | activities :: persons, r =>
      if r < activities.length then (lastHit persons r).or activities[r]?
      else lastHit persons (r - activities.length)

theorem lastHit_inside {activities : List α} {r : Nat} (persons : List (List α))
    (hr : r < activities.length) :
    lastHit (activities :: persons) r = (lastHit persons r).or (some activities[r]) := by
  rw [lastHit, if_pos hr, List.getElem?_eq_getElem hr]

theorem lastHit_behind (activities : List α) (persons : List (List α)) (r : Nat) :
    lastHit (activities :: persons) (activities.length + r) = lastHit persons r := by
  rw [lastHit, if_neg (by omega), Nat.add_sub_cancel_left]

theorem foldl_search (persons : List (List α)) (st : ActivitySearch α)
    (hst : st.currentIdx ≤ st.requestedIdx) :
    (persons.foldl ActivitySearch.visit st).activity =
      (lastHit persons (st.requestedIdx - st.currentIdx)).or st.activity := by
  induction persons generalizing st with
  | nil => rfl
  | cons activities persons ih =>
      rw [List.foldl_cons, lastHit]
      by_cases hin : st.requestedIdx < st.currentIdx + activities.length
      · have hr : st.requestedIdx - st.currentIdx < activities.length := by omega
        have hlater := ih { st with activity := activities[st.requestedIdx - st.currentIdx]? } hst
        rw [ActivitySearch.visit, if_pos hin, if_pos hr, hlater, List.getElem?_eq_getElem hr,
          Option.or_assoc, Option.some_or]
      · rw [ActivitySearch.visit, if_neg hin, if_neg (by omega), ih _ (by dsimp only; omega)]
        dsimp only
        rw [Nat.sub_sub]

theorem lastHit_beyond (persons : List (List α)) (r : Nat) (hr : persons.flatten.length ≤ r) :
    lastHit persons r = none := by
  induction persons generalizing r with
  | nil => rfl
  | cons activities persons ih =>
      rw [List.flatten_cons, List.length_append] at hr
      rw [lastHit, if_neg (by omega)]
      exact ih _ (by omega)

theorem nthActivity_eq (persons : List (List α)) (idx : Nat) :
    nthActivity (some persons) idx = lastHit persons idx := by
  change (if nbActivities persons ≤ idx then none else _) = _
  rw [nbActivities_eq]
  by_cases hout : persons.flatten.length ≤ idx
  · rw [if_pos hout, lastHit_beyond persons idx hout]
  · rw [if_neg hout, foldl_search persons _ (Nat.zero_le _), Option.or_none, Nat.sub_zero]

/-! ## When it is the concatenation -/

/-- Two lists that hold the same wherever both hold something: one begins the other. -/
theorem begins_iff_agree (l m : List α) :
    (l <+: m ∨ m <+: l) ↔ ∀ r (hl : r < l.length) (hm : r < m.length), m[r] = l[r] := by
  constructor
  · rintro (h | h) r hl hm
    · exact (List.IsPrefix.getElem h hl).symm
    · exact List.IsPrefix.getElem h hm
  · intro h
    by_cases hlen : l.length ≤ m.length
    · refine .inl (List.prefix_iff_getElem.mpr ⟨hlen, ?_⟩)
      exact fun r hr => (h r hr (by omega)).symm
    · refine .inr (List.prefix_iff_getElem.mpr ⟨by omega, ?_⟩)
      exact fun r hr => h r (by omega) hr

/-- Every person agrees with what the later persons hold, one after the other. -/
def AgreeBehind : List (List α) → Prop
  | [] => True
  | activities :: persons =>
      (activities <+: persons.flatten ∨ persons.flatten <+: activities) ∧ AgreeBehind persons

theorem agreeBehind_iff (persons : List (List α)) :
    AgreeBehind persons ↔
      ∀ before activities after, persons = before ++ activities :: after →
        activities <+: after.flatten ∨ after.flatten <+: activities := by
  induction persons with
  | nil => simp [AgreeBehind]
  | cons first persons ih =>
      rw [AgreeBehind, ih]
      constructor
      · rintro ⟨hfirst, hrest⟩ before activities after heq
        cases before with
        | nil =>
            obtain ⟨rfl, rfl⟩ := List.cons.inj heq
            exact hfirst
        | cons other before =>
            obtain ⟨rfl, hpersons⟩ := List.cons.inj heq
            exact hrest before activities after hpersons
      · intro hall
        refine ⟨hall [] first persons rfl, ?_⟩
        intro before activities after heq
        exact hall (first :: before) activities after (by rw [heq, List.cons_append])

/-- The step of the induction over the persons. -/
theorem lastHit_cons_iff (activities : List α) (persons : List (List α)) :
    (∀ r, lastHit (activities :: persons) r = (activities :: persons).flatten[r]?) ↔
      (activities <+: persons.flatten ∨ persons.flatten <+: activities) ∧
        ∀ r, lastHit persons r = persons.flatten[r]? := by
  rw [begins_iff_agree, List.flatten_cons]
  constructor
  · intro h
    have hrest : ∀ r, lastHit persons r = persons.flatten[r]? := by
      intro r
      have hr := h (activities.length + r)
      rwa [lastHit_behind, List.getElem?_append_right (by omega), Nat.add_sub_cancel_left] at hr
    refine ⟨fun r hl hm => ?_, hrest⟩
    have hr := h r
    rw [lastHit_inside persons hl, hrest, List.getElem?_eq_getElem hm, Option.some_or,
      List.getElem?_append_left hl, List.getElem?_eq_getElem hl] at hr
    exact Option.some.inj hr
  · rintro ⟨hagree, hrest⟩ r
    by_cases hl : r < activities.length
    · rw [lastHit_inside persons hl, hrest, List.getElem?_append_left hl,
        List.getElem?_eq_getElem hl]
      by_cases hm : r < persons.flatten.length
      · rw [List.getElem?_eq_getElem hm, Option.some_or, hagree r hl hm]
      · rw [List.getElem?_eq_none (by omega), Option.none_or]
    · obtain ⟨k, rfl⟩ := Nat.exists_eq_add_of_le (Nat.le_of_not_lt hl)
      rw [lastHit_behind, hrest, List.getElem?_append_right (by omega), Nat.add_sub_cancel_left]

theorem lastHit_flatten_iff (persons : List (List α)) :
    (∀ r, lastHit persons r = persons.flatten[r]?) ↔ AgreeBehind persons := by
  induction persons with
  | nil => simp [lastHit, AgreeBehind]
  | cons activities persons ih => rw [lastHit_cons_iff, ih, AgreeBehind]

/-- **The activities by number are those of the persons one after the other exactly when every
person agrees, number by number, with what the later persons hold together.** -/
theorem activities_in_order_iff (persons : List (List α)) :
    (∀ idx,
      (idx < nbActivities persons →
        ∃ h : idx < persons.flatten.length,
          nthActivity (some persons) idx = some persons.flatten[idx]) ∧
      (nbActivities persons ≤ idx → nthActivity (some persons) idx = none)) ↔
    ∀ before activities after, persons = before ++ activities :: after →
      activities <+: after.flatten ∨ after.flatten <+: activities := by
  rw [← agreeBehind_iff, ← lastHit_flatten_iff, nbActivities_eq]
  refine forall_congr' fun idx => ?_
  rw [nthActivity_eq]
  constructor
  · rintro ⟨hin, hout⟩
    by_cases hidx : idx < persons.flatten.length
    · obtain ⟨_, heq⟩ := hin hidx
      rw [heq, List.getElem?_eq_getElem hidx]
    · rw [hout (by omega), List.getElem?_eq_none (by omega)]
  · intro heq
    refine ⟨fun hidx => ⟨hidx, ?_⟩, fun hidx => ?_⟩
    · rw [heq, List.getElem?_eq_getElem hidx]
    · rw [heq, List.getElem?_eq_none hidx]

/-- Two persons with one activity each: the first activity is that of the second person. -/
theorem first_activity_hidden :
    ¬ ∀ (persons : List (List Nat)) (idx : Nat),
      nthActivity (some persons) idx =
        if idx < nbActivities persons then persons.flatten[idx]? else none := by
  intro h
  exact absurd (h [[1], [2]] 0) (by decide)

end Linphone
