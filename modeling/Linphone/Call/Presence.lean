import Mathlib.Tactic.Common
import Mathlib.Algebra.GroupWithZero.Nat

/-!
# Presence of the user

What `call_received` reads of the presence model the user published (`coreapi/presence.c`): the
basic status, the first activity and the contact, and what it answers to an INVITE with them.
-/

namespace Linphone

inductive PresenceBasicStatus
  | «open» | closed
deriving DecidableEq

/-- `LinphonePresenceActivityType` -/
inductive PresenceActivityType
  | offline | online | appointment | away | breakfast | busy | dinner | holiday | inTransit
  | lookingForWork | lunch | meal | meeting | onThePhone | other | performance | permanentAbsence
  | playing | presentation | shopping | sleeping | spectator | steering | travel | tv | unknown
  | vacation | working | worship
deriving DecidableEq

structure PresenceService where
  status : PresenceBasicStatus
  contact : Option String := none

structure PresencePerson where
  activities : List PresenceActivityType := []

structure PresenceModel where
  services : List PresenceService := []
  persons : List PresencePerson := []

/-- `linphone_presence_model_get_basic_status`: open if one of the services is. -/
def presenceModelGetBasicStatus : Option PresenceModel → PresenceBasicStatus
  | none => .closed
  | some model =>
      model.services.foldl (fun status service => if service.status = .open then .open else status)
        .closed

/-- `linphone_presence_model_get_contact` -/
def PresenceModel.getContact (model : PresenceModel) : Option String :=
  model.services.foldl (fun contact service => contact <|> service.contact) none

/-- `linphone_presence_model_get_nb_activities` -/
def PresenceModel.getNbActivities (model : PresenceModel) : Nat :=
  model.persons.foldl (fun nb person => nb + person.activities.length) 0

/-- `struct _get_activity_st` -/
structure GetActivitySt where
  requestedIdx : Nat
  currentIdx : Nat := 0
  activity : Option PresenceActivityType := none

/-- `presence_model_get_activity`. It goes on after the activity it was asked for, and the last
person that qualifies wins. -/
def GetActivitySt.visit (st : GetActivitySt) (person : PresencePerson) : GetActivitySt :=
  if st.requestedIdx < st.currentIdx + person.activities.length then
    { st with activity := person.activities[st.requestedIdx - st.currentIdx]? }
  else { st with currentIdx := st.currentIdx + person.activities.length }

/-- `linphone_presence_model_get_nth_activity` -/
def presenceModelGetNthActivity (model : Option PresenceModel) (idx : Nat) :
    Option PresenceActivityType :=
  model.bind fun model =>
    if idx < model.getNbActivities then
      (model.persons.foldl GetActivitySt.visit { requestedIdx := idx }).activity
    else none

/-- `linphone_presence_model_get_activity` -/
def presenceModelGetActivity (model : Option PresenceModel) : Option PresenceActivityType :=
  presenceModelGetNthActivity model 0

/-- `linphone_presence_activity_get_type` -/
def presenceActivityGetType (activity : Option PresenceActivityType) : PresenceActivityType :=
  activity.getD .offline

/-- Whether `call_received` declines an INVITE when the basic status is closed. -/
def presenceDeclines (model : Option PresenceModel) : Bool :=
  match presenceActivityGetType (presenceModelGetActivity model) with
  | .busy | .appointment | .meeting | .offline | .worship => true
  | .permanentAbsence => (model.bind PresenceModel.getContact).isSome
  | _ => false

/-! ## What the functions compute -/

theorem foldl_basicStatus (l : List PresenceService) (status : PresenceBasicStatus) :
    l.foldl (fun status service => if service.status = .open then .open else status) status =
      .open ↔ status = .open ∨ ∃ service ∈ l, service.status = .open := by
  induction l generalizing status with
  | nil => simp
  | cons service l ih =>
      rw [List.foldl_cons, ih]
      by_cases h : service.status = .open
      · simp [h]
      · simp [h]

/-- Closed means that no service is open, or that nothing was published. -/
theorem presenceModelGetBasicStatus_closed (model : Option PresenceModel) :
    presenceModelGetBasicStatus model = .closed ↔
      ∀ m, model = some m → ∀ service ∈ m.services, service.status ≠ .open := by
  have hne : ∀ status : PresenceBasicStatus, status = .closed ↔ status ≠ .open := by
    intro status
    cases status <;> simp
  cases model with
  | none => simp [presenceModelGetBasicStatus]
  | some m =>
      rw [hne, presenceModelGetBasicStatus, ne_eq, foldl_basicStatus]
      simp

/-- The first activity of the last person that has one. -/
def PresenceModel.shownActivity (model : PresenceModel) : Option PresenceActivityType :=
  (model.persons.reverse.find? fun person => !person.activities.isEmpty).bind
    fun person => person.activities.head?

theorem foldl_visit_zero (l : List PresencePerson) (activity : Option PresenceActivityType) :
    l.foldl GetActivitySt.visit { requestedIdx := 0, activity := activity } =
      { requestedIdx := 0
        activity := ((l.reverse.find? fun person => !person.activities.isEmpty).bind
          fun person => person.activities.head?) <|> activity } := by
  induction l generalizing activity with
  | nil => simp
  | cons person l ih =>
      rw [List.foldl_cons]
      cases hp : person.activities with
      | nil => simp [GetActivitySt.visit, hp, ih, List.find?_append]
      | cons a as =>
          have hv : GetActivitySt.visit { requestedIdx := 0, activity := activity } person =
              { requestedIdx := 0, activity := some a } := by
            simp [GetActivitySt.visit, hp]
          rw [hv, ih]
          cases hl : l.reverse.find? fun person => !person.activities.isEmpty with
          | none => simp [hl, hp, List.find?_append]
          | some q =>
              have hq : q.activities ≠ [] := by simpa using List.find?_some hl
              obtain ⟨b, bs, hb⟩ := List.exists_cons_of_ne_nil hq
              simp [hl, hb, List.find?_append]

theorem foldl_count (l : List PresencePerson) (nb : Nat) :
    l.foldl (fun nb person => nb + person.activities.length) nb =
      nb + (l.map fun person => person.activities.length).sum := by
  induction l generalizing nb with
  | nil => simp
  | cons person l ih => rw [List.foldl_cons, ih, List.map_cons, List.sum_cons, Nat.add_assoc]

/-- With activities to count there is one to show, and the visits find it. -/
theorem presenceModelGetActivity_eq (model : Option PresenceModel) :
    presenceModelGetActivity model = model.bind PresenceModel.shownActivity := by
  cases model with
  | none => rfl
  | some m =>
      change (if 0 < m.getNbActivities then _ else _) = m.shownActivity
      rw [foldl_visit_zero]
      split
      · simp [PresenceModel.shownActivity]
      · rename_i hno
        have hsum : (m.persons.map fun person => person.activities.length).sum = 0 := by
          have hnb : m.getNbActivities = 0 := by omega
          rwa [PresenceModel.getNbActivities, foldl_count, Nat.zero_add] at hnb
        have hnone : m.persons.reverse.find? (fun person => !person.activities.isEmpty) =
            none := by
          rw [List.find?_eq_none]
          intro person hp
          rw [List.mem_reverse] at hp
          have hlen := List.sum_eq_zero_iff_forall_eq_nat.mp hsum _ (List.mem_map_of_mem hp)
          simp [List.eq_nil_of_length_eq_zero hlen]
        rw [PresenceModel.shownActivity, hnone]
        rfl

end Linphone
