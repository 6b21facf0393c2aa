import Linphone.Presence.Pidf

/-!
# Presence models and their documents

A model is written as a document and read again. `pidf_round_trip_iff`: the same model is found,
with the entity for the contact of a service that has none, exactly when no person has nothing but
notes about activities and every time is kept.
-/

namespace Linphone

open Xml (Node)

/-! ## Models that can be written -/

/-- A note has a text, and no empty language. -/
def LinphonePresenceNote.Written (note : LinphonePresenceNote) : Prop :=
  note.content ≠ "" ∧ note.lang ≠ some ""

structure LinphonePresenceService.Written (service : LinphonePresenceService) : Prop where
  id : ∃ id, service.id = some id ∧ id ≠ ""
  contact : service.contact ≠ some ""
  notes : ∀ note ∈ service.notes, note.Written

/-- An activity has a name, and no empty description. -/
def LinphonePresenceActivity.Written (activity : LinphonePresenceActivity) : Prop :=
  activity.type ≠ .offline ∧ activity.type ≠ .online ∧ activity.description ≠ some ""

/-- A person has an activity or a note of some kind. -/
structure LinphonePresencePerson.Written (person : LinphonePresencePerson) : Prop where
  id : ∃ id, person.id = some id ∧ id ≠ ""
  activities : ∀ activity ∈ person.activities, activity.Written
  activitiesNotes : ∀ note ∈ person.activitiesNotes, note.Written
  notes : ∀ note ∈ person.notes, note.Written
  some : person.activities ≠ [] ∨ person.activitiesNotes ≠ [] ∨ person.notes ≠ []

/-- A model with a service, whose persons have an activity or a note, whose activities have a name,
and whose ids, texts and contacts are not empty. -/
structure LinphonePresenceModel.Written (entity : String) (model : LinphonePresenceModel) :
    Prop where
  entity : entity ≠ ""
  some : model.services ≠ []
  services : ∀ service ∈ model.services, service.Written
  persons : ∀ person ∈ model.persons, person.Written
  notes : ∀ note ∈ model.notes, note.Written

/-- A service with its contact, or else the entity. -/
def LinphonePresenceService.seen (entity : String) (service : LinphonePresenceService) :
    LinphonePresenceService :=
  { service with contact := some (service.contact.getD entity) }

/-- The model that a peer is to see. -/
def LinphonePresenceModel.seen (entity : String) (model : LinphonePresenceModel) :
    LinphonePresenceModel :=
  { model with services := model.services.map (LinphonePresenceService.seen entity) }

/-! ## Names and texts -/

section

variable {name name' : String}

theorem filter_named {nodes : List Node} (hnodes : ∀ node ∈ nodes, isNamed name node = true) :
    nodes.filter (isNamed name) = nodes := List.filter_eq_self.mpr hnodes

theorem filter_named_other {nodes : List Node}
    (hnodes : ∀ node ∈ nodes, isNamed name' node = true) (name : String) (hne : name' ≠ name) :
    nodes.filter (isNamed name) = [] := by
  rw [List.filter_eq_nil_iff]
  intro node hnode hnamed
  have hother := hnodes node hnode
  cases node with
  | element n attrs children =>
      simp only [isNamed, decide_eq_true_eq] at hnamed hother
      exact hne (hother.symm.trans hnamed)
  | text s => simp [isNamed] at hnamed
  | reference => simp [isNamed] at hnamed

@[simp] theorem childrenText_element {attrs : List (String × Option String)} {s : String}
    (hs : s ≠ "") : childrenText (.element name attrs (textChildren s)) = some s := by
  simp [childrenText, nodeChildren, textChildren, hs, String.join]

theorem getXmlTextContent_single (text : Node → Option String) (node : Node) :
    getXmlTextContent text [node] = text node := by
  simp [getXmlTextContent]

theorem nodeContent_element (name : String) (attrs : List (String × Option String)) (s : String) :
    nodeContent (.element name attrs (textChildren s)) = s := by
  by_cases hs : s = ""
  · simp [textChildren, hs, nodeContent, nodesContent]
  · simp [textChildren, hs, nodeContent, nodesContent]

/-! ## Notes -/

theorem isNamed_writePresenceNote (note : LinphonePresenceNote) :
    isNamed name (writePresenceNote name note) = true := by
  simp [writePresenceNote, isNamed]

theorem all_writePresenceNote (name : String) (notes : List LinphonePresenceNote) :
    ∀ node ∈ notes.map (writePresenceNote name), isNamed name node = true := by
  intro node hnode
  obtain ⟨note, _, rfl⟩ := List.mem_map.mp hnode
  exact isNamed_writePresenceNote note

theorem filterMap_range_getElem? {α β : Type} (f : α → Option β) (l : List α) :
    (List.range l.length).filterMap (fun i => (l[i]?).bind f) = l.filterMap f := by
  induction l with
  | nil => rfl
  | cons a l ih =>
      rw [List.length_cons, List.range_succ_eq_map, List.filterMap_cons, List.filterMap_map,
        List.filterMap_cons]
      simp only [List.getElem?_cons_zero, Option.bind_some]
      rw [show ((fun i => ((a :: l)[i]?).bind f) ∘ Nat.succ) = fun i => (l[i]?).bind f from by
        funext i; simp, ih]

/-- The notes of one parent. -/
theorem processNotes_single (parent : Node) :
    processNotes name [parent] = (named name parent).filterMap fun node =>
      (childrenText node).map fun content =>
        { lang := attrText "xml:lang" node, content := content } := by
  rw [← filterMap_range_getElem?]
  unfold processNotes
  simp only [List.flatMap_cons, List.flatMap_nil, List.append_nil]
  refine List.filterMap_congr fun i _ => ?_
  cases hnode : (named name parent)[i]? with
  | none => simp [hnode, getXmlTextContent]
  | some node => simp [hnode, getXmlTextContent_single]

theorem note_read_back {note : LinphonePresenceNote} (hnote : note.Written) :
    ((childrenText (writePresenceNote name note)).map fun content =>
      ({ lang := attrText "xml:lang" (writePresenceNote name note), content := content } :
        LinphonePresenceNote)) = some note := by
  obtain ⟨lang, content⟩ := note
  obtain ⟨hcontent, hlang⟩ := hnote
  cases lang with
  | none => simp [writePresenceNote, hcontent, attrText]
  | some lang =>
      have hlang : lang ≠ "" := fun heq => hlang (by rw [heq])
      simp [writePresenceNote, hcontent, attrText, hlang]

/-- **The notes of an element are read back.** -/
theorem processNotes_written {parent : Node} {notes : List LinphonePresenceNote}
    (hparent : named name parent = notes.map (writePresenceNote name))
    (hnotes : ∀ note ∈ notes, note.Written) : processNotes name [parent] = notes := by
  rw [processNotes_single, hparent, List.filterMap_map]
  have hread : ∀ note ∈ notes, ((fun node : Node =>
      (childrenText node).map fun content =>
        ({ lang := attrText "xml:lang" node, content := content } : LinphonePresenceNote)) ∘
          writePresenceNote name) note = some note := fun note hnote =>
    note_read_back (hnotes note hnote)
  rw [List.filterMap_congr hread, List.filterMap_some]

end

/-! ## Services -/

section

variable {env : PresenceEnv}

theorem rfc3339_ne_empty {timestamp : Int} {text : String}
    (htext : timestampToRfc3339String env.time timestamp = some text) : text ≠ "" := by
  obtain ⟨tm, _, rfl⟩ := Option.map_eq_some_iff.mp htext
  have hcons : tm.rfc3339.take 21 ≠ [] := by
    simp [BrokenDownTime.rfc3339, List.take_eq_nil_iff]
  intro hempty
  exact hcons (by simpa using congrArg String.toList hempty)

theorem processTimestamp_element {name text : String} {attrs : List (String × Option String)}
    {children : List Node} (htext : text ≠ "")
    (hchildren : children.filter (isNamed "timestamp") = []) :
    processTimestamp env (.element name attrs (children ++ [textElement "timestamp" text])) =
      parseTimestamp env.time text := by
  have hnamed : named "timestamp" (.element name attrs
      (children ++ [textElement "timestamp" text])) = [textElement "timestamp" text] := by
    simp [named, nodeChildren, hchildren, isNamed, textElement]
  rw [processTimestamp, hnamed, getXmlTextContent_single, textElement, childrenText_element htext]

/-- The element of a service. -/
def serviceNode (entity text : String) (service : LinphonePresenceService) : Node :=
  .element "tuple" [("id", some (service.id.getD ""))]
    ([.element "status" [] [textElement "basic" service.status.toText],
      .element "contact" [("priority", some "0.8")]
        (textChildren (service.contact.getD entity))] ++
      service.notes.map (writePresenceNote "note") ++ [textElement "timestamp" text])

/-- **A service is read back**, with the time that its text gives. -/
theorem processService_serviceNode {entity text : String} {service : LinphonePresenceService}
    (hentity : entity ≠ "") (htext : text ≠ "") (hservice : service.Written) :
    processService env (serviceNode entity text service) =
      some (some { service.seen entity with timestamp := parseTimestamp env.time text }) := by
  have hnotes := all_writePresenceNote "note" service.notes
  have hstatus : named "status" (serviceNode entity text service) =
      [.element "status" [] [textElement "basic" service.status.toText]] := by
    simp [named, serviceNode, nodeChildren, isNamed, textElement,
      filter_named_other hnotes "status" (by decide)]
  have hcontact : named "contact" (serviceNode entity text service) =
      [.element "contact" [("priority", some "0.8")]
        (textChildren (service.contact.getD entity))] := by
    simp [named, serviceNode, nodeChildren, isNamed, textElement,
      filter_named_other hnotes "contact" (by decide)]
  have hnote : named "note" (serviceNode entity text service) =
      service.notes.map (writePresenceNote "note") := by
    simp [named, serviceNode, nodeChildren, isNamed, textElement, filter_named hnotes]
  have htimestamp : processTimestamp env (serviceNode entity text service) =
      parseTimestamp env.time text := by
    refine processTimestamp_element htext ?_
    simp [isNamed, filter_named_other hnotes "timestamp" (by decide)]
  have hid : getXmlTextContent (attrText "id") [serviceNode entity text service] = service.id := by
    obtain ⟨id, hid, hne⟩ := hservice.id
    simp [getXmlTextContent_single, attrText, serviceNode, hid, hne]
  have hcontactText : getXmlTextContent childrenText (named "contact"
      (serviceNode entity text service)) = some (service.contact.getD entity) := by
    have hne : service.contact.getD entity ≠ "" := by
      cases hc : service.contact with
      | none => exact hentity
      | some contact => exact fun heq => hservice.contact (by rw [hc]; exact congrArg some heq)
    rw [hcontact, getXmlTextContent_single, childrenText_element hne]
  have hbasic : getXmlTextContent childrenText ((named "status"
      (serviceNode entity text service)).flatMap (named "basic")) =
        some service.status.toText := by
    have hne : service.status.toText ≠ "" := by cases service.status <;> decide
    rw [hstatus]
    simp [named, nodeChildren, isNamed, textElement, getXmlTextContent_single, hne]
  unfold processService
  simp only [hbasic, hid, hcontactText, processNotes_written hnote hservice.notes, htimestamp]
  obtain ⟨id, status, contact, notes, timestamp⟩ := service
  cases status with
  | «open» => rfl
  | closed => rfl

/-! ## Activities -/

theorem activity_name {type : PresenceActivityType} (hoffline : type ≠ .offline)
    (honline : type ≠ .online) :
    ∃ name, activityTypeToText type = some name ∧ activityNameToType name = some type ∧
      name ≠ "note" := by
  cases type with
  | offline => exact absurd rfl hoffline
  | online => exact absurd rfl honline
  | _ => exact ⟨_, rfl, by decide, by decide⟩

theorem rpidName_prefix (name : String) (attrs : List (String × Option String))
    (children : List Node) : rpidName (.element ("rpid:" ++ name) attrs children) = some name := by
  simp [rpidName, String.toList_append]

/-- The element of an activity. -/
def activityNode (activity : LinphonePresenceActivity) : Node :=
  .element ("rpid:" ++ (activityTypeToText activity.type).getD "") []
    (textChildren (activity.description.getD ""))

section

variable {activity : LinphonePresenceActivity}

theorem writePresenceActivity_eq (hactivity : activity.Written) :
    writePresenceActivity activity = some [activityNode activity] := by
  obtain ⟨hoffline, honline, _⟩ := hactivity
  obtain ⟨name, hname, _, _⟩ := activity_name hoffline honline
  simp [writePresenceActivity, isValidActivity, hoffline, honline, activityNode, hname]

theorem isNamed_note_activityNode (hactivity : activity.Written) :
    isNamed "rpid:note" (activityNode activity) = false := by
  obtain ⟨hoffline, honline, _⟩ := hactivity
  obtain ⟨name, hname, _, hnote⟩ := activity_name hoffline honline
  have hne : "rpid:" ++ name ≠ "rpid:note" := by
    intro heq
    have hlist := congrArg String.toList heq
    rw [String.toList_append] at hlist
    have hrest : name.toList = "note".toList := by simpa using hlist
    exact hnote (String.toList_inj.mp hrest)
  simp [activityNode, isNamed, hname, hne]

/-- **An activity is read back.** -/
theorem processActivity_activityNode (hactivity : activity.Written) :
    processActivity (activityNode activity) = some activity := by
  obtain ⟨type, description⟩ := activity
  obtain ⟨hoffline, honline, hdescription⟩ := hactivity
  obtain ⟨name, hname, htype, _⟩ := activity_name hoffline honline
  have hcontent := nodeContent_element ("rpid:" ++ name) [] (description.getD "")
  simp only [processActivity, activityNode, hname, Option.getD_some, rpidName_prefix, hcontent]
  cases description with
  | none => simp [htype]
  | some text =>
      have hne : text ≠ "" := fun heq => hdescription (by rw [heq])
      simp [htype, hne]

theorem processActivity_note (note : LinphonePresenceNote) :
    processActivity (writePresenceNote "rpid:note" note) = none := by
  have hname : rpidName (writePresenceNote "rpid:note" note) = some "note" :=
    rpidName_prefix "note" _ _
  have hnote : activityNameToType "note" = none := by decide
  simp [processActivity, hname, hnote]

end

/-! ## Persons -/

/-- The element of the activities, when there is one. -/
def activitiesNodes (person : LinphonePresencePerson) : List Node :=
  if person.activitiesNotes = [] ∧ person.activities = [] then []
  else [.element "rpid:activities" []
    (person.activitiesNotes.map (writePresenceNote "rpid:note") ++
      person.activities.map activityNode)]

/-- The element of a person. -/
def personNode (text : String) (person : LinphonePresencePerson) : Node :=
  .element "dm:person" [("id", some (person.id.getD ""))]
    (activitiesNodes person ++ person.notes.map (writePresenceNote "dm:note") ++
      [textElement "timestamp" text])

section

variable {person : LinphonePresencePerson}

theorem hasValidActivities_iff (hactivities : ∀ activity ∈ person.activities, activity.Written) :
    hasValidActivities person = true ↔ person.activities ≠ [] := by
  unfold hasValidActivities
  cases hcons : person.activities with
  | nil => simp
  | cons activity rest =>
      obtain ⟨hoffline, honline, _⟩ := hactivities activity (by rw [hcons]; simp)
      simp [isValidActivity, hoffline, honline]

theorem writePresenceActivities_eq
    (hactivities : ∀ activity ∈ person.activities, activity.Written) :
    writePresenceActivities person = some (activitiesNodes person) := by
  have hwrite : person.activities.mapM writePresenceActivity =
      some (person.activities.map fun activity => [activityNode activity]) :=
    Xml.mapM_eq_some_map fun activity hmem => writePresenceActivity_eq (hactivities activity hmem)
  have hvalid := hasValidActivities_iff hactivities
  unfold writePresenceActivities activitiesNodes
  by_cases hempty : person.activitiesNotes = [] ∧ person.activities = []
  · have hnone : hasValidActivities person = false := by
      rw [← Bool.not_eq_true, hvalid]
      exact fun hne => hne hempty.2
    simp [hempty.1, hempty.2, hnone]
  · have hsome : (!person.activitiesNotes.isEmpty || hasValidActivities person) = true := by
      rw [Bool.or_eq_true, hvalid, Bool.not_eq_true', List.isEmpty_eq_false_iff]
      exact not_and_or.mp hempty
    have hflat : (person.activities.map fun activity => [activityNode activity]).flatten =
        person.activities.map activityNode := by
      rw [← List.flatMap_def, ← List.map_eq_flatMap]
    rw [if_pos hsome, if_neg hempty, hwrite]
    simp [hflat]

/-- **The activities and the notes about them are read back.** -/
theorem processActivities_nodes (hactivities : ∀ activity ∈ person.activities, activity.Written)
    (hnotes : ∀ note ∈ person.activitiesNotes, note.Written) :
    ((activitiesNodes person).flatMap fun node =>
        (nodeChildren node).filterMap processActivity) = person.activities ∧
      processNotes "rpid:note" (activitiesNodes person) = person.activitiesNotes := by
  unfold activitiesNodes
  by_cases hempty : person.activitiesNotes = [] ∧ person.activities = []
  · rw [if_pos hempty, hempty.1, hempty.2]
    exact ⟨rfl, rfl⟩
  · rw [if_neg hempty]
    constructor
    · have hnone : ∀ note ∈ person.activitiesNotes,
          (processActivity ∘ writePresenceNote "rpid:note") note = none := fun note _ =>
        processActivity_note note
      have hback : ∀ activity ∈ person.activities,
          (processActivity ∘ activityNode) activity = some activity := fun activity hmem =>
        processActivity_activityNode (hactivities activity hmem)
      simp only [List.flatMap_cons, List.flatMap_nil, List.append_nil, nodeChildren,
        List.filterMap_append, List.filterMap_map]
      rw [List.filterMap_congr hnone, List.filterMap_congr hback, List.filterMap_some]
      simp
    · refine processNotes_written ?_ hnotes
      have hother : (person.activities.map activityNode).filter (isNamed "rpid:note") = [] := by
        rw [List.filter_eq_nil_iff]
        intro node hnode
        obtain ⟨activity, hmem, rfl⟩ := List.mem_map.mp hnode
        simp [isNamed_note_activityNode (hactivities activity hmem)]
      simp [named, nodeChildren, filter_named (all_writePresenceNote _ _), hother]

/-- A person who is written: one with an activity or a note of his own. -/
def IsShown (person : LinphonePresencePerson) : Prop :=
  person.activities ≠ [] ∨ person.notes ≠ []

instance (person : LinphonePresencePerson) : Decidable (IsShown person) :=
  inferInstanceAs (Decidable (_ ∨ _))

theorem writePresencePerson_eq {newId : String} (hperson : person.Written) :
    writePresencePerson env newId person =
      if IsShown person then
        (timestampToRfc3339String env.time person.timestamp).map fun text =>
          [personNode text person]
      else some [] := by
  have hskipped : (!hasValidActivities person && person.notes.isEmpty) = true ↔
      ¬ IsShown person := by
    rw [Bool.and_eq_true, Bool.not_eq_true', ← Bool.not_eq_true,
      hasValidActivities_iff hperson.activities, List.isEmpty_iff, IsShown, not_or, not_not,
      not_not]
  obtain ⟨id, hid, _⟩ := hperson.id
  unfold writePresencePerson
  by_cases hshown : IsShown person
  · rw [if_neg (fun hskip => hskipped.mp hskip hshown), if_pos hshown,
      writePresenceActivities_eq hperson.activities, writePresenceTimestamp]
    cases timestampToRfc3339String env.time person.timestamp with
    | none => rfl
    | some text => simp [personNode, hid]
  · rw [if_pos (hskipped.mpr hshown), if_neg hshown]

/-- **A person is read back**, with the time that the text gives. -/
theorem processPerson_personNode {text : String} (htext : text ≠ "") (hperson : person.Written) :
    processPerson env (personNode text person) =
      { person with timestamp := parseTimestamp env.time text } := by
  have hnotes := all_writePresenceNote "dm:note" person.notes
  have hactivities : ∀ node ∈ activitiesNodes person, isNamed "rpid:activities" node = true := by
    intro node hnode
    unfold activitiesNodes at hnode
    split at hnode
    · simp at hnode
    · rw [List.mem_singleton.mp hnode]
      simp [isNamed]
  have hnamed : named "rpid:activities" (personNode text person) = activitiesNodes person := by
    simp [named, personNode, nodeChildren, filter_named hactivities, isNamed, textElement,
      filter_named_other hnotes "rpid:activities" (by decide)]
  have hnote : named "dm:note" (personNode text person) =
      person.notes.map (writePresenceNote "dm:note") := by
    simp [named, personNode, nodeChildren, filter_named hnotes, isNamed, textElement,
      filter_named_other hactivities "dm:note" (by decide)]
  have htimestamp : processTimestamp env (personNode text person) =
      parseTimestamp env.time text := by
    refine processTimestamp_element htext ?_
    simp [filter_named_other hnotes "timestamp" (by decide),
      filter_named_other hactivities "timestamp" (by decide)]
  have hid : getXmlTextContent (attrText "id") [personNode text person] = person.id := by
    obtain ⟨id, hid, hne⟩ := hperson.id
    simp [getXmlTextContent_single, attrText, personNode, hid, hne]
  obtain ⟨hread, hreadNotes⟩ := processActivities_nodes hperson.activities hperson.activitiesNotes
  unfold processPerson
  rw [hid, hnamed, hread, hreadNotes, processNotes_written hnote hperson.notes, htimestamp]

end

/-! ## Models -/

section

variable {entity : String} {model : LinphonePresenceModel}

theorem mapIdx_mapM {α β : Type} {f : Nat → α → Option β} {g : α → Option β} {l : List α}
    (h : ∀ i, ∀ a ∈ l, f i a = g a) : (l.mapIdx f).mapM id = l.mapM g := by
  induction l generalizing f with
  | nil => rfl
  | cons a l ih =>
      have hrest := ih (f := fun i => f (i + 1)) fun i b hb =>
        h (i + 1) b (List.mem_cons_of_mem a hb)
      rw [List.mapIdx_cons, List.mapM_cons, List.mapM_cons, hrest, id, h 0 a List.mem_cons_self]

theorem isSome_of_mapM {α β : Type} {f : α → Option β} {l : List α} {r : List β}
    (h : l.mapM f = some r) : ∀ a ∈ l, (f a).isSome := by
  induction l generalizing r with
  | nil => simp
  | cons a l ih =>
      rw [List.mapM_cons] at h
      obtain ⟨b, hb, h⟩ := Option.bind_eq_some_iff.mp h
      obtain ⟨rest, hrest, _⟩ := Option.bind_eq_some_iff.mp h
      intro x hx
      rcases List.mem_cons.mp hx with rfl | hx
      · rw [hb]; rfl
      · exact ih hrest x hx

/-- The text of a time. -/
def stampText (env : PresenceEnv) (timestamp : Int) : String :=
  (timestampToRfc3339String env.time timestamp).getD ""

/-- The time that is read from the text of a time. -/
def reparsed (env : PresenceEnv) (timestamp : Int) : Int :=
  parseTimestamp env.time (stampText env timestamp)

/-- A time can be written. -/
def Stamped (env : PresenceEnv) (timestamp : Int) : Prop :=
  (timestampToRfc3339String env.time timestamp).isSome

theorem stamped_eq {timestamp : Int} (hstamped : Stamped env timestamp) :
    timestampToRfc3339String env.time timestamp = some (stampText env timestamp) := by
  obtain ⟨text, htext⟩ := Option.isSome_iff_exists.mp hstamped
  rw [stampText, htext]
  rfl

theorem kept_iff (timestamp : Int) :
    TimestampKept env.time timestamp ↔ Stamped env timestamp ∧
      reparsed env timestamp = timestamp := by
  rw [← parse_toString_iff]
  constructor
  · intro hkept
    obtain ⟨text, htext, hparse⟩ := Option.map_eq_some_iff.mp hkept
    refine ⟨by rw [Stamped, htext]; rfl, ?_⟩
    rw [reparsed, stampText, htext]
    exact hparse
  · rintro ⟨hstamped, hparse⟩
    rw [stamped_eq hstamped, Option.map_some]
    exact congrArg some hparse

theorem writePresenceServices_eq (hsome : model.services ≠ [])
    (hservices : ∀ service ∈ model.services, service.Written) :
    writePresenceServices env entity model.services =
      model.services.mapM fun service =>
        (timestampToRfc3339String env.time service.timestamp).map fun text =>
          serviceNode entity text service := by
  have hempty : model.services.isEmpty = false := by
    rw [List.isEmpty_eq_false_iff]
    exact hsome
  unfold writePresenceServices
  rw [hempty]
  refine mapIdx_mapM fun i service hmem => ?_
  obtain ⟨id, hid, _⟩ := (hservices service hmem).id
  unfold writePresenceService writePresenceTimestamp
  cases timestampToRfc3339String env.time service.timestamp with
  | none => rfl
  | some text => simp [serviceNode, hid]

theorem writePresencePersons_eq (used : Nat)
    (hpersons : ∀ person ∈ model.persons, person.Written) :
    writePresencePersons env used model.persons =
      (model.persons.mapM fun person =>
        if IsShown person then
          (timestampToRfc3339String env.time person.timestamp).map fun text =>
            [personNode text person]
        else some []).map List.flatten := by
  unfold writePresencePersons
  rw [mapIdx_mapM (f := fun i => writePresencePerson env (env.generatePresenceId (used + i)))
    fun i person hmem => writePresencePerson_eq (hpersons person hmem), Option.map_eq_bind]
  rfl

/-- The document of a model. -/
def modelNode (env : PresenceEnv) (entity : String) (model : LinphonePresenceModel) : Node :=
  .element "presence"
    [("xmlns", some "urn:ietf:params:xml:ns:pidf"),
      ("xmlns:dm", some "urn:ietf:params:xml:ns:pidf:data-model"),
      ("xmlns:rpid", some "urn:ietf:params:xml:ns:pidf:rpid"), ("entity", some entity)]
    (model.services.map (fun service =>
        serviceNode entity (stampText env service.timestamp) service) ++
      (model.persons.filter IsShown).map (fun person =>
        personNode (stampText env person.timestamp) person) ++
      model.notes.map (writePresenceNote "note"))

/-- The times of a document can be written. -/
def ModelStamped (env : PresenceEnv) (model : LinphonePresenceModel) : Prop :=
  (∀ service ∈ model.services, Stamped env service.timestamp) ∧
    ∀ person ∈ model.persons.filter IsShown, Stamped env person.timestamp

theorem flatten_map_ite {α β : Type} (p : α → Prop) [DecidablePred p] (f : α → β) (l : List α) :
    (l.map fun a => if p a then [f a] else []).flatten = (l.filter p).map f := by
  induction l with
  | nil => rfl
  | cons a l ih =>
      by_cases ha : p a
      · simp [ha, ih]
      · simp [ha, ih]

theorem persons_written {persons : List LinphonePresencePerson}
    (hstamped : ∀ person ∈ persons.filter IsShown, Stamped env person.timestamp) :
    (persons.mapM fun person =>
        if IsShown person then
          (timestampToRfc3339String env.time person.timestamp).map fun text =>
            [personNode text person]
        else some []).map List.flatten =
      some ((persons.filter IsShown).map fun person =>
        personNode (stampText env person.timestamp) person) := by
  have hwrite : ∀ person ∈ persons, (if IsShown person then
      (timestampToRfc3339String env.time person.timestamp).map fun text =>
        [personNode text person]
      else some []) = some (if IsShown person then
        [personNode (stampText env person.timestamp) person] else []) := by
    intro person hmem
    by_cases hshown : IsShown person
    · rw [if_pos hshown, if_pos hshown,
        stamped_eq (hstamped person (List.mem_filter.mpr ⟨hmem, by simpa using hshown⟩))]
      rfl
    · rw [if_neg hshown, if_neg hshown]
  rw [Xml.mapM_eq_some_map hwrite, Option.map_some, flatten_map_ite]

/-- **A model is written when its times can be.** -/
theorem convertPresenceToXml_eq (hmodel : model.Written entity)
    (hstamped : ModelStamped env model) :
    convertPresenceToXml env entity model = some (modelNode env entity model) := by
  have hservices : (model.services.mapM fun service =>
      (timestampToRfc3339String env.time service.timestamp).map fun text =>
        serviceNode entity text service) =
      some (model.services.map fun service =>
        serviceNode entity (stampText env service.timestamp) service) :=
    Xml.mapM_eq_some_map fun service hmem => by rw [stamped_eq (hstamped.1 service hmem)]; rfl
  unfold convertPresenceToXml
  rw [writePresenceServices_eq hmodel.some hmodel.services, hservices,
    writePresencePersons_eq _ hmodel.persons, persons_written hstamped.2]
  rfl

/-- A document that is written has times that can be. -/
theorem stamped_of_convert (hmodel : model.Written entity) {doc : Node}
    (hdoc : convertPresenceToXml env entity model = some doc) : ModelStamped env model := by
  unfold convertPresenceToXml at hdoc
  rw [writePresenceServices_eq hmodel.some hmodel.services,
    writePresencePersons_eq _ hmodel.persons] at hdoc
  obtain ⟨services, hservices, hdoc⟩ := Option.bind_eq_some_iff.mp hdoc
  obtain ⟨persons, hpersons, _⟩ := Option.bind_eq_some_iff.mp hdoc
  constructor
  · intro service hmem
    have hsome := isSome_of_mapM hservices service hmem
    rwa [Option.isSome_map] at hsome
  · intro person hmem
    obtain ⟨hmem, hshown⟩ := List.mem_filter.mp hmem
    obtain ⟨nodes, hnodes, _⟩ := Option.map_eq_some_iff.mp hpersons
    have hsome := isSome_of_mapM hnodes person hmem
    rw [if_pos (by simpa using hshown), Option.isSome_map] at hsome
    exact hsome

variable (env) in
theorem all_serviceNode (entity : String) (services : List LinphonePresenceService) :
    ∀ node ∈ services.map (fun service =>
      serviceNode entity (stampText env service.timestamp) service),
      isNamed "tuple" node = true := by
  intro node hnode
  obtain ⟨service, _, rfl⟩ := List.mem_map.mp hnode
  simp [serviceNode, isNamed]

variable (env) in
theorem all_personNode (persons : List LinphonePresencePerson) :
    ∀ node ∈ persons.map (fun person => personNode (stampText env person.timestamp) person),
      isNamed "dm:person" node = true := by
  intro node hnode
  obtain ⟨person, _, rfl⟩ := List.mem_map.mp hnode
  simp [personNode, isNamed]

theorem reduceOption_map_some {α β : Type} (f : α → β) (l : List α) :
    (l.map fun a => some (f a)).reduceOption = l.map f := by
  change List.filterMap id _ = _
  rw [List.filterMap_map]
  exact congrFun List.filterMap_eq_map' l

/-- **What is read of the document of a model.** -/
theorem processPidfNotification_modelNode (hmodel : model.Written entity)
    (hstamped : ModelStamped env model) :
    processPidfNotification env (modelNode env entity model) =
      some {
        services := model.services.map fun service =>
          { service.seen entity with timestamp := reparsed env service.timestamp }
        persons := (model.persons.filter IsShown).map fun person =>
          { person with timestamp := reparsed env person.timestamp }
        notes := model.notes } := by
  have hservices := all_serviceNode env entity model.services
  have hpersons := all_personNode env (model.persons.filter IsShown)
  have hnotes := all_writePresenceNote "note" model.notes
  have htuple : named "tuple" (modelNode env entity model) = model.services.map fun service =>
      serviceNode entity (stampText env service.timestamp) service := by
    simp only [named, modelNode, nodeChildren, List.filter_append, filter_named hservices,
      filter_named_other hpersons "tuple" (by decide),
      filter_named_other hnotes "tuple" (by decide), List.append_nil]
  have hperson : named "dm:person" (modelNode env entity model) =
      (model.persons.filter IsShown).map fun person =>
        personNode (stampText env person.timestamp) person := by
    simp only [named, modelNode, nodeChildren, List.filter_append, filter_named hpersons,
      filter_named_other hservices "dm:person" (by decide),
      filter_named_other hnotes "dm:person" (by decide), List.append_nil,
      List.nil_append]
  have hnote : named "note" (modelNode env entity model) =
      model.notes.map (writePresenceNote "note") := by
    simp only [named, modelNode, nodeChildren, List.filter_append, filter_named hnotes,
      filter_named_other hservices "note" (by decide),
      filter_named_other hpersons "note" (by decide), List.nil_append]
  have hroot : [modelNode env entity model].filter (isNamed "presence") =
      [modelNode env entity model] := by simp [modelNode, isNamed]
  have hreadServices : (model.services.map fun service =>
      serviceNode entity (stampText env service.timestamp) service).mapM (processService env) =
      some (model.services.map fun service => some
        { service.seen entity with timestamp := reparsed env service.timestamp }) := by
    rw [List.mapM_map]
    exact Xml.mapM_eq_some_map fun service hmem => processService_serviceNode hmodel.entity
      (rfc3339_ne_empty (stamped_eq (hstamped.1 service hmem))) (hmodel.services service hmem)
  have hreadPersons : ((model.persons.filter IsShown).map fun person =>
      personNode (stampText env person.timestamp) person).map (processPerson env) =
      (model.persons.filter IsShown).map fun person =>
        { person with timestamp := reparsed env person.timestamp } := by
    rw [List.map_map]
    exact List.map_congr_left fun person hmem => processPerson_personNode
      (rfc3339_ne_empty (stamped_eq (hstamped.2 person hmem)))
      (hmodel.persons person (List.mem_of_mem_filter hmem))
  simp only [processPidfNotification, hroot, List.flatMap_cons, List.flatMap_nil, List.append_nil,
    htuple, hperson, hreadServices, hreadPersons, processNotes_written hnote hmodel.notes,
    Option.bind_eq_bind, Option.bind_some, Option.pure_def, reduceOption_map_some]

/-! ## Round trip -/

/-- No person has nothing but notes about activities, and every time is kept. -/
structure PresenceKept (env : PresenceEnv) (model : LinphonePresenceModel) : Prop where
  shown : ∀ person ∈ model.persons, IsShown person
  services : ∀ service ∈ model.services, TimestampKept env.time service.timestamp
  persons : ∀ person ∈ model.persons, TimestampKept env.time person.timestamp

/-- **A model is found again in its document exactly when it is kept**: no person has nothing but
notes about activities, and every time is kept. -/
theorem pidf_round_trip_iff (env : PresenceEnv) (entity : String) (model : LinphonePresenceModel)
    (hmodel : model.Written entity) :
    (convertPresenceToXml env entity model).bind (processPidfNotification env) =
      some (model.seen entity) ↔ PresenceKept env model := by
  constructor
  · intro hread
    obtain ⟨doc, hdoc, hprocess⟩ := Option.bind_eq_some_iff.mp hread
    have hstamped := stamped_of_convert hmodel hdoc
    obtain rfl : modelNode env entity model = doc :=
      Option.some.inj ((convertPresenceToXml_eq hmodel hstamped).symm.trans hdoc)
    rw [processPidfNotification_modelNode hmodel hstamped] at hprocess
    have hsame := Option.some.inj hprocess
    have hservices : (model.services.map fun service =>
        { service.seen entity with timestamp := reparsed env service.timestamp }) =
        model.services.map (LinphonePresenceService.seen entity) :=
      congrArg LinphonePresenceModel.services hsame
    have hpersons : ((model.persons.filter IsShown).map fun person =>
        { person with timestamp := reparsed env person.timestamp }) = model.persons :=
      congrArg LinphonePresenceModel.persons hsame
    have hshown : ∀ person ∈ model.persons, IsShown person := by
      have hlength := congrArg List.length hpersons
      rw [List.length_map, List.length_filter_eq_length_iff] at hlength
      exact fun person hmem => by simpa using hlength person hmem
    have hfilter : model.persons.filter IsShown = model.persons :=
      List.filter_eq_self.mpr fun person hmem => by simpa using hshown person hmem
    refine ⟨hshown, ?_, ?_⟩
    · intro service hmem
      refine (kept_iff service.timestamp).mpr ⟨hstamped.1 service hmem, ?_⟩
      exact congrArg LinphonePresenceService.timestamp (List.map_inj_left.mp hservices service hmem)
    · intro person hmem
      refine (kept_iff person.timestamp).mpr ⟨hstamped.2 person (by rwa [hfilter]), ?_⟩
      rw [hfilter] at hpersons
      exact congrArg LinphonePresencePerson.timestamp
        (List.map_inj_left.mp (hpersons.trans (List.map_id _).symm) person hmem)
  · intro hkept
    have hfilter : model.persons.filter IsShown = model.persons :=
      List.filter_eq_self.mpr fun person hmem => by simpa using hkept.shown person hmem
    have hstamped : ModelStamped env model := by
      refine ⟨fun service hmem => ((kept_iff _).mp (hkept.services service hmem)).1, ?_⟩
      rw [hfilter]
      exact fun person hmem => ((kept_iff _).mp (hkept.persons person hmem)).1
    have hservices : (model.services.map fun service =>
        { service.seen entity with timestamp := reparsed env service.timestamp }) =
        model.services.map (LinphonePresenceService.seen entity) := by
      refine List.map_congr_left fun service hmem => ?_
      rw [((kept_iff _).mp (hkept.services service hmem)).2]
      rfl
    have hpersons : (model.persons.map fun person =>
        { person with timestamp := reparsed env person.timestamp }) = model.persons := by
      refine (List.map_congr_left fun person hmem => ?_).trans (List.map_id model.persons)
      rw [((kept_iff _).mp (hkept.persons person hmem)).2]
      rfl
    rw [convertPresenceToXml_eq hmodel hstamped, Option.bind_some,
      processPidfNotification_modelNode hmodel hstamped, hfilter, hservices, hpersons]
    rfl

end

/-! ## One document -/

/-- The first minute of the epoch, in UTC. -/
def firstMinute : CTime where
  gmtime t :=
    if 0 ≤ t ∧ t < 60 then some { tmYear := 70, tmMon := 0, tmMday := 1, tmSec := t } else none
  mktime tm := tm.tmSec
  timezone := 0
  gmtime_inRange t tm h := by
    split at h
    · rename_i hrange
      rw [← Option.some.inj h]
      constructor <;> dsimp only <;> omega
    · simp at h

def firstMinuteEnv : PresenceEnv where
  time := firstMinute
  now := 0
  generatePresenceId := fun _ => "a"

/-- Somebody who is away, with a note. -/
def awayModel : LinphonePresenceModel where
  services := [{ id := some "s", status := .closed, timestamp := 1 }]
  persons := [{
    id := some "p"
    activities := [{ type := .away, description := some "lunch" }]
    activitiesNotes := [{ lang := some "en", content := "back soon" }]
    timestamp := 2 }]

theorem firstMinute_kept {t : Int} (hlow : 0 ≤ t) (hhigh : t < 60) :
    TimestampKept firstMinute t := by
  refine ⟨{ tmYear := 70, tmMon := 0, tmMday := 1, tmSec := t }, if_pos ⟨hlow, hhigh⟩, ?_⟩
  have hheld : ({ tmYear := 70, tmMon := 0, tmMday := 1, tmSec := t } : BrokenDownTime).held =
      { tmYear := 70, tmMon := 0, tmMday := 1, tmSec := t } := by
    refine BrokenDownTime.held_of_short ?_
    show (fourColumns (70 + 1900)).length ≤ 6
    decide
  have hmktime : firstMinute.mktime
      { tmYear := 70, tmMon := 0, tmMday := 1, tmSec := t } = t := rfl
  rw [hheld, if_neg (by rw [hmktime]; omega), hmktime]
  exact (Int.add_zero t).symm

theorem away_round_trip :
    (convertPresenceToXml firstMinuteEnv "sip:a@b" awayModel).bind
      (processPidfNotification firstMinuteEnv) = some (awayModel.seen "sip:a@b") := by
  have hwritten : awayModel.Written "sip:a@b" := by
    refine ⟨by decide, by decide, ?_, ?_, by simp [awayModel]⟩
    · intro service hmem
      rw [List.mem_singleton.mp hmem]
      exact ⟨⟨"s", rfl, by decide⟩, by decide, by simp⟩
    · intro person hmem
      rw [List.mem_singleton.mp hmem]
      refine ⟨⟨"p", rfl, by decide⟩, ?_, ?_, by simp, Or.inl (by simp)⟩
      · intro activity hactivity
        rw [List.mem_singleton.mp hactivity]
        exact ⟨by decide, by decide, by decide⟩
      · intro note hnote
        rw [List.mem_singleton.mp hnote]
        exact ⟨by decide, by decide⟩
  refine (pidf_round_trip_iff firstMinuteEnv "sip:a@b" awayModel hwritten).mpr ⟨?_, ?_, ?_⟩
  · intro person hmem
    rw [List.mem_singleton.mp hmem]
    exact Or.inl (by simp)
  · intro service hmem
    rw [List.mem_singleton.mp hmem]
    exact firstMinute_kept (by decide) (by decide)
  · intro person hmem
    rw [List.mem_singleton.mp hmem]
    exact firstMinute_kept (by decide) (by decide)

/-- Somebody with a note about activities, and no activity. -/
def notedModel : LinphonePresenceModel where
  services := [{ id := some "s", status := .open, timestamp := 1 }]
  persons := [{ id := some "p", activitiesNotes := [{ content := "back soon" }], timestamp := 2 }]

/-- The person is not in the document. -/
theorem noted_person_dropped :
    notedModel.Written "sip:a@b" ∧
      (convertPresenceToXml firstMinuteEnv "sip:a@b" notedModel).bind
        (processPidfNotification firstMinuteEnv) ≠ some (notedModel.seen "sip:a@b") := by
  have hwritten : notedModel.Written "sip:a@b" := by
    refine ⟨by decide, by decide, ?_, ?_, by simp [notedModel]⟩
    · intro service hmem
      rw [List.mem_singleton.mp hmem]
      exact ⟨⟨"s", rfl, by decide⟩, by decide, by simp⟩
    · intro person hmem
      rw [List.mem_singleton.mp hmem]
      refine ⟨⟨"p", rfl, by decide⟩, by simp, ?_, by simp, Or.inr (Or.inl (by simp))⟩
      intro note hnote
      rw [List.mem_singleton.mp hnote]
      exact ⟨by decide, by decide⟩
  have hstamped : ModelStamped firstMinuteEnv notedModel := by
    have hnone : notedModel.persons.filter IsShown = [] := by decide
    refine ⟨fun service hmem => ?_, fun person hmem => ?_⟩
    · rw [List.mem_singleton.mp hmem]
      rfl
    · rw [hnone] at hmem
      simp at hmem
  refine ⟨hwritten, ?_⟩
  rw [convertPresenceToXml_eq hwritten hstamped, Option.bind_some,
    processPidfNotification_modelNode hwritten hstamped]
  intro heq
  have hpersons := congrArg LinphonePresenceModel.persons (Option.some.inj heq)
  exact absurd (congrArg List.length hpersons) (by decide)

end

end Linphone
