import Linphone.Call.Presence
import Linphone.Lib.Xml
import Linphone.Presence.Timestamp

/-!
# Presence documents

`linphone_notify_convert_presence_to_xml` writes a presence model as a document in PIDF, and
`process_pidf_xml_presence_notification` makes a model of a document (`coreapi/presence.c`). Names
without a prefix are those of PIDF, as the root of a document declares. The XPath expressions that
select the i-th node are loops over the nodes that their base selects.

A document is the tree that is written; writing and reading it are not looked at.
-/

namespace Linphone

open Xml (Node)

/-! ## Models -/

structure LinphonePresenceNote where
  lang : Option String := none
  content : String
deriving DecidableEq

structure LinphonePresenceService where
  id : Option String
  status : PresenceBasicStatus
  contact : Option String := none
  notes : List LinphonePresenceNote := []
  timestamp : Int
deriving DecidableEq

structure LinphonePresenceActivity where
  type : PresenceActivityType
  description : Option String := none
deriving DecidableEq

structure LinphonePresencePerson where
  id : Option String
  activities : List LinphonePresenceActivity := []
  activitiesNotes : List LinphonePresenceNote := []
  notes : List LinphonePresenceNote := []
  timestamp : Int
deriving DecidableEq

structure LinphonePresenceModel where
  services : List LinphonePresenceService := []
  persons : List LinphonePresencePerson := []
  notes : List LinphonePresenceNote := []
deriving DecidableEq

/-- `presence_basic_status_to_string` -/
def PresenceBasicStatus.toText : PresenceBasicStatus → String
  | .open => "open"
  | .closed => "closed"

/-- `activity_map` -/
def activityMap : List (String × PresenceActivityType) :=
  [("appointment", .appointment), ("away", .away), ("breakfast", .breakfast), ("busy", .busy),
    ("dinner", .dinner), ("holiday", .holiday), ("in-transit", .inTransit),
    ("looking-for-work", .lookingForWork), ("lunch", .lunch), ("meal", .meal),
    ("meeting", .meeting), ("on-the-phone", .onThePhone), ("other", .other),
    ("performance", .performance), ("permanent-absence", .permanentAbsence),
    ("playing", .playing), ("presentation", .presentation), ("shopping", .shopping),
    ("sleeping", .sleeping), ("spectator", .spectator), ("steering", .steering),
    ("travel", .travel), ("tv", .tv), ("unknown", .unknown), ("vacation", .vacation),
    ("working", .working), ("worship", .worship)]

/-- `activity_name_to_presence_activity_type` -/
def activityNameToType (name : String) : Option PresenceActivityType :=
  (activityMap.find? fun entry => entry.1 = name).map fun entry => entry.2

/-- `presence_activity_type_to_string` -/
def activityTypeToText (type : PresenceActivityType) : Option String :=
  (activityMap.find? fun entry => entry.2 = type).map fun entry => entry.1

/-- The environment of the two functions: the C library, the current time, and the ids that are
generated for the elements without one. -/
structure PresenceEnv where
  time : CTime
  now : Int
  generatePresenceId : Nat → String

/-! ## Writing -/

/-- The children of an element with a text. -/
def textChildren (s : String) : List Node := if s = "" then [] else [.text s]

/-- An element with a text. -/
def textElement (name s : String) : Node := .element name [] (textChildren s)

/-- `write_xml_presence_note`, with the name that the prefix gives -/
def writePresenceNote (name : String) (note : LinphonePresenceNote) : Node :=
  .element name (note.lang.toList.map fun lang => ("xml:lang", some lang))
    (textChildren note.content)

section

variable (env : PresenceEnv)

/-- `write_xml_presence_timestamp` -/
def writePresenceTimestamp (timestamp : Int) : Option Node :=
  (timestampToRfc3339String env.time timestamp).map (textElement "timestamp")

/-- `write_xml_presence_service` -/
def writePresenceService (contact newId : String) (service : LinphonePresenceService) :
    Option Node := do
  let timestamp ← writePresenceTimestamp env service.timestamp
  pure (.element "tuple" [("id", some (service.id.getD newId))]
    ([.element "status" [] [textElement "basic" service.status.toText],
      .element "contact" [("priority", some "0.8")]
        (textChildren (service.contact.getD contact))] ++
      service.notes.map (writePresenceNote "note") ++ [timestamp]))

/-- `write_xml_presence_service` without a service -/
def writeNoService (contact newId : String) : Option Node :=
  writePresenceService env contact newId { id := none, status := .closed, timestamp := env.now }

/-- `is_valid_activity` -/
def isValidActivity (activity : LinphonePresenceActivity) : Bool :=
  activity.type ≠ .offline && activity.type ≠ .online

/-- `write_xml_presence_activity`. There is no name for the types that are not written. -/
def writePresenceActivity (activity : LinphonePresenceActivity) : Option (List Node) :=
  if !isValidActivity activity then some []
  else do
    let name ← activityTypeToText activity.type
    pure [.element ("rpid:" ++ name) [] (textChildren (activity.description.getD ""))]

/-- `person_has_valid_activities` -/
def hasValidActivities (person : LinphonePresencePerson) : Bool :=
  person.activities.any isValidActivity

/-- The element of the activities and of the notes about them. -/
def writePresenceActivities (person : LinphonePresencePerson) : Option (List Node) :=
  if !person.activitiesNotes.isEmpty || hasValidActivities person then do
    let activities ← person.activities.mapM writePresenceActivity
    pure [.element "rpid:activities" []
      (person.activitiesNotes.map (writePresenceNote "rpid:note") ++ activities.flatten)]
  else some []

/-- `write_xml_presence_person`. A person with nothing but notes about activities is left out. -/
def writePresencePerson (newId : String) (person : LinphonePresencePerson) : Option (List Node) :=
  if !hasValidActivities person && person.notes.isEmpty then some []
  else do
    let activities ← writePresenceActivities person
    let timestamp ← writePresenceTimestamp env person.timestamp
    pure [.element "dm:person" [("id", some (person.id.getD newId))]
      (activities ++ person.notes.map (writePresenceNote "dm:note") ++ [timestamp])]

/-- The services of a document. -/
def writePresenceServices (contact : String) (services : List LinphonePresenceService) :
    Option (List Node) :=
  if services.isEmpty then (writeNoService env contact (env.generatePresenceId 0)).map fun s => [s]
  else (services.mapIdx fun i service =>
    writePresenceService env contact (env.generatePresenceId i) service).mapM id

/-- The persons of a document. -/
def writePresencePersons (used : Nat) (persons : List LinphonePresencePerson) :
    Option (List Node) := do
  let nodes ← (persons.mapIdx fun i person =>
    writePresencePerson env (env.generatePresenceId (used + i)) person).mapM id
  pure nodes.flatten

/-- `linphone_notify_convert_presence_to_xml`; there is no document when a time cannot be
written. -/
def convertPresenceToXml (contact : String) (model : LinphonePresenceModel) : Option Node := do
  let services ← writePresenceServices env contact model.services
  let persons ← writePresencePersons env (max 1 model.services.length) model.persons
  pure (.element "presence"
    [("xmlns", some "urn:ietf:params:xml:ns:pidf"),
      ("xmlns:dm", some "urn:ietf:params:xml:ns:pidf:data-model"),
      ("xmlns:rpid", some "urn:ietf:params:xml:ns:pidf:rpid"), ("entity", some contact)]
    (services ++ persons ++ model.notes.map (writePresenceNote "note")))

end

/-! ## Reading -/

/-- An element has a name. -/
def isNamed (name : String) : Node → Bool
  | .element name' _ _ => name' = name
  | _ => false

def nodeChildren : Node → List Node
  | .element _ _ children => children
  | _ => []

/-- The children of an element that have a name. -/
def named (name : String) (node : Node) : List Node := (nodeChildren node).filter (isNamed name)

/-- `xmlNodeListGetString` of the children of an element, when there are any -/
def childrenText (node : Node) : Option String :=
  match nodeChildren node with
  | [] => none
  | children => some (String.join (children.map fun
      | .text s => s
      | _ => ""))

/-- The text of an attribute, when there is any. -/
def attrText (name : String) : Node → Option String
  | .element _ attrs _ => ((attrs.lookup name).join).filter fun text => text ≠ ""
  | _ => none

/-- `linphone_get_xml_text_content`: the text of the last of the nodes that has one -/
def getXmlTextContent (text : Node → Option String) (nodes : List Node) : Option String :=
  nodes.foldl (fun found node => (text node).or found) none

mutual

/-- `xmlNodeGetContent` -/
def nodeContent : Node → String
  | .element _ _ children => nodesContent children
  | .text s => s
  | .reference => ""

def nodesContent : List Node → String
  | [] => ""
  | node :: nodes => nodeContent node ++ nodesContent nodes

end

/-- The notes with a name: the i-th of each parent, for each i up to their number. -/
def processNotes (name : String) (parents : List Node) : List LinphonePresenceNote :=
  (List.range (parents.flatMap (named name)).length).filterMap fun i =>
    let nodes := parents.filterMap fun parent => (named name parent)[i]?
    (getXmlTextContent childrenText nodes).map fun content =>
      { lang := getXmlTextContent (attrText "xml:lang") nodes, content := content }

/-- The local name of an element with the prefix of RPID. -/
def rpidName : Node → Option String
  | .element name _ _ =>
      if "rpid:".toList.isPrefixOf name.toList then some (String.ofList (name.toList.drop 5))
      else none
  | _ => none

section

variable (env : PresenceEnv)

/-- A time that is read, or the current one. -/
def processTimestamp (node : Node) : Int :=
  match getXmlTextContent childrenText (named "timestamp" node) with
  | some timestamp => parseTimestamp env.time timestamp
  | none => env.now

/-- One turn of `process_pidf_xml_presence_services`: a service without a status is passed over, and
one with another status is an error. -/
def processService (node : Node) : Option (Option LinphonePresenceService) :=
  let service (status : PresenceBasicStatus) : LinphonePresenceService :=
    { id := getXmlTextContent (attrText "id") [node]
      status := status
      contact := getXmlTextContent childrenText (named "contact" node)
      notes := processNotes "note" [node]
      timestamp := processTimestamp env node }
  match getXmlTextContent childrenText ((named "status" node).flatMap (named "basic")) with
  | none => some none
  | some basic =>
      if basic = "open" then some (some (service .open))
      else if basic = "closed" then some (some (service .closed))
      else none

/-- One turn of `process_pidf_xml_presence_person_activities`: names that are not in the table are
passed over. -/
def processActivity (node : Node) : Option LinphonePresenceActivity := do
  let name ← rpidName node
  let type ← activityNameToType name
  let description := nodeContent node
  pure { type := type, description := if description = "" then none else some description }

/-- One turn of `process_pidf_xml_presence_persons` -/
def processPerson (node : Node) : LinphonePresencePerson where
  id := getXmlTextContent (attrText "id") [node]
  activities := (named "rpid:activities" node).flatMap fun activities =>
    (nodeChildren activities).filterMap processActivity
  activitiesNotes := processNotes "rpid:note" (named "rpid:activities" node)
  notes := processNotes "dm:note" [node]
  timestamp := processTimestamp env node

/-- `process_pidf_xml_presence_notification` -/
def processPidfNotification (doc : Node) : Option LinphonePresenceModel := do
  let roots := [doc].filter (isNamed "presence")
  let services ← (roots.flatMap (named "tuple")).mapM (processService env)
  pure {
    services := services.reduceOption
    persons := (roots.flatMap (named "dm:person")).map (processPerson env)
    notes := processNotes "note" roots }

end

end Linphone
