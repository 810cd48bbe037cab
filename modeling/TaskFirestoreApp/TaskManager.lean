import TaskFirestoreApp.Library.Collection
import TaskFirestoreApp.Library.Document
import Mathlib.Data.List.Induction
import Mathlib.Data.List.Infix

/-!
# Users and groups

The records of the two collections, how they are encoded as documents, and the two
managers, which keep the records in memory. A manager function that reads the list out of
range has no result.
-/

/-- `String(describing:)` of the uid of the user signed in to Auth, if any. -/
def describing : Option String → String
  | none => "nil"
  | some uid => "Optional(\"" ++ uid ++ "\")"

theorem describing_injective :
  Function.Injective describing
  := by
  rintro (_ | a) (_ | b) h
  · rfl
  · have := congrArg String.toList h
    simp [describing] at this
  · have := congrArg String.toList h
    simp [describing] at this
  · simpa [describing] using h

/-! ## References and queries -/

namespace ResourcePath

/-- The segments of a path: slashes at its start and its end are skipped. A path with two slashes
in a row aborts. -/
def fromString (path : String) : Option (List String) :=
  if ['/', '/'] <:+: path.toList then
    none
  else
    some (((path.toList.splitOn '/').filter fun segment => segment ≠ []).map String.ofList)

def canonicalString (segments : List String) : String :=
  "/".intercalate segments

end ResourcePath

/-- `document(_:)` of a collection, whose own path is one segment: the path of the reference below
the collection. A reference with an odd number of segments aborts. -/
def document (documentPath : String) : Option String := do
  let subPath ← ResourcePath.fromString documentPath
  if (1 + subPath.length) % 2 ≠ 0 then
    none
  else
    return ResourcePath.canonicalString subPath

/-- A path that names a document. -/
def IsDocumentPath (path : String) : Prop :=
  ∃ segments ∈ ResourcePath.fromString path, segments.length % 2 = 1

instance (path : String) : Decidable (IsDocumentPath path) :=
  inferInstanceAs (Decidable (∃ segments ∈ ResourcePath.fromString path, segments.length % 2 = 1))

/-- A path of one segment, as the ids that `document()` hands out are. -/
def IsSegment (id : String) : Prop :=
  id ≠ "" ∧ '/' ∉ id.toList

instance (id : String) : Decidable (IsSegment id) :=
  inferInstanceAs (Decidable (_ ∧ _))

theorem isDocumentPath_iff {path : String} :
  IsDocumentPath path ↔ ∃ id, document path = some id
  := by
  unfold IsDocumentPath document
  cases ResourcePath.fromString path with
  | none => simp
  | some segments =>
      have hparity : segments.length % 2 = 1 ↔ (1 + segments.length) % 2 = 0 := by omega
      simp [hparity]

theorem fromString_of_isSegment {id : String} (h : IsSegment id) :
  ResourcePath.fromString id = some [id]
  := by
  obtain ⟨hne, hslash⟩ := h
  have hinfix : ¬ ['/', '/'] <:+: id.toList := by
    intro hinfix
    apply hslash
    apply hinfix.subset
    simp
  have hnil : id.toList ≠ [] := fun hnil => hne (String.toList_eq_nil_iff.mp hnil)
  rw [ResourcePath.fromString, if_neg hinfix, List.splitOn_eq_singleton hslash]
  simp [hnil]

/-- A path of one segment names the document with this id. -/
theorem document_of_isSegment {id : String} (h : IsSegment id) :
  document id = some id
  := by
  simp [document, fromString_of_isSegment h, ResourcePath.canonicalString]

theorem IsSegment.eq_of_document {id i : String} (h : IsSegment id) (hi : document id = some i) :
  i = id
  := Option.some.inj (hi.symm.trans (document_of_isSegment h))

theorem IsSegment.isDocumentPath {id : String} (h : IsSegment id) :
  IsDocumentPath id
  := isDocumentPath_iff.mpr ⟨id, document_of_isSegment h⟩

/-- The empty path names no document. -/
theorem IsDocumentPath.ne_empty {path : String} (h : IsDocumentPath path) :
  path ≠ ""
  := by
  rintro rfl
  revert h
  decide +kernel

/-- The documents of `order(by: "taskId", descending: true)`. -/
def orderedByTaskId (c : Collection String Document) : List (String × Document) :=
  c.orderedBy fun d => d.field "taskId"

/-! ## Users -/

structure UserInfo where
  taskId : String
  userID : String
  name : String
  createdAt : Timestamp
  updatedAt : Timestamp
  deriving DecidableEq

namespace UserInfo

def encode (u : UserInfo) : Document :=
  [("taskId", .string u.taskId), ("userID", .string u.userID), ("name", .string u.name),
    ("createdAt", .timestamp u.createdAt), ("updatedAt", .timestamp u.updatedAt)]

def decode (d : Document) : Except DecodingError UserInfo := do
  let taskId ← d.string "taskId"
  let userID ← d.string "userID"
  let name ← d.string "name"
  let createdAt ← d.timestamp "createdAt"
  let updatedAt ← d.timestamp "updatedAt"
  return { taskId, userID, name, createdAt, updatedAt }

@[simp]
theorem decode_encode (u : UserInfo) :
  decode u.encode = .ok u
  := rfl

/-- A document decodes to a record exactly when its fields hold the fields of the
record. -/
theorem decode_eq_ok {d : Document} {u : UserInfo} :
  decode d = .ok u
    ↔ d.field "taskId" = some (.string u.taskId) ∧ d.field "userID" = some (.string u.userID)
      ∧ d.field "name" = some (.string u.name)
      ∧ d.field "createdAt" = some (.timestamp u.createdAt)
      ∧ d.field "updatedAt" = some (.timestamp u.updatedAt)
  := by
  simp only [decode, Document.bind_eq_ok, Document.string_eq_ok, Document.timestamp_eq_ok]
  constructor
  · rintro ⟨taskId, h₁, userID, h₂, name, h₃, createdAt, h₄, updatedAt, h₅, h⟩
    cases h
    use h₁, h₂, h₃, h₄, h₅
  · rintro ⟨h₁, h₂, h₃, h₄, h₅⟩
    exact ⟨_, h₁, _, h₂, _, h₃, _, h₄, _, h₅, rfl⟩

end UserInfo

namespace UserInfoManager

/-- The value of `f` at the last record of the user, or `value` when there is none: the
loop of the lookups below. -/
def lastAtCurrentUserID {β : Type} (f : UserInfo → β) (value : β) (userID : String)
    (userLists : List UserInfo) : β :=
  userLists.foldl (fun current u => if u.userID = userID then f u else current) value

def appendUserLists (userInfo : UserInfo) (userLists : List UserInfo) : List UserInfo :=
  userLists ++ [userInfo]

def setNameAtCurrentUserID (name userID : String) (userLists : List UserInfo) : List UserInfo :=
  userLists.map fun u => if u.userID = userID then { u with name := name } else u

def getNameAtCurrentUserID (userID : String) (userLists : List UserInfo) : String :=
  lastAtCurrentUserID UserInfo.name "" userID userLists

def getTaskIdAtCurrentUserID (userID : String) (userLists : List UserInfo) : String :=
  lastAtCurrentUserID UserInfo.taskId "" userID userLists

/-- The record at the index of the last match, which is the first record when nothing
matches. -/
def getUserInfoAtCurrentUserID (userID : String) (userLists : List UserInfo) : Option UserInfo :=
  userLists[userLists.zipIdx.foldl
    (fun currentListNum p => if p.1.userID = userID then p.2 else currentListNum) 0]?

/-! ### The last record of a user -/

/-- The last record of the user. -/
def lastRecord (userID : String) (userLists : List UserInfo) : Option UserInfo :=
  (userLists.filter fun u => u.userID = userID).getLast?

section Lookup

variable {userID name : String} {userLists userLists' : List UserInfo} {u : UserInfo}

@[simp]
theorem lastRecord_nil :
  lastRecord userID [] = none
  := rfl

theorem lastRecord_append :
  lastRecord userID (userLists ++ userLists')
    = (lastRecord userID userLists').or (lastRecord userID userLists)
  := by
  rw [lastRecord, List.filter_append, List.getLast?_append]
  rfl

theorem lastRecord_concat :
  lastRecord userID (userLists ++ [u])
    = if u.userID = userID then some u else lastRecord userID userLists
  := by
  rw [lastRecord_append]
  split_ifs with h <;> simp [lastRecord, h]

theorem lastRecord_eq_none :
  lastRecord userID userLists = none ↔ ∀ u ∈ userLists, u.userID ≠ userID
  := by
  simp [lastRecord]

theorem lastRecord_eq_some (h : lastRecord userID userLists = some u) :
  u ∈ userLists ∧ u.userID = userID
  := by
  simpa using List.mem_filter.mp (List.mem_of_getLast? h)

/-- The lookups read the last record of the user. -/
theorem lastAtCurrentUserID_eq {β : Type} (f : UserInfo → β) (value : β) :
  lastAtCurrentUserID f value userID userLists
    = ((lastRecord userID userLists).map f).getD value
  := by
  induction userLists using List.reverseRecOn with
  | nil => rfl
  | append_singleton userLists u ih =>
      rw [lastAtCurrentUserID] at ih ⊢
      rw [List.foldl_append, ih, lastRecord_concat]
      simp only [List.foldl_cons, List.foldl_nil]
      split_ifs <;> rfl

theorem getUserInfoAtCurrentUserID_eq :
  getUserInfoAtCurrentUserID userID userLists
    = (lastRecord userID userLists).or userLists.head?
  := by
  induction userLists using List.reverseRecOn with
  | nil => rfl
  | append_singleton userLists u ih =>
      rw [getUserInfoAtCurrentUserID] at ih ⊢
      rw [List.zipIdx_append, List.foldl_append, lastRecord_concat]
      simp only [List.zipIdx_singleton, List.foldl_cons, List.foldl_nil, Nat.zero_add]
      split_ifs with h
      · simp
      · cases userLists with
        | nil => simp
        | cons v userLists =>
            have hhead : (lastRecord userID (v :: userLists)).or (v :: userLists).head? ≠ none := by
              simp
            rw [← ih] at hhead
            rw [List.getElem?_append_left (by simpa using hhead), ih]
            rfl

/-- A rename changes the name of the last record of the user. -/
theorem lastRecord_setName :
  lastRecord userID (setNameAtCurrentUserID name userID userLists)
    = (lastRecord userID userLists).map fun u => { u with name := name }
  := by
  induction userLists using List.reverseRecOn with
  | nil => rfl
  | append_singleton userLists u ih =>
      rw [setNameAtCurrentUserID] at ih ⊢
      rw [List.map_append, List.map_singleton, lastRecord_concat, lastRecord_concat, ih]
      split_ifs <;> simp_all

/-- A rename keeps everything of a record but its name. -/
theorem mem_setName (h : u ∈ setNameAtCurrentUserID name userID userLists) :
  ∃ v ∈ userLists, u = { v with name := u.name }
  := by
  obtain ⟨v, hv, rfl⟩ := List.mem_map.mp h
  use v, hv
  split_ifs <;> rfl

end Lookup

end UserInfoManager

/-! ## Groups -/

structure GroupInfo where
  taskId : String
  groupName : String
  groupMemberNames : List String
  groupMemberTalks : List String
  createdAt : Timestamp
  updatedAt : Timestamp
  deriving DecidableEq

namespace GroupInfo

def encode (g : GroupInfo) : Document :=
  [("taskId", .string g.taskId), ("groupName", .string g.groupName),
    ("groupMemberNames", .strings g.groupMemberNames),
    ("groupMemberTalks", .strings g.groupMemberTalks),
    ("createdAt", .timestamp g.createdAt), ("updatedAt", .timestamp g.updatedAt)]

def decode (d : Document) : Except DecodingError GroupInfo := do
  let taskId ← d.string "taskId"
  let groupName ← d.string "groupName"
  let groupMemberNames ← d.strings "groupMemberNames"
  let groupMemberTalks ← d.strings "groupMemberTalks"
  let createdAt ← d.timestamp "createdAt"
  let updatedAt ← d.timestamp "updatedAt"
  return { taskId, groupName, groupMemberNames, groupMemberTalks, createdAt, updatedAt }

@[simp]
theorem decode_encode (g : GroupInfo) :
  decode g.encode = .ok g
  := rfl

/-- A document decodes to a group exactly when its fields hold the fields of the group. -/
theorem decode_eq_ok {d : Document} {g : GroupInfo} :
  decode d = .ok g
    ↔ d.field "taskId" = some (.string g.taskId)
      ∧ d.field "groupName" = some (.string g.groupName)
      ∧ d.field "groupMemberNames" = some (.strings g.groupMemberNames)
      ∧ d.field "groupMemberTalks" = some (.strings g.groupMemberTalks)
      ∧ d.field "createdAt" = some (.timestamp g.createdAt)
      ∧ d.field "updatedAt" = some (.timestamp g.updatedAt)
  := by
  simp only [decode, Document.bind_eq_ok, Document.string_eq_ok, Document.strings_eq_ok,
    Document.timestamp_eq_ok]
  constructor
  · rintro ⟨taskId, h₁, groupName, h₂, names, h₃, talks, h₄, createdAt, h₅, updatedAt, h₆, h⟩
    cases h
    use h₁, h₂, h₃, h₄, h₅, h₆
  · rintro ⟨h₁, h₂, h₃, h₄, h₅, h₆⟩
    exact ⟨_, h₁, _, h₂, _, h₃, _, h₄, _, h₅, _, h₆, rfl⟩

end GroupInfo

namespace GroupInfoManager

def getGroupInfo (num : ℕ) (groupInfo : List GroupInfo) : Option GroupInfo :=
  groupInfo[num]?

def appendGroupInfo (g : GroupInfo) (groupInfo : List GroupInfo) : List GroupInfo :=
  groupInfo ++ [g]

def appendGroupInfoTalks (num : ℕ) (message : String) (groupInfo : List GroupInfo) :
    Option (List GroupInfo) := do
  let g ← getGroupInfo num groupInfo
  return groupInfo.set num { g with groupMemberTalks := g.groupMemberTalks ++ [message] }

def removeGroupInfo (num : ℕ) (groupInfo : List GroupInfo) : Option (List GroupInfo) :=
  if num < groupInfo.length then some (groupInfo.eraseIdx num) else none

end GroupInfoManager
