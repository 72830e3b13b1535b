import SyncBoard.Board.Database
import SyncBoard.Lib.Entries
import SyncBoard.Workspace.Services

/-!
# NotificationProducerListener

Which messages the listener publishes for a domain event, the parser of mentions and
`findUserIdsByEmails`. The assignees of a card are told of what happens to it, less the user
who did it; of the members who are mentioned in a comment, the author is not left out, and
neither is a user who assigns themselves under another spelling.

## Implementation notes

What the other services answer is a parameter, and so is `toLowerCase`; a call that throws ends
the handler. A broker that refuses a message is ignored, so the messages are those that the
listener hands over. Of the users of an event only the one who is assigned is spelled by the
client; assignees, members, authors and actors come from rows and tokens. The handlers of
`memberAdded` and `memberRoleChanged` are left out: their events do not tell who has acted.
-/

namespace SyncBoard.Notification

open SyncBoard.Workspace (trim)
open Board (CardPriority CardStatus)

def isLetter (c : Nat) : Bool :=
  (97 ≤ c && c ≤ 122) || (65 ≤ c && c ≤ 90)

/-- `[a-z0-9.-]`, whatever the case. -/
def isDomainChar (c : Nat) : Bool :=
  isLetter c || (48 ≤ c && c ≤ 57) || c ∈ js ".-"

/-- `[a-z0-9._%+-]`, whatever the case. -/
def isLocalChar (c : Nat) : Bool :=
  isDomainChar c || c ∈ js "_%+"

/-- The letters after a position. -/
def lettersAfter (s : JsString) (dot : Nat) : JsString :=
  (s.drop (dot + 1)).takeWhile isLetter

/-- `[a-z0-9.-]+\.[a-z]{2,}` at the start of a text: the domain goes up to the last dot that
two letters follow. -/
def matchDomain (s : JsString) : Option JsString :=
  let run := s.takeWhile isDomainChar
  let dots := (List.range run.length).filter fun dot =>
    0 < dot && run[dot]? == some '.'.toNat && 2 ≤ (lettersAfter run dot).length
  dots.getLast?.map fun dot => run.take (dot + 1) ++ lettersAfter run dot

/-- The group of `MENTION_RE` after its `@`. -/
def matchEmail (s : JsString) : Option JsString :=
  let localPart := s.takeWhile isLocalChar
  match s.drop localPart.length with
  | [] => none
  | c :: rest =>
      if localPart ≠ [] ∧ c = '@'.toNat then
        (matchDomain rest).map fun domain => localPart ++ '@'.toNat :: domain
      else none

/-- `matchAll(MENTION_RE)`, from the left. The counter tells how many of the next characters
belong to the match before. -/
def matchMentions : Nat → JsString → List JsString
  | _, [] => []
  | skip + 1, _ :: rest => matchMentions skip rest
  | 0, c :: rest =>
      match if c = '@'.toNat then matchEmail rest else none with
      | some email => email :: matchMentions email.length rest
      | none => matchMentions 0 rest

section
variable (toLowerCase : JsString → JsString)

def parseMentionedEmails (content : JsString) : List JsString :=
  ((matchMentions 0 content).map toLowerCase).eraseDups

/-- A membership with the email of its user. -/
structure MemberWithUser where
  userId : Uuid
  email : JsString
  deriving DecidableEq, Repr

/-- The emails that are looked for. -/
def normalizedEmails (emails : List JsString) : List JsString :=
  (emails.map fun e => trim (toLowerCase e)).filter fun e => !e.isEmpty

/-- The entries of the map that is returned, given the members of the workspace. -/
def findUserIdsByEmails (members : List MemberWithUser) (emails : List JsString) :
    List (JsString × Uuid) :=
  members.foldl (fun result m =>
    let email := toLowerCase m.email
    if email ≠ [] ∧ email ∈ normalizedEmails toLowerCase emails then
      Entries.set email m.userId result
    else result) []

end

/-- `NotificationType`. -/
inductive NotificationType
  | cardAssigned
  | commentAdded
  | commentMentioned
  | cardStatusChanged
  | cardPriorityChanged
  deriving DecidableEq, Repr

/-- `NotificationMessagePayload`. -/
structure NotificationMessagePayload where
  userId : UuidText
  workspaceId : Uuid
  type : NotificationType
  title : JsString
  body : Option JsString := none
  entityType : JsString
  entityId : Uuid
  boardId : Uuid
  cardId : Uuid
  actorId : Uuid
  deriving DecidableEq, Repr

/-- What is handed to the publisher, for the notification exchange. -/
structure Published where
  routingKey : JsString
  payload : NotificationMessagePayload
  deriving DecidableEq, Repr

/-- `NOTIFICATION_ROUTING_KEYS`. -/
def routingKey : NotificationType → JsString
  | .cardAssigned => js "notification.card.assigned"
  | .commentAdded => js "notification.comment.added"
  | .commentMentioned => js "notification.comment.mentioned"
  | .cardStatusChanged => js "notification.card.status"
  | .cardPriorityChanged => js "notification.card.priority"

/-- The stored name of a status. -/
def statusName : CardStatus → JsString
  | .notStarted => js "not_started"
  | .active => js "active"
  | .done => js "done"
  | .closed => js "closed"

/-- The stored name of a priority. -/
def priorityName : CardPriority → JsString
  | .lowest => js "lowest"
  | .low => js "low"
  | .medium => js "medium"
  | .high => js "high"
  | .urgent => js "urgent"

/-- A title in double quotes. -/
def quoted (title : JsString) : JsString :=
  34 :: title ++ [34]

def cardTitle (title : Option JsString) : JsString :=
  title.getD (js "a card")

/-- `userId` is spelled as in the request, `addedBy` as in the token. -/
structure CardAssigneeAddedEvent where
  cardId : Uuid
  boardId : Uuid
  userId : UuidText
  addedBy : Uuid
  deriving DecidableEq, Repr

structure CardComment where
  id : Uuid
  cardId : Uuid
  content : JsString
  deriving DecidableEq, Repr

structure CommentCreatedEvent where
  comment : CardComment
  boardId : Uuid
  authorId : Uuid
  mentionedEmails : List JsString := []
  deriving DecidableEq, Repr

structure CardStatusChangedEvent where
  cardId : Uuid
  boardId : Uuid
  toStatus : CardStatus
  changedBy : Uuid
  deriving DecidableEq, Repr

structure CardPriorityChangedEvent where
  cardId : Uuid
  boardId : Uuid
  toPriority : CardPriority
  changedBy : Uuid
  deriving DecidableEq, Repr

inductive DomainEvent
  | assigneeAdded (event : CardAssigneeAddedEvent)
  | commentCreated (event : CommentCreatedEvent)
  | statusChanged (event : CardStatusChangedEvent)
  | priorityChanged (event : CardPriorityChangedEvent)
  deriving DecidableEq, Repr

/-- The user who performed the action. -/
def DomainEvent.actor : DomainEvent → Uuid
  | .assigneeAdded event => event.addedBy
  | .commentCreated event => event.authorId
  | .statusChanged event => event.changedBy
  | .priorityChanged event => event.changedBy

/-- A call of another service has thrown. -/
structure LookupError where
  message : JsString
  deriving DecidableEq, Repr

/-- What the calls of the other services return, and the configuration. -/
structure Lookups where
  enabled : Bool := true
  findWorkspaceIdByBoardId : Uuid → Except LookupError (Option Uuid)
  findTitleById : Uuid → Except LookupError (Option JsString)
  findAssigneeIdsByCardId : Uuid → Except LookupError (List Uuid)
  findMembersWithUser : Uuid → Except LookupError (List MemberWithUser)

namespace NotificationProducerListener

variable (toLowerCase : JsString → JsString) (services : Lookups)

/-- The messages that reach the publisher. -/
def publish (type : NotificationType) (payloads : List NotificationMessagePayload) :
    List Published :=
  if services.enabled then payloads.map (Published.mk (routingKey type)) else []

def resolveWorkspaceId (boardId : Uuid) : Option Uuid :=
  (services.findWorkspaceIdByBoardId boardId).toOption.join

def fanOutToAssignees (boardId cardId actorId : Uuid) (type : NotificationType)
    (title : JsString → JsString) : Except LookupError (List Published) :=
  match resolveWorkspaceId services boardId with
  | none => .ok []
  | some workspaceId => do
      let assignees ← services.findAssigneeIdsByCardId cardId
      let recipients := assignees.filter fun id => id != actorId
      if recipients.isEmpty then
        return []
      let found ← services.findTitleById cardId
      return publish services type (recipients.map fun userId =>
        { userId := .canonical userId, workspaceId := workspaceId, type := type,
          title := title (cardTitle found), entityType := js "card", entityId := cardId,
          boardId := boardId, cardId := cardId, actorId := actorId })

def handleAssigneeAdded (event : CardAssigneeAddedEvent) : Except LookupError (List Published) :=
  if event.userId = .canonical event.addedBy then .ok []
  else
    match resolveWorkspaceId services event.boardId with
    | none => .ok []
    | some workspaceId => do
        let found ← services.findTitleById event.cardId
        return publish services .cardAssigned
          [{ userId := event.userId, workspaceId := workspaceId, type := .cardAssigned,
             title := js "You were assigned to " ++ quoted (cardTitle found),
             entityType := js "card", entityId := event.cardId, boardId := event.boardId,
             cardId := event.cardId, actorId := event.addedBy }]

def notifyCommentAssignees (event : CommentCreatedEvent) (workspaceId : Uuid) :
    Except LookupError (List Published) := do
  let found ← services.findTitleById event.comment.cardId
  let assignees ← services.findAssigneeIdsByCardId event.comment.cardId
  let recipients := assignees.filter fun id => id != event.authorId
  return publish services .commentAdded (recipients.map fun userId =>
    { userId := .canonical userId, workspaceId := workspaceId, type := .commentAdded,
      title := js "New comment on " ++ quoted (cardTitle found),
      body := some (event.comment.content.take 200), entityType := js "comment",
      entityId := event.comment.id, boardId := event.boardId, cardId := event.comment.cardId,
      actorId := event.authorId })

/-- The emails that a comment mentions: those of the event, or else those in the text. -/
def mentionedEmails (event : CommentCreatedEvent) : List JsString :=
  if event.mentionedEmails ≠ [] then event.mentionedEmails
  else parseMentionedEmails toLowerCase event.comment.content

/-- The members are not read where no email is left to look for. -/
def notifyMentionedUsers (event : CommentCreatedEvent) (workspaceId : Uuid) :
    Except LookupError (List Published) :=
  let emails := mentionedEmails toLowerCase event
  if normalizedEmails toLowerCase emails = [] then .ok []
  else do
    let members ← services.findMembersWithUser workspaceId
    let resolved := findUserIdsByEmails toLowerCase members emails
    return publish services .commentMentioned (resolved.map fun entry =>
      { userId := .canonical entry.2, workspaceId := workspaceId, type := .commentMentioned,
        title := js "You were mentioned in a comment",
        body := some (event.comment.content.take 200), entityType := js "comment",
        entityId := event.comment.id, boardId := event.boardId,
        cardId := event.comment.cardId, actorId := event.authorId })

/-- What the assignees are sent is published before the mentions are looked at. -/
def handleCommentCreated (event : CommentCreatedEvent) : List Published :=
  match resolveWorkspaceId services event.boardId with
  | none => []
  | some workspaceId =>
      match notifyCommentAssignees services event workspaceId with
      | .error _ => []
      | .ok toAssignees =>
          toAssignees ++
            (notifyMentionedUsers toLowerCase services event workspaceId).toOption.getD []

def handleStatusChanged (event : CardStatusChangedEvent) : Except LookupError (List Published) :=
  fanOutToAssignees services event.boardId event.cardId event.changedBy .cardStatusChanged
    fun card => js "Card " ++ quoted card ++ js " moved to " ++ statusName event.toStatus

def handlePriorityChanged (event : CardPriorityChangedEvent) :
    Except LookupError (List Published) :=
  fanOutToAssignees services event.boardId event.cardId event.changedBy .cardPriorityChanged
    fun card => js "Card " ++ quoted card ++ js " priority changed to " ++ priorityName event.toPriority

/-- What is published for an event. An error is caught by the handler, which has published
nothing by then. -/
def handle : DomainEvent → List Published
  | .assigneeAdded event => (handleAssigneeAdded services event).toOption.getD []
  | .commentCreated event => handleCommentCreated toLowerCase services event
  | .statusChanged event => (handleStatusChanged services event).toOption.getD []
  | .priorityChanged event => (handlePriorityChanged services event).toOption.getD []

end NotificationProducerListener

section Holder
variable (toLowerCase : JsString → JsString)

/-- Of the members with an email, the one who has joined last. -/
def holder (members : List MemberWithUser) (email : JsString) : Option Uuid :=
  (members.reverse.find? fun m => toLowerCase m.email == email).map MemberWithUser.userId

variable {toLowerCase}

theorem ne_nil_of_mem_normalizedEmails {emails : List JsString} {email : JsString}
    (h : email ∈ normalizedEmails toLowerCase emails) : email ≠ [] := by
  rw [normalizedEmails, List.mem_filter] at h
  rintro rfl
  exact absurd h.2 (by decide)

theorem holder_concat (members : List MemberWithUser) (m : MemberWithUser) (email : JsString) :
    holder toLowerCase (members ++ [m]) email =
      if toLowerCase m.email = email then some m.userId else holder toLowerCase members email := by
  rw [holder, List.reverse_append, List.reverse_singleton, List.singleton_append, List.find?_cons]
  by_cases h : toLowerCase m.email = email
  · rw [if_pos h, beq_iff_eq.mpr h]
    rfl
  · rw [if_neg h, beq_false_of_ne h]
    rfl

theorem findUserIdsByEmails_concat (members : List MemberWithUser) (m : MemberWithUser)
    (emails : List JsString) :
    findUserIdsByEmails toLowerCase (members ++ [m]) emails =
      if toLowerCase m.email ≠ [] ∧ toLowerCase m.email ∈ normalizedEmails toLowerCase emails then
        Entries.set (toLowerCase m.email) m.userId (findUserIdsByEmails toLowerCase members emails)
      else findUserIdsByEmails toLowerCase members emails := by
  rw [findUserIdsByEmails, List.foldl_append]
  rfl

theorem nodup_keys_findUserIdsByEmails (members : List MemberWithUser) (emails : List JsString) :
    ((findUserIdsByEmails toLowerCase members emails).map Prod.fst).Nodup := by
  induction members using List.reverseRecOn with
  | nil => exact List.nodup_nil
  | append_singleton members m ih =>
      rw [findUserIdsByEmails_concat]
      split
      · exact Entries.nodup_keys_set ih
      · exact ih

/-- The map holds the emails that are looked for, each with the user whom it stands for. -/
theorem mem_findUserIdsByEmails {members : List MemberWithUser} {emails : List JsString}
    {email : JsString} {userId : Uuid} :
    (email, userId) ∈ findUserIdsByEmails toLowerCase members emails ↔
      email ∈ normalizedEmails toLowerCase emails ∧
        holder toLowerCase members email = some userId := by
  induction members using List.reverseRecOn with
  | nil => simp [findUserIdsByEmails, holder]
  | append_singleton members m ih =>
      rw [findUserIdsByEmails_concat, holder_concat]
      by_cases hm : toLowerCase m.email = email
      · rw [if_pos hm, hm]
        by_cases hemail : email ∈ normalizedEmails toLowerCase emails
        · rw [if_pos ⟨ne_nil_of_mem_normalizedEmails hemail, hemail⟩,
            Entries.mem_set (nodup_keys_findUserIdsByEmails members emails), if_pos rfl,
            Option.some.injEq]
          exact ⟨fun h => ⟨hemail, h.symm⟩, fun h => h.2.symm⟩
        · rw [if_neg fun h => hemail h.2, ih]
          exact ⟨fun h => absurd h.1 hemail, fun h => absurd h.1 hemail⟩
      · rw [if_neg hm]
        split
        · rw [Entries.mem_set (nodup_keys_findUserIdsByEmails members emails),
            if_neg (Ne.symm hm), ih]
        · exact ih

end Holder

namespace NotificationProducerListener

section Recipients
variable {toLowerCase : JsString → JsString} {services : Lookups}

theorem mem_publish {type : NotificationType} {payloads : List NotificationMessagePayload}
    {p : Published} :
    p ∈ publish services type payloads ↔
      services.enabled = true ∧ ∃ payload ∈ payloads, ⟨routingKey type, payload⟩ = p := by
  rw [publish]
  split
  next henabled => simp only [henabled, true_and, List.mem_map]
  next henabled => simp [henabled]

/-- A message for each recipient goes to one of them. -/
theorem userId_mem_of_mem_publish {type : NotificationType} {recipients : List Uuid}
    {payload : Uuid → NotificationMessagePayload} (hpayload : ∀ u, (payload u).userId.id = u)
    {p : Published} (hp : p ∈ publish services type (recipients.map payload)) :
    p.payload.userId.id ∈ recipients := by
  obtain ⟨-, q, hq, rfl⟩ := mem_publish.mp hp
  obtain ⟨u, hu, rfl⟩ := List.mem_map.mp hq
  exact (hpayload u).symm ▸ hu

theorem ne_of_mem_filter {ids : List Uuid} {id actorId : Uuid}
    (h : id ∈ ids.filter fun id => id != actorId) : id ≠ actorId :=
  bne_iff_ne.mp (List.mem_filter.mp h).2

/-- What a fan-out publishes goes to assignees other than the actor. -/
theorem fanOutToAssignees_spares {boardId cardId actorId : Uuid} {type : NotificationType}
    {title : JsString → JsString} {messages : List Published}
    (h : fanOutToAssignees services boardId cardId actorId type title = .ok messages) :
    ∀ p ∈ messages, p.payload.userId.id ≠ actorId := by
  rw [fanOutToAssignees] at h
  split at h
  · obtain rfl := Except.ok.inj h
    simp
  · obtain ⟨assignees, -, h⟩ := Fallible.bind_eq_ok.mp h
    dsimp only at h
    split at h
    · obtain rfl := Except.ok.inj h
      simp
    · obtain ⟨found, -, h⟩ := Fallible.bind_eq_ok.mp h
      obtain rfl := Except.ok.inj h
      intro p hp
      exact ne_of_mem_filter (userId_mem_of_mem_publish (fun _ => rfl) hp)

/-- A user who assigns themselves, spelling their identifier in another way than the token,
where the handler gets so far as to publish. -/
def AssignsSelf (services : Lookups) (event : CardAssigneeAddedEvent) : Prop :=
  services.enabled = true ∧
  ∃ workspaceId title, resolveWorkspaceId services event.boardId = some workspaceId ∧
    services.findTitleById event.cardId = .ok title ∧
    event.userId.id = event.addedBy ∧ event.userId ≠ .canonical event.addedBy

theorem handleAssigneeAdded_spares_iff (event : CardAssigneeAddedEvent) :
    (∀ p ∈ (handleAssigneeAdded services event).toOption.getD [],
        p.payload.userId.id ≠ event.addedBy) ↔ ¬AssignsSelf services event := by
  rw [handleAssigneeAdded, AssignsSelf]
  by_cases hself : event.userId = .canonical event.addedBy
  · simp [hself, Except.toOption]
  · rw [if_neg hself]
    cases hworkspace : resolveWorkspaceId services event.boardId with
    | none => simp [Except.toOption]
    | some workspaceId =>
        cases htitle : services.findTitleById event.cardId with
        | error e => simp [bind, Except.bind, Except.toOption]
        | ok title =>
            constructor
            · rintro hall ⟨henabled, -, -, -, -, hsame, -⟩
              exact hall _ (mem_publish.mpr ⟨henabled, _, List.mem_singleton_self _, rfl⟩) hsame
            · rintro hnot p hp hsame
              obtain ⟨henabled, q, hq, rfl⟩ := mem_publish.mp hp
              obtain rfl := List.mem_singleton.mp hq
              exact hnot ⟨henabled, workspaceId, title, rfl, rfl, hsame, hself⟩

theorem notifyCommentAssignees_spares {event : CommentCreatedEvent} {workspaceId : Uuid}
    {messages : List Published}
    (h : notifyCommentAssignees services event workspaceId = .ok messages) :
    ∀ p ∈ messages, p.payload.userId.id ≠ event.authorId := by
  rw [notifyCommentAssignees] at h
  obtain ⟨found, -, h⟩ := Fallible.bind_eq_ok.mp h
  obtain ⟨assignees, -, h⟩ := Fallible.bind_eq_ok.mp h
  obtain rfl := Except.ok.inj h
  intro p hp
  exact ne_of_mem_filter (userId_mem_of_mem_publish (fun _ => rfl) hp)

/-- The author is the user whom one of the mentioned emails stands for. -/
def Resolves (toLowerCase : JsString → JsString) (services : Lookups)
    (event : CommentCreatedEvent) (workspaceId userId : Uuid) : Prop :=
  ∃ members, services.findMembersWithUser workspaceId = .ok members ∧
    ∃ email ∈ normalizedEmails toLowerCase (mentionedEmails toLowerCase event),
      holder toLowerCase members email = some userId

/-- A member is told of a mention if and only if a mentioned email stands for them. -/
theorem notifyMentionedUsers_notifies {event : CommentCreatedEvent} {workspaceId userId : Uuid} :
    (∃ p ∈ (notifyMentionedUsers toLowerCase services event workspaceId).toOption.getD [],
        p.payload.userId.id = userId) ↔
      services.enabled = true ∧ Resolves toLowerCase services event workspaceId userId := by
  rw [notifyMentionedUsers, Resolves]
  dsimp only
  split
  next hnone => simp [hnone, Except.toOption]
  · cases hmembers : services.findMembersWithUser workspaceId with
    | error e => simp [bind, Except.bind, Except.toOption]
    | ok members =>
        constructor
        · rintro ⟨p, hp, rfl⟩
          obtain ⟨henabled, q, hq, rfl⟩ := mem_publish.mp hp
          obtain ⟨⟨email, userId⟩, hentry, rfl⟩ := List.mem_map.mp hq
          obtain ⟨hemail, hholder⟩ := mem_findUserIdsByEmails.mp hentry
          exact ⟨henabled, members, rfl, email, hemail, hholder⟩
        · rintro ⟨henabled, members', hsame, email, hemail, hholder⟩
          obtain rfl := Except.ok.inj hsame
          have hentry := mem_findUserIdsByEmails.mpr ⟨hemail, hholder⟩
          exact ⟨_, mem_publish.mpr ⟨henabled, _, List.mem_map_of_mem hentry, rfl⟩, rfl⟩

/-- The author mentions an email that stands for themselves, and the handler gets so far as to
look at the mentions. -/
def MentionsAuthor (toLowerCase : JsString → JsString) (services : Lookups)
    (event : CommentCreatedEvent) : Prop :=
  services.enabled = true ∧
  ∃ workspaceId title assignees, resolveWorkspaceId services event.boardId = some workspaceId ∧
    services.findTitleById event.comment.cardId = .ok title ∧
    services.findAssigneeIdsByCardId event.comment.cardId = .ok assignees ∧
    Resolves toLowerCase services event workspaceId event.authorId

theorem handleCommentCreated_spares_iff (event : CommentCreatedEvent) :
    (∀ p ∈ handleCommentCreated toLowerCase services event, p.payload.userId.id ≠ event.authorId) ↔
      ¬MentionsAuthor toLowerCase services event := by
  rw [handleCommentCreated, MentionsAuthor]
  cases hworkspace : resolveWorkspaceId services event.boardId with
  | none => simp
  | some workspaceId =>
      cases htitle : services.findTitleById event.comment.cardId with
      | error e => simp [notifyCommentAssignees, htitle, bind, Except.bind]
      | ok title =>
          cases hassignees : services.findAssigneeIdsByCardId event.comment.cardId with
          | error e => simp [notifyCommentAssignees, htitle, hassignees, bind, Except.bind]
          | ok assignees =>
              obtain ⟨messages, hmessages⟩ :
                  ∃ messages, notifyCommentAssignees services event workspaceId = .ok messages := by
                rw [notifyCommentAssignees, htitle, hassignees]
                exact ⟨_, rfl⟩
              have hspares := notifyCommentAssignees_spares hmessages
              have hmentioned := @notifyMentionedUsers_notifies toLowerCase services event
                workspaceId event.authorId
              simp only [hmessages, List.forall_mem_append]
              constructor
              · rintro ⟨-, hall⟩ ⟨henabled, ws, -, -, hws, -, -, hresolves⟩
                obtain rfl := Option.some.inj hws
                obtain ⟨p, hp, hself⟩ := hmentioned.mpr ⟨henabled, hresolves⟩
                exact hall p hp hself
              · intro hnot
                refine ⟨hspares, fun p hp hself => hnot ?_⟩
                obtain ⟨henabled, hresolves⟩ := hmentioned.mp ⟨p, hp, hself⟩
                exact ⟨henabled, workspaceId, title, assignees, rfl, rfl, rfl, hresolves⟩

/-- What a handler publishes that throws is nothing. -/
theorem forall_mem_getD {x : Except LookupError (List Published)} {P : Published → Prop}
    (h : ∀ messages, x = .ok messages → ∀ p ∈ messages, P p) :
    ∀ p ∈ x.toOption.getD [], P p := by
  cases x with
  | error e => simp [Except.toOption]
  | ok messages => exact h messages rfl

end Recipients

/-- The event has its actor notified: a comment whose author mentions an email of their own,
or an assignment of oneself under another spelling. -/
def NotifiesActor (toLowerCase : JsString → JsString) (services : Lookups) : DomainEvent → Prop
  | .assigneeAdded event => AssignsSelf services event
  | .commentCreated event => MentionsAuthor toLowerCase services event
  | .statusChanged _ | .priorityChanged _ => False

/-- For every event and whatever the other services answer: no message goes to the user who
has acted if and only if the event is neither a comment whose author mentions an email of their
own nor an assignment of oneself under another spelling. -/
theorem handle_spares_actor_iff (toLowerCase : JsString → JsString) (services : Lookups)
    (event : DomainEvent) :
    (∀ p ∈ handle toLowerCase services event, p.payload.userId.id ≠ event.actor) ↔
      ¬NotifiesActor toLowerCase services event := by
  cases event with
  | assigneeAdded event =>
      exact handleAssigneeAdded_spares_iff event
  | commentCreated event =>
      exact handleCommentCreated_spares_iff event
  | statusChanged event =>
      refine iff_of_true ?_ id
      exact forall_mem_getD fun _ h => fanOutToAssignees_spares h
  | priorityChanged event =>
      refine iff_of_true ?_ id
      exact forall_mem_getD fun _ h => fanOutToAssignees_spares h

/-- One member, and no assignees. -/
def oneMember : Lookups where
  findWorkspaceIdByBoardId := fun _ => .ok (some 1)
  findTitleById := fun _ => .ok (some (js "Card A"))
  findAssigneeIdsByCardId := fun _ => .ok []
  findMembersWithUser := fun _ => .ok [{ userId := 7, email := js "ann@b.io" }]

/-- Ann comments `@ann@b.io` and is told of it. -/
theorem handle_tells_author :
    handle id oneMember (.commentCreated
        { comment := { id := 3, cardId := 2, content := js "note to @ann@b.io" }, boardId := 4,
          authorId := 7, mentionedEmails := [js "ann@b.io"] }) =
      [{ routingKey := js "notification.comment.mentioned"
         payload :=
          { userId := 7, workspaceId := 1, type := .commentMentioned,
            title := js "You were mentioned in a comment", body := some (js "note to @ann@b.io"),
            entityType := js "comment", entityId := 3, boardId := 4, cardId := 2,
            actorId := 7 } }] := by
  decide +kernel

/-- User 10 spells their own identifier with a capital A, and is told of the assignment. -/
example :
    (handle id oneMember (.assigneeAdded
        { cardId := 2, boardId := 4, userId := .lastCapital 10 (by decide), addedBy := 10 })).map
      (fun p => p.payload.userId.id) = [10] := by
  decide +kernel

example : parseMentionedEmails id (js "cc @ann@b.io, @bob@c.d.org1 and @ann@b.io; not @x@y") =
    [js "ann@b.io", js "bob@c.d.org"] := by
  decide +kernel

end NotificationProducerListener

end SyncBoard.Notification
