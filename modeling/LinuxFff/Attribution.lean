import LinuxFff.TaggedLines
import LinuxFff.TlsDelivery

/-!
# Who said what in `server_tls_final.c`

Names, notices and what the clients send share one format: a line starts with a
name and `": "`, and the server uses the name `[SERVER]`. A line can be taken
for what it says it is as long as every record that is received keeps within
the format.
-/

namespace LinuxFff.Attribution

open LinuxFff.CString LinuxFff.ClientTables LinuxFff.Roster LinuxFff.StepSystem
open LinuxFff.TaggedLines LinuxFff.TlsServer

set_option autoImplicit false

/-- The name and the text of a line of the form `name: text`. -/
def tag (line : Bytes) : Option (Bytes × Bytes) := cut 58 32 line

def serverName : Bytes := ascii "[SERVER]"

/-- The string in `username` after `username[strcspn (username, "\n")] = 0`. -/
def upToNewline (buffer : Bytes) : Bytes := (cstr buffer).takeWhile fun byte => byte != newline

/-- `authenticate` has cut the username that it gives back at its newline. -/
def Admitted : Action → Prop
  | .authenticate _ (some name) => newline ∉ cstr name
  | _ => True

/-- The record is one line or more; the name in front of a later line, if there
is one, is the sender's. -/
structure InFormat (username record : Bytes) : Prop where
  filled : record ≠ []
  ended : Ended newline record
  fits : username.length + 2 + record.length < 1100
  untagged : tag username = none
  notServer : username ≠ serverName
  later : ∀ line ∈ (lines newline record).tail, ∀ found ∈ tag line, found.1 = username

instance (username record : Bytes) : Decidable (InFormat username record) :=
  decidable_of_iff (record ≠ [] ∧ Ended newline record ∧
      username.length + 2 + record.length < 1100 ∧ tag username = none ∧ username ≠ serverName ∧
      ∀ line ∈ (lines newline record).tail, ∀ found ∈ tag line, found.1 = username)
    ⟨fun all => ⟨all.1, all.2.1, all.2.2.1, all.2.2.2.1, all.2.2.2.2.1, all.2.2.2.2.2⟩,
      fun inFormat => ⟨inFormat.filled, inFormat.ended, inFormat.fits, inFormat.untagged,
        inFormat.notServer, inFormat.later⟩⟩

def Plain (state : State) : Action → Prop
  | .receive session (some buffer) =>
      ∀ found ∈ state.sessions session, InFormat found.username (cstr buffer)
  | _ => True

instance (action : Action) : Decidable (Admitted action) :=
  match action with
  | .authenticate _ (some name) => inferInstanceAs (Decidable (newline ∉ cstr name))
  | .authenticate _ none | .accept _ _ | .handshake _ _ | .receive _ _ | .proceed _ => isTrue trivial

instance (state : State) (action : Action) : Decidable (Plain state action) :=
  match action with
  | .receive session (some buffer) => inferInstanceAs
      (Decidable (∀ found ∈ state.sessions session, InFormat found.username (cstr buffer)))
  | .receive _ none | .accept _ _ | .handshake _ _ | .authenticate _ _ | .proceed _ => isTrue trivial

/-- The run has a login or a sign-in of the session under the name. -/
def AuthenticatedAs (actions : List Action) (session : Nat) (username : Bytes) : Prop :=
  ∃ name, Action.authenticate session (some name) ∈ actions ∧ (cstr name).take 50 = username

/-- What the run has to show for a line of a message. -/
def Genuine (actions : List Action) (message : Message) (line : Bytes) : Prop :=
  ∀ name text, tag line = some (name, text) →
    (name ≠ serverName ∧ AuthenticatedAs actions message.author name ∧
      ∃ buffer, Action.receive message.author (some buffer) ∈ actions ∧
        line ∈ lines newline (name ++ ascii ": " ++ cstr buffer)) ∨
    (name = serverName ∧ ∃ username, AuthenticatedAs actions message.author username ∧
      (text = username ++ ascii " joined the chat" ∧ message.notice = .joined ∨
        text = username ++ ascii " left the chat" ∧
          Action.receive message.author none ∈ actions))

/-- Every line of the stream is a line of one of its messages, and genuine. -/
structure Attributed (actions : List Action) (messages : List Message) : Prop where
  own : lines newline (logFile messages) =
    messages.flatMap fun message => lines newline message.text
  genuine : ∀ message ∈ messages, ∀ line ∈ lines newline message.text,
    Genuine actions message line

theorem up_to_newline_admitted (session : Nat) (buffer : Bytes) :
    Admitted (.authenticate session (some (upToNewline buffer))) := by
  intro member
  have kept := List.mem_takeWhile_imp ((List.takeWhile_prefix _).subset member)
  simp at kept

section Texts

variable {username : Bytes}

/-- The name of a line has no `": "` in it. -/
theorem tag_eq_some {line name text : Bytes} :
    tag line = some (name, text) ↔ line = name ++ ascii ": " ++ text ∧ tag name = none := by
  rw [List.append_assoc]
  exact cut_eq_some (by decide)

theorem tag_append {name : Bytes} (text : Bytes) (free : tag name = none) :
    tag (name ++ ascii ": " ++ text) = some (name, text) :=
  tag_eq_some.mpr ⟨rfl, free⟩

theorem server_line (suffix : Bytes) (short : username.length ≤ 50)
    (inLine : newline ∉ username) (suffixShort : suffix.length ≤ 80)
    (suffixInLine : newline ∉ suffix) :
    snprintf 150 (ascii "[SERVER]: " ++ username ++ (suffix ++ [newline])) =
      serverName ++ ascii ": " ++ (username ++ suffix) ++ [newline] ∧
    lines newline (serverName ++ ascii ": " ++ (username ++ suffix) ++ [newline]) =
      [serverName ++ ascii ": " ++ (username ++ suffix)] := by
  have opening : ascii "[SERVER]: " = serverName ++ ascii ": " := by decide
  have openingLength : (serverName ++ ascii ": ").length = 10 := by decide
  have openingInLine : newline ∉ serverName ++ ascii ": " := by decide
  constructor
  · rw [opening, snprintf, List.take_of_length_le]
    · simp only [List.append_assoc]
    · rw [List.length_append, List.length_append, openingLength, List.length_append,
        List.length_singleton]
      omega
  · apply lines_single
    simp only [List.mem_append, not_or] at openingInLine ⊢
    exact ⟨openingInLine, inLine, suffixInLine⟩

theorem said_text {buffer : Bytes} (inFormat : InFormat username (cstr buffer)) :
    (Notice.said buffer).text username = username ++ ascii ": " ++ cstr buffer := by
  have colon : (ascii ": ").length = 2 := by decide
  have fits := inFormat.fits
  rw [Notice.text, snprintf, List.take_of_length_le]
  rw [List.length_append, List.length_append, colon]
  omega

/-- A record in the format gives lines of its sender, and lines without a name. -/
theorem said_lines {record : Bytes} (inFormat : InFormat username record)
    (inLine : newline ∉ username) :
    ∀ line ∈ lines newline (username ++ ascii ": " ++ record), ∀ found ∈ tag line,
      found.1 = username := by
  have colonInLine : newline ∉ ascii ": " := by decide
  have frontInLine : newline ∉ username ++ ascii ": " := by
    simp only [List.mem_append, not_or]
    exact ⟨inLine, colonInLine⟩
  have later := inFormat.later
  intro line member found tagged
  cases shape : lines newline record with
  | nil => exact absurd shape (lines_ne_nil inFormat.filled)
  | cons first more =>
      rw [lines_front frontInLine shape] at member
      rw [shape] at later
      rcases List.mem_cons.mp member with head | tail
      · rw [head, tag_append first inFormat.untagged] at tagged
        cases tagged
        rfl
      · exact later line tail found tagged

end Texts

section Run

variable {actions : List Action} {message : Message}

def Prompted (actions : List Action) (session : Nat) (username : Bytes) : Notice → Prop
  | .joined => True
  | .said buffer =>
      Action.receive session (some buffer) ∈ actions ∧ InFormat username (cstr buffer)
  | .left => Action.receive session none ∈ actions

structure Named (actions : List Action) (session : Nat) (username : Bytes) : Prop where
  authenticated : AuthenticatedAs actions session username
  inLine : newline ∉ username

/-- The author had the name in the text and the reason for the notice. -/
def Sourced (actions : List Action) (message : Message) : Prop :=
  ∃ username, Named actions message.author username ∧
    Prompted actions message.author username message.notice ∧
    message.text = message.notice.text username

theorem Named.short {session : Nat} {username : Bytes} (named : Named actions session username) :
    username.length ≤ 50 := by
  obtain ⟨name, _, same⟩ := named.authenticated
  rw [← same]
  exact List.length_take_le _ _

theorem genuine_notice {username suffix : Bytes}
    (named : Named actions message.author username) (suffixShort : suffix.length ≤ 80)
    (suffixInLine : newline ∉ suffix)
    (text : message.text =
      snprintf 150 (ascii "[SERVER]: " ++ username ++ (suffix ++ [newline])))
    (reason : suffix = ascii " joined the chat" ∧ message.notice = .joined ∨
      suffix = ascii " left the chat" ∧ Action.receive message.author none ∈ actions) :
    Ended newline message.text ∧
      ∀ line ∈ lines newline message.text, Genuine actions message line := by
  obtain ⟨whole, single⟩ :=
    server_line suffix named.short named.inLine suffixShort suffixInLine
  rw [text, whole]
  refine ⟨ended_snoc _, ?_⟩
  rw [single]
  intro line member name found tagged
  rw [List.mem_singleton.mp member, tag_append _ (by decide)] at tagged
  cases tagged
  right
  refine ⟨rfl, username, named.authenticated, ?_⟩
  rcases reason with ⟨same, joined⟩ | ⟨same, left⟩
  · exact Or.inl ⟨by rw [same], joined⟩
  · exact Or.inr ⟨by rw [same], left⟩

theorem genuine_message (sourced : Sourced actions message) :
    Ended newline message.text ∧
      ∀ line ∈ lines newline message.text, Genuine actions message line := by
  obtain ⟨username, named, prompted, text⟩ := sourced
  cases notice : message.notice with
  | joined =>
      rw [notice] at text
      have suffix : ascii " joined the chat\n" = ascii " joined the chat" ++ [newline] := by decide
      apply genuine_notice named (by decide) (by decide) _ (Or.inl ⟨rfl, notice⟩)
      rw [text, Notice.text, suffix]
  | left =>
      rw [notice] at text prompted
      have suffix : ascii " left the chat\n" = ascii " left the chat" ++ [newline] := by decide
      apply genuine_notice named (by decide) (by decide) _ (Or.inr ⟨rfl, prompted⟩)
      rw [text, Notice.text, suffix]
  | said buffer =>
      rw [notice] at text prompted
      obtain ⟨received, inFormat⟩ := prompted
      rw [text, said_text inFormat]
      refine ⟨inFormat.ended.append inFormat.filled, ?_⟩
      intro line member name found tagged
      have same : name = username := said_lines inFormat named.inLine line member _ tagged
      rw [same]
      exact Or.inl ⟨inFormat.notServer, named.authenticated, buffer, received, member⟩

theorem attributed_of_sourced {messages : List Message}
    (sourced : ∀ message ∈ messages, Sourced actions message) : Attributed actions messages where
  own := lines_flat_map fun message member => (genuine_message (sourced message member)).1
  genuine := fun message member => (genuine_message (sourced message member)).2

/-- What the phase of a session has behind it. -/
structure Backed (actions : List Action) (session : Nat) (found : Session) : Prop where
  named : 2 ≤ found.phase.rank → found.phase.rank ≤ 9 → Named actions session found.username
  prompted : ∀ notice, found.phase = .broadcasting notice →
    Prompted actions session found.username notice
  saving : ∀ message, found.phase = .saving message → Sourced actions message

structure Faithful (actions : List Action) (state : State) : Prop where
  backed : ∀ session found, state.sessions session = some found → Backed actions session found
  chatlog : ∀ message ∈ state.chatlog, Sourced actions message
  live : ∀ session, ∀ message ∈ state.live session, Sourced actions message

theorem faithful_initial : Faithful actions initial where
  backed := by
    intro session found impossible
    cases impossible
  chatlog := by
    intro message impossible
    cases impossible
  live := by
    intro session message impossible
    cases impossible

variable {state next : State} {session : Nat} {found moved : Session}

theorem Backed.quiet (named : 2 ≤ moved.phase.rank → moved.phase.rank ≤ 9 →
      Named actions session moved.username)
    (notBroadcasting : ∀ notice, moved.phase ≠ .broadcasting notice)
    (notSaving : ∀ message, moved.phase ≠ .saving message) : Backed actions session moved where
  named := named
  prompted := fun notice here => absurd here (notBroadcasting notice)
  saving := fun message here => absurd here (notSaving message)

theorem Backed.unnamed (outside : moved.phase.rank < 2 ∨ 9 < moved.phase.rank)
    (notBroadcasting : ∀ notice, moved.phase ≠ .broadcasting notice)
    (notSaving : ∀ message, moved.phase ≠ .saving message) : Backed actions session moved :=
  Backed.quiet (by omega) notBroadcasting notSaving

/-- A step that moves one session and leaves the log and the streams alone. -/
structure Silent (state next : State) (session : Nat) (moved : Session) : Prop where
  sessions : next.sessions = Function.update state.sessions session (some moved) := by rfl
  chatlog : next.chatlog = state.chatlog := by rfl
  live : next.live = state.live := by rfl

theorem Faithful.move (holds : Faithful actions state) (moved : Session)
    (silent : Silent state next session moved) (backed : Backed actions session moved) :
    Faithful actions next where
  backed := forall_update holds.backed silent.sessions backed
  chatlog := silent.chatlog ▸ holds.chatlog
  live := silent.live ▸ holds.live

theorem faithful_broadcast {notice : Notice} (holds : Faithful actions state)
    (lookup : state.sessions session = some found) (here : found.phase = .broadcasting notice) :
    Faithful actions ((state.broadcast (found.message session notice)).move session
      { found with phase := .saving (found.message session notice), sent := found.sent + 1 }) := by
  have backed := holds.backed session found lookup
  obtain ⟨lower, upper, _, _⟩ := TlsHistory.broadcasting_rank found session notice
  have named := backed.named (by rw [here]; omega) (by rw [here]; omega)
  have sourced : Sourced actions (found.message session notice) :=
    ⟨found.username, named, backed.prompted notice here, rfl⟩
  constructor
  case backed =>
    refine forall_update holds.backed rfl ?_
    constructor
    case named => exact fun _ _ => named
    case prompted => simp
    case saving =>
      intro message same
      cases same
      exact sourced
  case chatlog => exact holds.chatlog
  case live =>
    intro other message member
    have written : message ∈ writeAll state.heap (found.message session notice) state.live
        (recipients (notice.sender found.ssl) state.clients) other := member
    rw [write_all_apply] at written
    rcases List.mem_append.mp written with old | new
    · exact holds.live other message old
    · rw [List.eq_of_mem_replicate new]
      exact sourced

theorem faithful_save {message : Message} (holds : Faithful actions state)
    (lookup : state.sessions session = some found) (here : found.phase = .saving message) :
    Faithful actions ((state.saveChatLog message).move session
      { found with phase := message.notice.next }) := by
  have backed := holds.backed session found lookup
  obtain ⟨_, notSaving, lower, upper, _⟩ := TlsHistory.next_rank message
  have named := backed.named (by rw [here]; omega) (by rw [here]; omega)
  constructor
  case backed =>
    refine forall_update holds.backed rfl (Backed.quiet (fun _ _ => named) ?_ notSaving)
    intro notice
    cases message.notice <;> simp [Notice.next]
  case chatlog =>
    intro other member
    rcases List.mem_append.mp member with old | new
    · exact holds.chatlog other old
    · rw [List.mem_singleton.mp new]
      exact backed.saving message here
  case live => exact holds.live

theorem faithful_proceed (holds : Faithful actions state)
    (lookup : state.sessions session = some found)
    (stepped : proceed state session found = some next) : Faithful actions next := by
  have named := (holds.backed session found lookup).named
  unfold proceed at stepped
  split at stepped
  case h_1 here =>
    cases stepped
    have entered : Backed actions session { found with phase := .broadcasting .joined } := by
      constructor
      case named =>
        exact fun _ _ => named (by simp [here, Phase.rank]) (by simp [here, Phase.rank])
      case prompted =>
        intro notice same
        cases same
        trivial
      case saving => simp
    obtain ⟨clients, event, _, same⟩ := add_client_cases state session found
    rw [same]
    exact holds.move _ {} entered
  case h_2 notice here =>
    cases stepped
    exact faithful_broadcast holds lookup here
  case h_3 message here =>
    cases stepped
    exact faithful_save holds lookup here
  case h_4 here =>
    cases stepped
    have stillNamed := named (by simp [here, Phase.rank]) (by simp [here, Phase.rank])
    exact holds.move { found with phase := .reading } {}
      (Backed.quiet (fun _ _ => stillNamed) (by simp) (by simp))
  case h_5 here =>
    cases stepped
    exact holds.move { found with phase := .freeing } {}
      (Backed.unnamed (by simp [Phase.rank]) (by simp) (by simp))
  case h_6 here =>
    cases stepped
    exact holds.move { found with phase := .ended } {}
      (Backed.unnamed (by simp [Phase.rank]) (by simp) (by simp))
  case h_7 => cases stepped

theorem cut_no_newline {name : Bytes} (admitted : newline ∉ cstr name) :
    newline ∉ (cstr name).take 50 := fun member => admitted (List.mem_of_mem_take member)

theorem faithful_step {action : Action} (holds : Faithful actions state)
    (condition : (action ∈ actions ∧ Admitted action) ∧ Plain state action)
    (stepped : step state action = some next) : Faithful actions next := by
  obtain ⟨⟨member, admitted⟩, plain⟩ := condition
  cases action with
  | accept session ssl =>
      obtain ⟨_, _, _, same⟩ := accept_cases stepped
      subst same
      exact holds.move ⟨ssl, [], .handshake, 0⟩ {}
        (Backed.unnamed (by simp [Phase.rank]) (by simp) (by simp))
  | handshake session success =>
      obtain ⟨found, _, _, ⟨_, same⟩ | ⟨_, same⟩⟩ := handshake_cases stepped
      · subst same
        exact holds.move { found with phase := .authenticating } {}
          (Backed.unnamed (by simp [Phase.rank]) (by simp) (by simp))
      · subst same
        exact holds.move { found with phase := .ended } {}
          (Backed.unnamed (by simp [Phase.rank]) (by simp) (by simp))
  | authenticate session result =>
      obtain ⟨found, _, _, ⟨_, same⟩ | ⟨name, admits, same⟩⟩ := authenticate_cases stepped
      · subst same
        exact holds.move { found with phase := .freeing } {}
          (Backed.unnamed (by simp [Phase.rank]) (by simp) (by simp))
      · subst same admits
        have named : Named actions session ((cstr name).take 50) :=
          ⟨⟨name, member, rfl⟩, cut_no_newline admitted⟩
        exact holds.move { found with username := (cstr name).take 50, phase := .adding } {}
          (Backed.quiet (fun _ _ => named) (by simp) (by simp))
  | receive session record =>
      obtain ⟨found, lookup, here, outcome⟩ := receive_cases stepped
      have backed := holds.backed session found lookup
      have named := backed.named (by simp [here, Phase.rank]) (by simp [here, Phase.rank])
      rcases outcome with ⟨closes, same⟩ | ⟨buffer, reads, same⟩
      · subst same closes
        refine holds.move { found with phase := .broadcasting .left } {}
          ⟨fun _ _ => named, ?_, by simp⟩
        intro notice same
        cases same
        exact member
      · subst same reads
        refine holds.move { found with phase := .broadcasting (.said buffer) } {}
          ⟨fun _ _ => named, ?_, by simp⟩
        intro notice same
        cases same
        exact ⟨member, plain found lookup⟩
  | proceed session =>
      obtain ⟨found, lookup, proceeded⟩ := proceed_cases stepped
      exact faithful_proceed holds lookup proceeded

/-- When every record keeps within the format, the lines of the log and of what
is broadcast to each client are genuine. -/
theorem lines_attributed (actions : List Action) (final : State)
    (admitted : ∀ action ∈ actions, Admitted action)
    (plain : Meets step Plain initial actions) (ran : run step initial actions = some final) :
    Attributed actions final.chatlog ∧ ∀ session, Attributed actions (final.live session) := by
  have listed : Meets step (fun _ action => action ∈ actions ∧ Admitted action) initial actions :=
    meets_of_actions (fun action member _ => ⟨member, admitted action member⟩) initial
  have faithful : Faithful actions final := run_keeps
    (fun _ _ _ holds condition stepped => faithful_step holds condition stepped)
    faithful_initial (listed.and plain) ran
  exact ⟨attributed_of_sourced faithful.chatlog, fun session =>
    attributed_of_sourced (faithful.live session)⟩

end Run

/-- A line in the name of somebody who never logged in belongs to no message. -/
theorem not_attributed {actions : List Action} {messages : List Message} {line name text : Bytes}
    (shown : line ∈ lines newline (logFile messages)) (tagged : tag line = some (name, text))
    (notServer : name ≠ serverName) (nobody : ∀ session, ¬AuthenticatedAs actions session name) :
    ¬Attributed actions messages := by
  intro attributed
  rw [attributed.own] at shown
  obtain ⟨message, member, inside⟩ := List.mem_flatMap.mp shown
  rcases attributed.genuine message member line inside name text tagged with
    ⟨_, authenticated, _⟩ | ⟨server, _⟩
  · exact nobody _ authenticated
  · exact notServer server

def speak (record : Bytes) : List Action :=
  TlsDelivery.join 0 1 (ascii "al") ++ [.receive 0 (some record), .proceed 0, .proceed 0]

theorem lines_attributed_two_lines :
    ∃ final, run step initial (speak (ascii "hi\nthere\n")) = some final ∧
      lines newline (logFile final.chatlog) =
        [ascii "[SERVER]: al joined the chat", ascii "al: hi", ascii "there"] ∧
      Attributed (speak (ascii "hi\nthere\n")) final.chatlog := by
  refine ⟨_, rfl, by decide, ?_⟩
  exact (lines_attributed (speak (ascii "hi\nthere\n")) _ (by decide) (by decide) rfl).1

/-- A record with a line in the name of somebody who never logged in. -/
def forgery : List Action := speak (ascii "hi\nbo: hello\n")

theorem forged_line :
    ∃ final, run step initial forgery = some final ∧
      ascii "bo: hello" ∈ lines newline (logFile final.chatlog) ∧
      (∀ session, ¬AuthenticatedAs forgery session (ascii "bo")) ∧
      ¬Attributed forgery final.chatlog := by
  have nobody : ∀ session, ¬AuthenticatedAs forgery session (ascii "bo") := by
    intro session authenticated
    obtain ⟨name, member, same⟩ := authenticated
    simp only [forgery, speak, TlsDelivery.join, List.mem_append, List.mem_cons, reduceCtorEq,
      Action.authenticate.injEq, Option.some.injEq, List.not_mem_nil, false_or, or_false] at member
    have alone : name = ascii "al" := member.2
    rw [alone] at same
    exact absurd same (by decide)
  have named : tag (ascii "bo: hello") = some (ascii "bo", ascii "hello") := by decide
  refine ⟨_, rfl, by decide, nobody, ?_⟩
  exact not_attributed (by decide) named (by decide) nobody

end LinuxFff.Attribution
