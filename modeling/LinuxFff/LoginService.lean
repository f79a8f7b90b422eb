import LinuxFff.ClientKeyboard
import LinuxFff.PlainCredentials

/-!
# Logging in to `server.c` from `client.c`

Any number of clients connect, are asked for a mode, a username and a password, and send what
was typed. `main` of `server.c` serves one connection after the other: three `recv` calls, the
look into `users.txt` or the new line in it, and the answer. Bytes arrive as the network likes, and
clients connect and type while others are served.
-/

namespace LinuxFff.LoginService

open LinuxFff.CString LinuxFff.ClientKeyboard LinuxFff.PlainCredentials LinuxFff.StepSystem
open LinuxFff.UsersFile hiding authenticate
open LinuxFff.HandshakeFraming (Exact Hello Locals Sized Waiting overwrite zeroed zeroed_sized)

set_option autoImplicit false

inductive Request where
  | login (username password : Bytes)
  | signIn (username password : Bytes)
  | neither
  deriving DecidableEq

def request (mode : BitVec 32) (username password : Bytes) : Request :=
  if mode = 1 then .login username password
  else if mode = 2 then .signIn username password
  else .neither

def Locals.request (locals : Locals) : Request :=
  LoginService.request (intOf locals.mode) (cstr locals.username) (cstr locals.password)

def asked (keys : Keyboard) : Request :=
  request keys.mode keys.username.text keys.password.text

/-- `int auth = 0` and the two calls. -/
def auth (stale users : Bytes) : Request → Nat × Bytes
  | .login username password => ((checkUser stale username password users).getD 0, users)
  | .signIn username password => registerUser username password users
  | .neither => (0, users)

/-- A process of `client.c`, and its connection: `reply` is what the server has sent, `heard` the
memory of the client's `auth` after its `recv`. -/
structure Connection where
  keys : Keyboard
  arrays : Arrays
  link : HandshakeFraming.State
  reply : Option Nat
  heard : Option Bytes

def connect (keys : Keyboard) (arrays : Arrays) : Connection where
  keys := keys
  arrays := arrays
  link := HandshakeFraming.start (hello keys arrays) zeroed
  reply := none
  heard := none

structure Served where
  connection : Nat
  request : Request
  auth : Nat

/-- `backlog` are the connections that have not been accepted. The lists of what has happened are
for the statements; no step reads them. -/
structure State where
  connections : Nat → Option Connection
  backlog : List Nat
  serving : Option Nat
  users : Bytes
  connected : List Nat
  served : List Served

def start (users : Bytes) : State := ⟨fun _ => none, [], none, users, [], []⟩

/-- `accept` finds its variables with what lies on the stack, and so does `check_user`. -/
inductive Action where
  | connect (connection : Nat) (keys : Keyboard) (arrays : Arrays)
  | send (connection : Nat)
  | deliver (connection count : Nat)
  | accept (connection : Nat) (stale : { locals : Locals // Sized locals })
  | recv (connection count : Nat)
  | reply (connection : Nat) (stale : Bytes)
  | hear (connection count : Nat) (stale : BitVec 32)

def Action.connection : Action → Nat
  | .connect connection _ _ => connection
  | .send connection => connection
  | .deliver connection _ => connection
  | .accept connection _ => connection
  | .recv connection _ => connection
  | .reply connection _ => connection
  | .hear connection _ _ => connection

def State.put (state : State) (connection : Nat) (found : Connection) : State :=
  { state with connections := Function.update state.connections connection (some found) }

def onLink (state : State) (connection : Nat) (found : Connection)
    (action : HandshakeFraming.Action) : Option State :=
  (HandshakeFraming.step found.link action).map fun link =>
    state.put connection { found with link }

/-- A step of a connection that there is. -/
def stepOn (state : State) (found : Connection) : Action → Option State
  | .connect _ _ _ => none
  | .send connection => onLink state connection found .send
  | .deliver connection count => onLink state connection found (.deliver count)
  | .accept connection stale =>
      if state.serving = none ∧ state.backlog.head? = some connection then
        some { state.put connection { found with link := { found.link with locals := stale.1 } } with
          backlog := state.backlog.tail
          serving := some connection }
      else none
  | .recv connection count =>
      if state.serving = some connection then onLink state connection found (.recv count) else none
  | .reply connection stale =>
      if state.serving = some connection ∧ found.link.waiting = .chat then
        let asked := Locals.request found.link.locals
        let answer := auth stale state.users asked
        some { state.put connection { found with reply := some answer.1 } with
          serving := none
          users := answer.2
          served := state.served ++ [⟨connection, asked, answer.1⟩] }
      else none
  | .hear connection count stale =>
      match found.reply with
      | none => none
      | some auth =>
          -- the client is at its `recv` once it has sent everything
          if found.link.unsent = [] ∧ found.heard = none ∧ 1 ≤ count ∧ count ≤ 4 then
            some (state.put connection { found with
              heard := some (overwrite (intBytes stale)
                ((intBytes (BitVec.ofNat 32 auth)).take count)) })
          else none

def step (state : State) (action : Action) : Option State :=
  match state.connections action.connection, action with
  | none, .connect connection keys arrays =>
      some { state.put connection (connect keys arrays) with
        backlog := state.backlog ++ [connection]
        connected := state.connected ++ [connection] }
  | none, _ => none
  | some found, action => stepOn state found action

/-- A new username or password is a word, and each `recv` returns its whole field. -/
def Proper (state : State) : Action → Prop
  | .connect _ keys _ => keys.mode = 2 → Word keys.username.text ∧ Word keys.password.text
  | .recv connection count => ∀ found ∈ state.connections connection, count = found.link.waiting.size
  | .hear _ count _ => count = 4
  | _ => True

instance decidableProper (state : State) (action : Action) : Decidable (Proper state action) := by
  unfold Proper
  cases action <;> infer_instance

/-- The pairs in `users.txt` after some requests. -/
def accounts (initial : List (Bytes × Bytes)) (served : List Served) : List (Bytes × Bytes) :=
  initial ++ served.filterMap fun entry =>
    match entry.request with
    | .signIn username password => some (username, password)
    | _ => none

/-- What a request is answered over such pairs. -/
def verdict (accounts : List (Bytes × Bytes)) : Request → Nat
  | .login username password => if (username, password) ∈ accounts then 1 else 0
  | .signIn _ _ => 1
  | .neither => 0

/-- Every request is answered from the pairs at the start and those signed in before it. -/
def Answered (initial : List (Bytes × Bytes)) (served : List Served) : Prop :=
  ∀ before entry after, served = before ++ entry :: after →
    entry.auth = verdict (accounts initial before) entry.request

/-- A connection as the server and the network have left it. -/
structure Linked (found : Connection) : Prop where
  exactly : Exact (hello found.keys found.arrays) found.link
  sends : ∀ chunk ∈ found.link.unsent, chunk ≠ []
  heard : ∀ bytes, found.heard = some bytes →
    ∃ auth, found.reply = some auth ∧ bytes = intBytes (BitVec.ofNat 32 auth)
  words : found.keys.mode = 2 → Word found.keys.username.text ∧ Word found.keys.password.text

structure Sound (initial : List (Bytes × Bytes)) (state : State) : Prop where
  queue : state.connected =
    state.served.map Served.connection ++ (state.serving.toList ++ state.backlog)
  distinct : state.connected.Nodup
  known : ∀ connection, connection ∈ state.connected ↔
    (state.connections connection).isSome = true
  linked : ∀ connection found, state.connections connection = some found → Linked found
  waits : ∀ connection found, state.connections connection = some found →
    connection ∈ state.backlog → found.link.waiting = .mode
  silent : ∀ connection found, state.connections connection = some found →
    connection ∉ state.served.map Served.connection → found.reply = none
  replied : ∀ connection found, state.connections connection = some found →
    ∀ entry ∈ state.served, entry.connection = connection →
      found.reply = some entry.auth ∧ found.link.waiting = .chat ∧
        entry.request = asked found.keys
  answered : Answered initial state.served
  users : state.users = fileOf (accounts initial state.served)
  clean : ∀ pair ∈ accounts initial state.served, CleanPair pair

section Links

variable {found : Connection} {link : HandshakeFraming.State} {action : HandshakeFraming.Action}

theorem linked_connect {keys : Keyboard} {arrays : Arrays}
    (words : keys.mode = 2 → Word keys.username.text ∧ Word keys.password.text) :
    Linked (connect keys arrays) where
  exactly := HandshakeFraming.exact_start _ zeroed_sized
  sends := by
    intro chunk member empty
    have sizes : chunk.length = 4 ∨ chunk.length = 50 := by
      change chunk ∈ [(hello keys arrays).mode, (hello keys arrays).username.array,
        (hello keys arrays).password.array] at member
      simp only [List.mem_cons, List.not_mem_nil, or_false] at member
      rcases member with same | same | same <;> rw [same]
      · exact Or.inl (hello keys arrays).modeSize
      · exact Or.inr (hello keys arrays).username.size
      · exact Or.inr (hello keys arrays).password.size
    rw [empty, List.length_nil] at sizes
    omega
  heard := by
    intro bytes impossible
    cases impossible
  words := words

theorem unsent_subset (stepped : HandshakeFraming.step found.link action = some link) :
    link.unsent ⊆ found.link.unsent := by
  cases action with
  | send =>
      simp only [HandshakeFraming.step] at stepped
      split at stepped
      · cases stepped
      case h_2 chunk rest shape =>
        cases stepped
        rw [shape]
        exact List.subset_cons_self _ _
  | deliver count =>
      simp only [HandshakeFraming.step, Option.ite_none_right_eq_some, Option.some.injEq] at stepped
      obtain ⟨_, rfl⟩ := stepped
      exact List.Subset.refl _
  | recv count =>
      simp only [HandshakeFraming.step, Option.ite_none_right_eq_some, Option.some.injEq] at stepped
      obtain ⟨_, rfl⟩ := stepped
      exact List.Subset.refl _

theorem Linked.step (linked : Linked found) (whole : HandshakeFraming.WholeField found.link action)
    (stepped : HandshakeFraming.step found.link action = some link) :
    Linked { found with link } where
  exactly := HandshakeFraming.exact_step linked.exactly whole stepped
  sends := fun chunk member => linked.sends chunk (unsent_subset stepped member)
  heard := linked.heard
  words := linked.words

theorem Linked.accept (linked : Linked found) (first : found.link.waiting = .mode)
    (stale : { locals : Locals // Sized locals }) :
    Linked { found with link := { found.link with locals := stale.1 } } where
  exactly := by
    have aligned := linked.exactly.aligned
    simp only [HandshakeFraming.Aligned, first] at aligned
    refine ⟨stale.2, ?_⟩
    simp only [HandshakeFraming.Aligned, first]
    exact aligned
  sends := linked.sends
  heard := linked.heard
  words := linked.words

theorem Linked.request (linked : Linked found) (ended : found.link.waiting = .chat) :
    Locals.request found.link.locals = asked found.keys ∧ found.link.unread = [] := by
  have aligned := linked.exactly.aligned
  simp only [HandshakeFraming.Aligned, ended] at aligned
  obtain ⟨mode, username, password, unread⟩ := aligned
  refine ⟨?_, unread⟩
  have sentMode : (hello found.keys found.arrays).mode = intBytes found.keys.mode := rfl
  have sentName : cstr (hello found.keys found.arrays).username.array = found.keys.username.text :=
    read_entry_string _ found.arrays.usernameSize _ _
  have sentWord : cstr (hello found.keys found.arrays).password.array = found.keys.password.text :=
    read_entry_string _ found.arrays.passwordSize _ _
  rw [Locals.request, mode, username, password, sentMode, int_of_bytes, sentName, sentWord]
  rfl

end Links

theorem clean_entry (entry : Entry) (word : Word entry.text) : CleanField entry.text where
  short := by
    have short := entry.short
    omega
  noNewline := entry.noNewline
  noNul := entry.noNul
  word := word

section Accounts

variable {initial : List (Bytes × Bytes)} {served : List Served} {entry : Served}

theorem accounts_append :
    accounts initial (served ++ [entry]) = accounts initial served ++
      (match entry.request with
        | .signIn username password => [(username, password)]
        | _ => []) := by
  unfold accounts
  rw [List.filterMap_append, ← List.append_assoc]
  congr 1
  cases shape : entry.request <;> simp [shape]

theorem answered_append (answered : Answered initial served)
    (answer : entry.auth = verdict (accounts initial served) entry.request) :
    Answered initial (served ++ [entry]) := by
  intro before other after split
  rcases List.eq_nil_or_concat after with empty | ⟨rest, last, shape⟩
  · rw [empty] at split
    obtain ⟨sameBefore, sameEntry⟩ := List.append_inj_left' split rfl, List.append_inj_right' split rfl
    rw [← sameBefore, ← List.singleton_inj.mp sameEntry]
    exact answer
  · rw [shape, List.concat_eq_append, ← List.cons_append, ← List.append_assoc] at split
    exact answered before other rest (List.append_inj_left' split rfl)

/-- On a file of clean pairs a request gets its verdict, and the file stays one. -/
theorem auth_file {pairs : List (Bytes × Bytes)} (clean : ∀ pair ∈ pairs, CleanPair pair)
    (stale : Bytes) (asked : Request) :
    auth stale (fileOf pairs) asked = (verdict pairs asked, fileOf (pairs ++
      (match asked with
        | .signIn username password => [(username, password)]
        | _ => []))) := by
  cases asked with
  | login username password =>
      simp [auth, check_user_file stale username password pairs clean, verdict]
  | signIn username password =>
      rw [auth, registerUser, file_of_append]
      rfl
  | neither => simp [auth, verdict]

end Accounts

section Steps

variable {initial : List (Bytes × Bytes)} {state next : State} {connection : Nat}
  {found moved : Connection}

theorem Sound.unserved (sound : Sound initial state)
    (waiting : connection ∈ state.serving.toList ++ state.backlog) :
    connection ∉ state.served.map Served.connection := by
  have distinct := sound.distinct
  rw [sound.queue] at distinct
  exact fun twice => (List.nodup_append.mp distinct).2.2 connection twice connection waiting rfl

theorem Sound.left_backlog (sound : Sound initial state)
    (serving : state.serving = some connection) : connection ∉ state.backlog := by
  have distinct := sound.distinct
  rw [sound.queue, serving] at distinct
  exact (List.nodup_cons.mp (List.nodup_append.mp distinct).2.1).1

/-- What a step may do to a connection without a new answer. -/
structure Moves (state : State) (connection : Nat) (found moved : Connection) : Prop where
  keys : moved.keys = found.keys
  reply : moved.reply = found.reply
  waiting : moved.link.waiting = found.link.waiting ∨ state.serving = some connection

theorem Sound.put (sound : Sound initial state) (lookup : state.connections connection = some found)
    (linked : Linked moved) (moves : Moves state connection found moved) :
    Sound initial (state.put connection moved) where
  queue := sound.queue
  distinct := sound.distinct
  known := by
    intro other
    refine (sound.known other).trans ?_
    change _ ↔ (Function.update state.connections connection (some moved) other).isSome = true
    by_cases same : other = connection
    · simp [same, lookup]
    · rw [Function.update_of_ne same]
  linked := forall_update sound.linked rfl linked
  waits := by
    refine forall_update sound.waits rfl ?_
    intro waiting
    rcases moves.waiting with same | serving
    · exact same.trans (sound.waits connection found lookup waiting)
    · exact absurd waiting (sound.left_backlog serving)
  silent := by
    refine forall_update sound.silent rfl ?_
    intro unserved
    exact moves.reply.trans (sound.silent connection found lookup unserved)
  replied := by
    refine forall_update sound.replied rfl ?_
    intro entry member same
    obtain ⟨reply, ended, request⟩ := sound.replied connection found lookup entry member same
    have stays : moved.link.waiting = found.link.waiting := by
      rcases moves.waiting with same | serving
      · exact same
      · have fresh := sound.unserved (by rw [serving]; exact List.mem_cons_self)
        exact absurd (List.mem_map.mpr ⟨entry, member, same⟩) fresh
    exact ⟨moves.reply.trans reply, stays.trans ended, by rw [moves.keys]; exact request⟩
  answered := sound.answered
  users := sound.users
  clean := sound.clean

theorem sound_start (clean : ∀ pair ∈ initial, CleanPair pair) :
    Sound initial (start (fileOf initial)) where
  queue := rfl
  distinct := List.nodup_nil
  known := by simp [start]
  linked := by
    intro connection found impossible
    cases impossible
  waits := by
    intro connection found impossible
    cases impossible
  silent := by
    intro connection found impossible
    cases impossible
  replied := by
    intro connection found impossible
    cases impossible
  answered := by
    intro before entry after split
    cases before <;> cases split
  users := by simp [start, accounts]
  clean := by
    intro pair member
    exact clean pair (by simpa [accounts, start] using member)

theorem sound_connect {keys : Keyboard} {arrays : Arrays} (sound : Sound initial state)
    (fresh : state.connections connection = none)
    (words : keys.mode = 2 → Word keys.username.text ∧ Word keys.password.text) :
    Sound initial { state.put connection (connect keys arrays) with
      backlog := state.backlog ++ [connection]
      connected := state.connected ++ [connection] } := by
  have unknown : connection ∉ state.connected := by
    rw [sound.known, fresh]
    simp
  have unserved : connection ∉ state.served.map Served.connection := by
    intro member
    rw [sound.queue] at unknown
    exact unknown (List.mem_append_left _ member)
  constructor
  case queue =>
    change state.connected ++ [connection] = _ ++ (_ ++ (state.backlog ++ [connection]))
    rw [sound.queue]
    simp [State.put]
  case distinct =>
    exact List.nodup_append.mpr ⟨sound.distinct, by simp, by
      intro one member other single same
      rw [List.mem_singleton.mp single] at same
      exact unknown (same ▸ member)⟩
  case known =>
    intro other
    change other ∈ state.connected ++ [connection] ↔
      (Function.update state.connections connection (some _) other).isSome = true
    by_cases same : other = connection
    · simp [same]
    · rw [Function.update_of_ne same, ← sound.known]
      simp [same]
  case linked => exact forall_update sound.linked rfl (linked_connect words)
  case waits =>
    intro other found lookup member
    by_cases same : other = connection
    · subst same
      change Function.update state.connections other (some _) other = some found at lookup
      rw [Function.update_self] at lookup
      cases lookup
      rfl
    · change Function.update state.connections connection (some _) other = some found at lookup
      rw [Function.update_of_ne same] at lookup
      refine sound.waits other found lookup ?_
      simpa [same] using member
  case silent => exact forall_update sound.silent rfl fun _ => rfl
  case replied =>
    refine forall_update sound.replied rfl ?_
    intro entry member same
    exact absurd (List.mem_map.mpr ⟨entry, member, same⟩) unserved
  case answered => exact sound.answered
  case users => exact sound.users
  case clean => exact sound.clean

theorem sound_accept (sound : Sound initial state) {rest : List Nat}
    (idle : state.serving = none) (backlog : state.backlog = connection :: rest) :
    Sound initial { state with backlog := rest, serving := some connection } where
  queue := by
    change state.connected = _ ++ (connection :: rest)
    rw [sound.queue, idle, backlog]
    rfl
  distinct := sound.distinct
  known := sound.known
  linked := sound.linked
  waits := by
    intro other found lookup member
    exact sound.waits other found lookup (by rw [backlog]; exact List.mem_cons_of_mem _ member)
  silent := sound.silent
  replied := sound.replied
  answered := sound.answered
  users := sound.users
  clean := sound.clean

theorem sound_reply (sound : Sound initial state)
    (lookup : state.connections connection = some found)
    (serving : state.serving = some connection) (ended : found.link.waiting = .chat)
    (stale : Bytes) :
    Sound initial { state.put connection
        { found with reply := some (auth stale state.users (Locals.request found.link.locals)).1 } with
      serving := none
      users := (auth stale state.users (Locals.request found.link.locals)).2
      served := state.served ++ [⟨connection, Locals.request found.link.locals,
        (auth stale state.users (Locals.request found.link.locals)).1⟩] } := by
  have linked := sound.linked connection found lookup
  have fresh : connection ∉ state.served.map Served.connection :=
    sound.unserved (by rw [serving]; exact List.mem_cons_self)
  have request := (linked.request ended).1
  have answer := auth_file sound.clean stale (asked found.keys)
  rw [request, sound.users, answer]
  constructor
  case queue =>
    change state.connected = (state.served ++ [_]).map Served.connection ++ ([] ++ state.backlog)
    rw [sound.queue, serving]
    simp
  case distinct => exact sound.distinct
  case known =>
    intro other
    refine (sound.known other).trans ?_
    change _ ↔ (Function.update state.connections connection (some _) other).isSome = true
    by_cases same : other = connection
    · simp [same, lookup]
    · rw [Function.update_of_ne same]
  case linked =>
    refine forall_update sound.linked rfl ⟨linked.exactly, linked.sends, ?_, linked.words⟩
    intro bytes heard
    obtain ⟨auth, reply, _⟩ := linked.heard bytes heard
    rw [sound.silent connection found lookup fresh] at reply
    cases reply
  case waits =>
    refine forall_update sound.waits rfl ?_
    intro waiting
    exact absurd waiting (sound.left_backlog serving)
  case silent =>
    intro other found' lookup' unserved
    by_cases same : other = connection
    · exact absurd (by simp [same]) unserved
    · change Function.update state.connections connection (some _) other = some found' at lookup'
      rw [Function.update_of_ne same] at lookup'
      refine sound.silent other found' lookup' fun member => unserved ?_
      change other ∈ (state.served ++ [_]).map Served.connection
      rw [List.map_append]
      exact List.mem_append_left _ member
  case replied =>
    intro other found' lookup' entry member same
    rcases List.mem_append.mp member with earlier | last
    · have elsewhere : other ≠ connection := fun own =>
        fresh (List.mem_map.mpr ⟨entry, earlier, same.trans own⟩)
      change Function.update state.connections connection (some _) other = some found' at lookup'
      rw [Function.update_of_ne elsewhere] at lookup'
      exact sound.replied other found' lookup' entry earlier same
    · rw [List.mem_singleton.mp last] at same ⊢
      change connection = other at same
      subst same
      change Function.update state.connections connection (some _) connection = some found' at lookup'
      rw [Function.update_self] at lookup'
      cases lookup'
      exact ⟨rfl, ended, rfl⟩
  case answered => exact answered_append sound.answered rfl
  case users =>
    change fileOf _ = fileOf (accounts initial (state.served ++ [_]))
    rw [accounts_append]
  case clean =>
    change ∀ pair ∈ accounts initial (state.served ++ [_]), CleanPair pair
    intro pair member
    rw [accounts_append] at member
    rcases List.mem_append.mp member with earlier | last
    · exact sound.clean pair earlier
    · simp only [asked, LoginService.request] at last
      split at last
      case h_1 username password shape =>
        split at shape
        · cases shape
        · split at shape
          case isTrue signIn =>
            cases shape
            rw [List.mem_singleton.mp last]
            have username := found.keys.username
            obtain ⟨nameWord, passWord⟩ := linked.words signIn
            exact ⟨clean_entry found.keys.username nameWord, clean_entry found.keys.password passWord⟩
          case isFalse => cases shape
      case h_2 => cases last

theorem on_link_cases {action : HandshakeFraming.Action}
    (stepped : onLink state connection found action = some next) :
    ∃ link, HandshakeFraming.step found.link action = some link ∧
      next = state.put connection { found with link } := by
  unfold onLink at stepped
  obtain ⟨link, linkStep, same⟩ := Option.map_eq_some_iff.mp stepped
  exact ⟨link, linkStep, same.symm⟩

theorem sound_on_link {action : HandshakeFraming.Action} (sound : Sound initial state)
    (lookup : state.connections connection = some found)
    (whole : HandshakeFraming.WholeField found.link action)
    (waiting : ∀ link, HandshakeFraming.step found.link action = some link →
      link.waiting = found.link.waiting ∨ state.serving = some connection)
    (stepped : onLink state connection found action = some next) : Sound initial next := by
  obtain ⟨link, linkStep, rfl⟩ := on_link_cases stepped
  have linked := (sound.linked connection found lookup).step whole linkStep
  exact sound.put lookup linked ⟨rfl, rfl, waiting link linkStep⟩

theorem sound_step {action : Action} (sound : Sound initial state) (proper : Proper state action)
    (stepped : step state action = some next) : Sound initial next := by
  unfold step at stepped
  cases lookup : state.connections action.connection with
  | none =>
      cases action with
      | connect connection keys arrays =>
          have fresh : state.connections connection = none := lookup
          simp only [Action.connection, fresh, Option.some.injEq] at stepped
          cases stepped
          exact sound_connect sound fresh proper
      | _ => simp [lookup] at stepped
  | some found =>
      have stepped : stepOn state found action = some next := by
        simpa [lookup] using stepped
      cases action with
      | connect connection keys arrays => cases stepped
      | send connection =>
          have whole : HandshakeFraming.WholeField found.link .send := trivial
          refine sound_on_link sound lookup whole ?_ stepped
          exact fun link linkStep => Or.inl (HandshakeFraming.send_cases linkStep).2.1
      | deliver connection count =>
          have whole : HandshakeFraming.WholeField found.link (.deliver count) := trivial
          refine sound_on_link sound lookup whole ?_ stepped
          exact fun link linkStep => Or.inl (HandshakeFraming.deliver_cases linkStep).2.1
      | accept connection stale =>
          simp only [stepOn, Option.ite_none_right_eq_some, Option.some.injEq] at stepped
          obtain ⟨⟨idle, head⟩, rfl⟩ := stepped
          obtain ⟨rest, backlog⟩ : ∃ rest, state.backlog = connection :: rest := by
            cases shape : state.backlog with
            | nil => simp [shape] at head
            | cons first rest => exact ⟨rest, by simpa [shape] using head⟩
          have here : connection ∈ state.backlog := by simp [backlog]
          have first := sound.waits connection found lookup here
          have linked := (sound.linked connection found lookup).accept first stale
          have put := sound.put lookup linked ⟨rfl, rfl, Or.inl rfl⟩
          rw [backlog]
          exact sound_accept put idle backlog
      | recv connection count =>
          have whole : HandshakeFraming.WholeField found.link (.recv count) := by
            have asked : count = found.link.waiting.size := proper found lookup
            exact asked
          simp only [stepOn, Option.ite_none_right_eq_some] at stepped
          obtain ⟨serving, stepped⟩ := stepped
          exact sound_on_link sound lookup whole (fun _ _ => Or.inr serving) stepped
      | reply connection stale =>
          simp only [stepOn, Option.ite_none_right_eq_some, Option.some.injEq] at stepped
          obtain ⟨⟨serving, ended⟩, rfl⟩ := stepped
          exact sound_reply sound lookup serving ended stale
      | hear connection count stale =>
          simp only [stepOn] at stepped
          split at stepped
          case h_1 => cases stepped
          case h_2 auth reply =>
            simp only [Option.ite_none_right_eq_some, Option.some.injEq] at stepped
            obtain ⟨_, rfl⟩ := stepped
            have linked := sound.linked connection found lookup
            refine sound.put lookup ⟨linked.exactly, linked.sends, ?_, linked.words⟩
              ⟨rfl, rfl, Or.inl rfl⟩
            intro bytes heard
            cases heard
            refine ⟨auth, reply, ?_⟩
            have all : count = 4 := proper
            rw [all]
            rfl

end Steps

def recvsLeft : Waiting → Nat
  | .mode => 3
  | .username => 2
  | .password => 1
  | .chat => 0

def linkWork (link : HandshakeFraming.State) : Nat :=
  link.unsent.length + (link.inFlight ++ link.unsent.flatten).length + recvsLeft link.waiting

/-- The steps that a connection still takes at most. -/
def work (connection : Nat) (state : State) : Nat :=
  match state.connections connection with
  | none => 114
  | some found =>
      linkWork found.link + 2 * state.backlog.count connection +
        (if state.serving = some connection then 1 else 0) +
          (if found.heard = none then 1 else 0)

/-- A step that waits for nobody at a keyboard. -/
def Action.internal : Action → Bool
  | .connect _ _ _ => false
  | .send _ => false
  | _ => true

section Progress

variable {state next : State} {connection other : Nat} {found : Connection}
  {link : HandshakeFraming.State} {action : HandshakeFraming.Action}

theorem link_work_lowers (stepped : HandshakeFraming.step found.link action = some link) :
    linkWork link + 1 ≤ linkWork found.link := by
  cases action with
  | send =>
      simp only [HandshakeFraming.step] at stepped
      split at stepped
      · cases stepped
      case h_2 chunk rest shape =>
        cases stepped
        simp only [linkWork, shape, List.length_append, List.length_cons, List.flatten_cons]
        omega
  | deliver count =>
      simp only [HandshakeFraming.step, Option.ite_none_right_eq_some, Option.some.injEq] at stepped
      obtain ⟨⟨positive, inside⟩, rfl⟩ := stepped
      simp only [linkWork, List.length_append, List.length_drop]
      omega
  | recv count =>
      simp only [HandshakeFraming.step, Option.ite_none_right_eq_some, Option.some.injEq] at stepped
      obtain ⟨⟨positive, asked, _⟩, rfl⟩ := stepped
      have fewer : recvsLeft found.link.waiting.next + 1 ≤ recvsLeft found.link.waiting := by
        cases here : found.link.waiting <;> simp only [here, Waiting.size] at asked <;>
          simp only [recvsLeft, Waiting.next] <;> omega
      simp only [linkWork]
      omega

theorem connect_work {keys : Keyboard} {arrays : Arrays} :
    linkWork (connect keys arrays).link = 110 := by
  have username := (hello keys arrays).username.size
  have password := (hello keys arrays).password.size
  simp [linkWork, connect, HandshakeFraming.start, recvsLeft, (hello keys arrays).modeSize,
    username, password]

theorem work_some (lookup : state.connections connection = some found) :
    work connection state = linkWork found.link + 2 * state.backlog.count connection +
      (if state.serving = some connection then 1 else 0) +
        (if found.heard = none then 1 else 0) := by
  rw [work, lookup]

theorem work_put : work connection (state.put connection found) =
    linkWork found.link + 2 * state.backlog.count connection +
      (if state.serving = some connection then 1 else 0) +
        (if found.heard = none then 1 else 0) :=
  work_some (Function.update_self _ _ _)

theorem work_congr (connections : next.connections connection = state.connections connection)
    (backlog : next.backlog.count connection = state.backlog.count connection)
    (serving : next.serving = some connection ↔ state.serving = some connection) :
    work connection next = work connection state := by
  simp only [work, connections, backlog, serving]

/-- Only connections that there are wait in the backlog or are served. -/
def Waits (state : State) : Prop :=
  ∀ connection, connection ∈ state.backlog ∨ state.serving = some connection →
    (state.connections connection).isSome = true

structure Touches (state next : State) (connection : Nat) : Prop where
  connections : ∃ moved,
    next.connections = Function.update state.connections connection (some moved)
  backlog : ∀ other, other ≠ connection → next.backlog.count other = state.backlog.count other
  serving : ∀ other, other ≠ connection →
    (next.serving = some other ↔ state.serving = some other)

theorem touches_put (moved : Connection) :
    Touches state (state.put connection moved) connection where
  connections := ⟨moved, rfl⟩
  backlog := fun _ _ => rfl
  serving := fun _ _ => Iff.rfl

theorem backlog_cons {rest : List Nat} (head : state.backlog.head? = some connection)
    (tail : rest = state.backlog.tail) : state.backlog = connection :: rest := by
  cases shape : state.backlog with
  | nil => simp [shape] at head
  | cons first others =>
      rw [shape] at head tail
      cases head
      rw [tail]
      rfl

theorem step_touches {action : Action} (stepped : step state action = some next) :
    Touches state next action.connection := by
  unfold step at stepped
  cases lookup : state.connections action.connection with
  | none =>
      cases action with
      | connect connection keys arrays =>
          have fresh : state.connections connection = none := lookup
          simp only [Action.connection, fresh, Option.some.injEq] at stepped
          subst stepped
          refine ⟨⟨_, rfl⟩, ?_, fun _ _ => Iff.rfl⟩
          intro other elsewhere
          change other ≠ connection at elsewhere
          have apart : [connection].count other = 0 :=
            List.count_eq_zero.mpr (by simpa using elsewhere)
          change (state.backlog ++ [connection]).count other = _
          rw [List.count_append, apart, Nat.add_zero]
      | _ => simp [lookup] at stepped
  | some found =>
      have stepped : stepOn state found action = some next := by
        simpa [lookup] using stepped
      cases action with
      | connect connection keys arrays => cases stepped
      | send connection =>
          obtain ⟨link, _, rfl⟩ := on_link_cases stepped
          exact touches_put _
      | deliver connection count =>
          obtain ⟨link, _, rfl⟩ := on_link_cases stepped
          exact touches_put _
      | accept connection stale =>
          simp only [stepOn, Option.ite_none_right_eq_some, Option.some.injEq] at stepped
          obtain ⟨⟨idle, head⟩, rfl⟩ := stepped
          refine ⟨⟨_, rfl⟩, ?_, ?_⟩
          · intro other elsewhere
            change state.backlog.tail.count other = state.backlog.count other
            conv_rhs => rw [backlog_cons head rfl]
            exact (List.count_cons_of_ne (Ne.symm elsewhere)).symm
          · intro other elsewhere
            change some connection = some other ↔ _
            change other ≠ connection at elsewhere
            rw [idle]
            simp [Ne.symm elsewhere]
      | recv connection count =>
          simp only [stepOn, Option.ite_none_right_eq_some] at stepped
          obtain ⟨link, _, rfl⟩ := on_link_cases stepped.2
          exact touches_put _
      | reply connection stale =>
          simp only [stepOn, Option.ite_none_right_eq_some, Option.some.injEq] at stepped
          obtain ⟨⟨serving, _⟩, rfl⟩ := stepped
          refine ⟨⟨_, rfl⟩, fun _ _ => rfl, ?_⟩
          intro other elsewhere
          change none = some other ↔ _
          change other ≠ connection at elsewhere
          rw [serving]
          simp [Ne.symm elsewhere]
      | hear connection count stale =>
          simp only [stepOn] at stepped
          split at stepped
          case h_1 => cases stepped
          case h_2 =>
            simp only [Option.ite_none_right_eq_some, Option.some.injEq] at stepped
            obtain ⟨_, rfl⟩ := stepped
            exact touches_put _

theorem waits_step {action : Action} (waits : Waits state)
    (stepped : step state action = some next) : Waits next := by
  obtain ⟨⟨moved, connections⟩, backlog, serving⟩ := step_touches stepped
  intro other member
  rw [connections]
  by_cases same : other = action.connection
  · simp [same]
  · rw [Function.update_of_ne same]
    refine waits other ?_
    rcases member with waiting | served
    · refine Or.inl (List.count_pos_iff.mp ?_)
      rw [← backlog other same]
      exact List.count_pos_iff.mpr waiting
    · exact Or.inr ((serving other same).mp served)

theorem on_link_lowers (lookup : state.connections connection = some found)
    (stepped : onLink state connection found action = some next) :
    work connection next + 1 ≤ work connection state := by
  obtain ⟨link, linkStep, rfl⟩ := on_link_cases stepped
  have lowers := link_work_lowers linkStep
  rw [work_put, work_some lookup]
  simp only
  omega

theorem own_step_lowers {action : Action} (waits : Waits state)
    (stepped : step state action = some next) :
    work action.connection next + 1 ≤ work action.connection state := by
  unfold step at stepped
  cases lookup : state.connections action.connection with
  | none =>
      cases action with
      | connect connection keys arrays =>
          have fresh : state.connections connection = none := lookup
          have unknown : ¬(connection ∈ state.backlog ∨ state.serving = some connection) := by
            intro member
            have known := waits connection member
            rw [fresh] at known
            cases known
          have absent : state.backlog.count connection = 0 :=
            List.count_eq_zero.mpr fun member => unknown (Or.inl member)
          have unserved : ¬state.serving = some connection := fun served => unknown (Or.inr served)
          simp only [Action.connection, fresh, Option.some.injEq] at stepped
          subst stepped
          have before : work connection state = 114 := by rw [work, fresh]
          have total := @connect_work keys arrays
          have single : [connection].count connection = 1 := by simp
          simp only [Action.connection, before]
          rw [work_some (Function.update_self _ _ _), total]
          change 110 + 2 * (state.backlog ++ [connection]).count connection +
            (if state.serving = some connection then 1 else 0) + 1 + 1 ≤ 114
          rw [List.count_append, absent, single, if_neg unserved]
      | _ => simp [lookup] at stepped
  | some found =>
      have stepped : stepOn state found action = some next := by
        simpa [lookup] using stepped
      cases action with
      | connect connection keys arrays => cases stepped
      | send connection => exact on_link_lowers lookup stepped
      | deliver connection count => exact on_link_lowers lookup stepped
      | accept connection stale =>
          simp only [stepOn, Option.ite_none_right_eq_some, Option.some.injEq] at stepped
          obtain ⟨⟨idle, head⟩, rfl⟩ := stepped
          have lookup : state.connections connection = some found := lookup
          have count : state.backlog.count connection =
              state.backlog.tail.count connection + 1 := by
            rw [backlog_cons head rfl, List.count_cons_self]
            rfl
          simp only [Action.connection]
          rw [work_some (Function.update_self _ _ _), work_some lookup, count, idle]
          simp only [linkWork, if_true, reduceCtorEq, if_false]
          omega
      | recv connection count =>
          simp only [stepOn, Option.ite_none_right_eq_some] at stepped
          exact on_link_lowers lookup stepped.2
      | reply connection stale =>
          simp only [stepOn, Option.ite_none_right_eq_some, Option.some.injEq] at stepped
          obtain ⟨⟨serving, _⟩, rfl⟩ := stepped
          have lookup : state.connections connection = some found := lookup
          simp only [Action.connection]
          rw [work_some (Function.update_self _ _ _), work_some lookup, serving]
          simp only [State.put, if_true, reduceCtorEq, if_false]
          omega
      | hear connection count stale =>
          simp only [stepOn] at stepped
          split at stepped
          case h_1 => cases stepped
          case h_2 =>
            simp only [Option.ite_none_right_eq_some, Option.some.injEq] at stepped
            obtain ⟨⟨_, waiting, _⟩, rfl⟩ := stepped
            have lookup : state.connections connection = some found := lookup
            simp only [Action.connection]
            rw [work_put, work_some lookup, waiting]
            simp only [if_true, reduceCtorEq, if_false]
            omega

theorem step_lowers {action : Action} (waits : Waits state)
    (stepped : step state action = some next) :
    work connection next + (if (action.connection == connection) = true then 1 else 0) ≤
      work connection state := by
  by_cases own : action.connection = connection
  · subst own
    have lowers := own_step_lowers waits stepped
    simpa using lowers
  · obtain ⟨⟨moved, connections⟩, backlog, serving⟩ := step_touches stepped
    have same : next.connections connection = state.connections connection := by
      rw [connections, Function.update_of_ne (Ne.symm own)]
    have unchanged := work_congr same (backlog connection (Ne.symm own))
      (serving connection (Ne.symm own))
    simp [own, unchanged]

theorem aligned_owed {hello : Hello} (exactly : Exact hello link) :
    link.unread.length = link.waiting.owed := by
  have aligned := exactly.aligned
  unfold HandshakeFraming.Aligned at aligned
  cases here : link.waiting with
  | mode =>
      rw [here] at aligned
      simp [aligned, hello.modeSize, hello.username.size, hello.password.size, Waiting.owed]
  | username =>
      rw [here] at aligned
      simp [aligned.2, hello.username.size, hello.password.size, Waiting.owed]
  | password =>
      rw [here] at aligned
      simp [aligned.2.2, hello.password.size, Waiting.owed]
  | chat =>
      rw [here] at aligned
      simp [aligned.2.2.2, Waiting.owed]

theorem step_known {action : Action}
    (lookup : state.connections action.connection = some found) :
    step state action = stepOn state found action := by
  unfold step
  rw [lookup]

theorem on_link_some {linkAction : HandshakeFraming.Action}
    (can : (HandshakeFraming.step found.link linkAction).isSome = true) :
    (onLink state connection found linkAction).isSome = true := by
  rw [onLink, Option.isSome_map]
  exact can

/-- The next step of the network and the two programs, if there is one. -/
def GoesOn (state : State) : Prop :=
  ∃ action, action.internal = true ∧ Proper state action ∧ (step state action).isSome = true

/-- `main` waits for a client that has not sent everything. -/
def AtKeyboard (state : State) : Prop :=
  ∃ connection found, state.serving = some connection ∧
    state.connections connection = some found ∧ found.link.unsent ≠ []

theorem served_goes_on (linked : Linked found) (serving : state.serving = some connection)
    (lookup : state.connections connection = some found) : GoesOn state ∨ AtKeyboard state := by
  by_cases ended : found.link.waiting = .chat
  · refine Or.inl ⟨.reply connection [], rfl, trivial, ?_⟩
    rw [step_known lookup, stepOn, if_pos ⟨serving, ended⟩]
    rfl
  by_cases arrived : found.link.waiting.size ≤ found.link.arrived.length
  · have positive : 1 ≤ found.link.waiting.size := by
      cases here : found.link.waiting <;> simp_all [Waiting.size]
    have asks : Proper state (.recv connection found.link.waiting.size) := by
      intro other known
      rw [Option.mem_def, lookup] at known
      cases known
      rfl
    refine Or.inl ⟨.recv connection found.link.waiting.size, rfl, asks, ?_⟩
    rw [step_known lookup, stepOn, if_pos serving]
    apply on_link_some
    simp [HandshakeFraming.step, positive, arrived]
  by_cases empty : found.link.inFlight = []
  · refine Or.inr ⟨connection, found, serving, lookup, ?_⟩
    intro sent
    have owed := aligned_owed linked.exactly
    simp only [HandshakeFraming.State.unread, empty, sent, List.flatten_nil, List.append_nil] at owed
    cases here : found.link.waiting <;> simp_all [Waiting.size, Waiting.owed]
  · have one : 1 ≤ found.link.inFlight.length := List.length_pos_iff.mpr empty
    refine Or.inl ⟨.deliver connection 1, rfl, trivial, ?_⟩
    rw [step_known lookup, stepOn]
    apply on_link_some
    simp [HandshakeFraming.step, one]

/-- As long as somebody has no answer, there is a next step or `main` waits for a keyboard. -/
theorem unanswered_goes_on {initial : List (Bytes × Bytes)} (sound : Sound initial state)
    (lookup : state.connections connection = some found) (unanswered : found.heard = none) :
    GoesOn state ∨ AtKeyboard state := by
  cases serving : state.serving with
  | some served =>
      have present : served ∈ state.connected := by
        rw [sound.queue, serving]
        simp
      obtain ⟨other, known⟩ := Option.isSome_iff_exists.mp ((sound.known served).mp present)
      exact served_goes_on (sound.linked served other known) serving known
  | none =>
      have present : connection ∈ state.connected := (sound.known connection).mpr (by simp [lookup])
      rw [sound.queue, serving] at present
      rcases List.mem_append.mp present with answered | waiting
      · obtain ⟨entry, member, same⟩ := List.mem_map.mp answered
        obtain ⟨reply, ended, _⟩ := sound.replied connection found lookup entry member same
        have linked := sound.linked connection found lookup
        have sent : found.link.unsent = [] := by
          have unread := (linked.request ended).2
          simp only [HandshakeFraming.State.unread, List.append_eq_nil_iff,
            List.flatten_eq_nil_iff] at unread
          exact List.eq_nil_iff_forall_not_mem.mpr fun chunk member =>
            linked.sends chunk member (unread.2.2 chunk member)
        refine Or.inl ⟨.hear connection 4 0, rfl, rfl, ?_⟩
        rw [step_known lookup, stepOn, reply]
        simp [sent, unanswered]
      · cases backlog : state.backlog with
        | nil => simp [backlog] at waiting
        | cons first rest =>
            have known : first ∈ state.connected := by
              rw [sound.queue, backlog]
              simp
            obtain ⟨other, there⟩ := Option.isSome_iff_exists.mp ((sound.known first).mp known)
            refine Or.inl ⟨.accept first ⟨zeroed, zeroed_sized⟩, rfl, trivial, ?_⟩
            rw [step_known there, stepOn]
            simp [serving, backlog]

end Progress

def typed (mode : BitVec 32) : Keyboard where
  mode := mode
  username := ⟨ascii "al", by decide, by decide, by decide⟩
  password := ⟨ascii "pw", by decide, by decide, by decide⟩
  chat := ascii "hello\n"

theorem filled_size (byte : Byte) : (List.replicate 50 byte).length = 50 := List.length_replicate

def filled (first second : Byte) : Arrays where
  username := List.replicate 50 first
  password := List.replicate 50 second
  usernameSize := filled_size first
  passwordSize := filled_size second

/-- A handshake with everything in the network at once. -/
def handshake (connection : Nat) : List Action :=
  [.accept connection ⟨zeroed, zeroed_sized⟩, .recv connection 4, .recv connection 50,
    .recv connection 50, .reply connection []]

/-- The second connection has typed everything when the first one, which signs in, is at the
prompts. -/
def loginBehindSignIn : List Action :=
  [.connect 0 (typed 2) (filled 120 121), .connect 1 (typed 1) (filled 120 121), .send 1, .send 1,
    .send 1, .deliver 1 104, .send 0, .send 0, .send 0, .deliver 0 104] ++
    handshake 0 ++ handshake 1 ++ [.hear 1 4 7]

end LinuxFff.LoginService
