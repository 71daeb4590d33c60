import Mathlib.Data.List.Infix
import Mathlib.Data.List.Nodup
import Mathlib.Logic.Function.Basic
import WebbitGwt.Transition.Core

/-!
# The shared chat worker and its pages

`AppWorker` holds one connection to the chat server for all pages of a user.  It keeps
the events of the chat, tells every page of each, and sends a page that connects later
what it has missed.  Calls travel in both directions through the ports of the pages, in
order; they wait in a queue until the other end gets to them.
-/

namespace WebbitGwt.Samples.SharedChat

open WebbitGwt.Transition

/-- A `ChatEvent`: a `ChatMessage`, a `ChatJoin` or a `ChatLeave`. -/
inductive ChatEvent
  | message (username text : Option String)
  | join (username : Option String)
  | leave (username : Option String)
  deriving DecidableEq

/-- The methods of `ChatPage`. -/
inductive PageCall
  | init (username : Option String) (events : List ChatEvent)
  | connected
  | disconnected
  | join (username : Option String)
  | leave (username : Option String)
  | say (username text : Option String)
  deriving DecidableEq

/-- `handle`, the method of a page that an event calls. -/
def ChatEvent.handle : ChatEvent → PageCall
  | .message username text => .say username text
  | .join username => .join username
  | .leave username => .leave username

/-! ## A page -/

/-- `ChatClientWidget` and what is around it: the username of the chat that is shown, or
none while the login screen is; the lines of the chat; and the mask last asked for. -/
structure Page where
  username : Option String := none
  lines : List String := []
  mask : Option String := some "Connecting..."
  deriving DecidableEq

namespace Page

/-- What a null reference is in a concatenation of strings. -/
def text (value : Option String) : String :=
  value.getD "null"

/-- `addMessage` -/
def addMessage (page : Page) (message : String) : Page :=
  { page with lines := page.lines ++ [message] }

/-- `say` -/
def say (page : Page) (username message : Option String) : Page :=
  page.addMessage (text username ++ ": " ++ text message)

/-- `join` -/
def join (page : Page) (username : Option String) : Page :=
  page.addMessage (text username ++ " has joined")

/-- `leave` -/
def leave (page : Page) (username : Option String) : Page :=
  page.addMessage (text username ++ " has left")

/-- The body of the loop in `init`. -/
def replay (page : Page) : ChatEvent → Page
  | .join username => page.join username
  | .leave username => page.leave username
  | .message username message => page.say username message

/-- The `ChatPage` that `AppUI` creates. -/
def receive (page : Page) : PageCall → Page
  | .init none _ => { page with username := none, lines := [] }
  | .init (some username) events =>
      events.foldl replay { page with username := some username, lines := [] }
  | .connected => { page with mask := none }
  | .disconnected => { page with mask := some "Connection lost, reconnecting..." }
  | .join username => page.join username
  | .leave username => page.leave username
  | .say username message => page.say username message

/-- The line of an event. -/
def line : ChatEvent → String
  | .join username => text username ++ " has joined"
  | .leave username => text username ++ " has left"
  | .message username message => text username ++ ": " ++ text message

theorem receive_handle (page : Page) (event : ChatEvent) :
    page.receive event.handle = { page with lines := page.lines ++ [line event] } := by
  cases event <;> rfl

/-- The loop shows the events it is given, in order. -/
theorem foldl_replay (page : Page) (events : List ChatEvent) :
    events.foldl replay page = { page with lines := page.lines ++ events.map line } := by
  induction events generalizing page with
  | nil => simp
  | cons event events ih =>
      have shown : page.replay event = { page with lines := page.lines ++ [line event] } := by
        cases event <;> rfl
      rw [List.foldl_cons, ih, shown, List.map_cons, List.append_assoc, List.singleton_append]

/-- Only news of the connection change the mask. -/
theorem mask_receive {call : PageCall} (notConnected : call ≠ .connected)
    (notDisconnected : call ≠ .disconnected) (page : Page) :
    (page.receive call).mask = page.mask := by
  cases call with
  | init username events =>
      cases username with
      | none => rfl
      | some username => rw [receive, foldl_replay]
  | connected => exact absurd rfl notConnected
  | disconnected => exact absurd rfl notDisconnected
  | join username => rfl
  | leave username => rfl
  | say username text => rfl

end Page

/-! ## The worker -/

/-- The methods of `ChatWorker` that a page calls. -/
inductive WorkerCall
  | login (username : Option String)
  | logout
  | send (message : Option String)
  deriving DecidableEq

/-- The methods of `ChatServer` that the worker calls. -/
inductive ServerCall
  | login (username : Option String)
  | say (message : Option String)
  deriving DecidableEq

/-- The state of the web socket, as far as `send` depends on it. -/
inductive ReadyState
  | connecting
  | opened
  | closed
  deriving DecidableEq

/-- The fields of `AppWorker`.  Pages are known by the number of their connection. -/
structure AppWorker where
  username : Option String := none
  events : List ChatEvent := []
  connected : Bool := false
  connectedPages : List Nat := []

/-- A port with a page at its other end, and the calls on their way, the oldest first.
Calls into a broken port throw. -/
structure Port where
  broken : Bool := false
  toPage : List PageCall := []
  toWorker : List WorkerCall := []
  page : Page := {}

/-- Pass a call to the page. -/
def Port.post (port : Port) (call : PageCall) : Port :=
  { port with toPage := port.toPage ++ [call] }

/-- The page once it has got to all calls. -/
def Port.settled (port : Port) : Page :=
  port.toPage.foldl Page.receive port.page

@[simp]
theorem Port.settled_post (port : Port) (call : PageCall) :
    (port.post call).settled = port.settled.receive call :=
  List.foldl_append

/-- The worker, its ports, and its connection to the server. -/
structure System where
  worker : AppWorker := {}
  ports : Nat → Port := fun _ => {}
  opened : Nat := 0
  socket : ReadyState := .connecting
  toServer : List ServerCall := []

/-- The loop of `broadcastToPages`: a page whose proxy throws is removed. -/
def broadcastLoop (task : PageCall) : List Nat → (Nat → Port) → List Nat × (Nat → Port)
  | [], ports => ([], ports)
  | page :: pages, ports =>
      if (ports page).broken then
        broadcastLoop task pages ports
      else
        let (kept, ports) :=
          broadcastLoop task pages (Function.update ports page ((ports page).post task))
        (page :: kept, ports)

namespace System

/-- `broadcastToPages` -/
def broadcastToPages (system : System) (task : PageCall) : System :=
  let (connectedPages, ports) := broadcastLoop task system.worker.connectedPages system.ports
  { system with worker := { system.worker with connectedPages }, ports }

/-- A call on `serverConnection`.  A socket that is still connecting throws, one that has
been closed drops the data. -/
def callServer (system : System) (call : ServerCall) : Option System :=
  match system.socket with
  | .connecting => none
  | .opened => some { system with toServer := system.toServer ++ [call] }
  | .closed => some system

theorem callServer_cases (system : System) (call : ServerCall) :
    system.callServer call = none ∧ system.socket = .connecting ∨
      ∃ toServer, system.callServer call = some { system with toServer } := by
  unfold callServer
  split
  · exact Or.inl ⟨rfl, ‹_›⟩
  · exact Or.inr ⟨_, rfl⟩
  · exact Or.inr ⟨_, rfl⟩

/-- `logout` -/
def logout (system : System) : System :=
  system.broadcastToPages (.init none [])

/-- `login`.  The end of the port swallows the exception of a socket that is still
connecting. -/
def login (system : System) (username : Option String) : System :=
  let system :=
    if system.worker.username ≠ none ∧ system.worker.username ≠ username then
      -- still logged in, signal logout first
      system.logout
    else
      system
  let system := { system with worker := { system.worker with username, events := [] } }
  match system.callServer (.login username) with
  | none => system
  | some system => system.broadcastToPages (.init username system.worker.events)

/-- `send` -/
def send (system : System) (message : Option String) : System :=
  (system.callServer (.say message)).getD system

/-- `setRemote`, when the port of a new page has been wrapped. -/
def setRemote (system : System) : System :=
  let page := system.opened
  let worker := { system.worker with connectedPages := system.worker.connectedPages ++ [page] }
  let port : Port := {}
  { system with
    worker
    ports := Function.update system.ports page
      (port.post (.init system.worker.username system.worker.events))
    opened := page + 1 }

/-- `handleEvent` -/
def handleEvent (system : System) (event : ChatEvent) : System :=
  let system := system.broadcastToPages event.handle
  { system with worker := { system.worker with events := system.worker.events ++ [event] } }

/-- `onOpen` of the `ChatClient` -/
def onOpen (system : System) : System :=
  let system := { system with worker := { system.worker with connected := true } }
  system.broadcastToPages .connected

/-- `onClose` of the `ChatClient` -/
def onClose (system : System) : System :=
  let system := { system with worker := { system.worker with connected := false } }
  system.broadcastToPages .disconnected

/-- A method of `ChatWorker`. -/
def handle (system : System) : WorkerCall → System
  | .login username => system.login username
  | .logout => system.logout
  | .send message => system.send message

/-- Change a port. -/
def setPort (system : System) (page : Nat) (port : Port) : System :=
  { system with ports := Function.update system.ports page port }

end System

/-- What happens to the pages, to the worker and to its connection.  The calls of the
server are events of the chat. -/
inductive Action
  | connect
  | pageCalls (page : Nat) (call : WorkerCall)
  | workerHandles (page : Nat)
  | pageHandles (page : Nat)
  | portBreaks (page : Nat)
  | socketOpens
  | socketCloses
  | serverCalls (event : ChatEvent)

/-- One worker with any number of pages. -/
def machine : Machine System Action where
  init := {}
  next system
    | .connect => some system.setRemote
    | .pageCalls page call =>
        let port := system.ports page
        some (system.setPort page { port with toWorker := port.toWorker ++ [call] })
    | .workerHandles page =>
        let port := system.ports page
        match port.toWorker with
        | [] => none
        | call :: calls => some ((system.setPort page { port with toWorker := calls }).handle call)
    | .pageHandles page =>
        let port := system.ports page
        match port.toPage with
        | [] => none
        | call :: calls =>
            some (system.setPort page { port with toPage := calls, page := port.page.receive call })
    | .portBreaks page => some (system.setPort page { system.ports page with broken := true })
    | .socketOpens =>
        if system.socket = .connecting then
          some { system with socket := .opened }.onOpen
        else
          none
    | .socketCloses =>
        if system.socket = .closed then none else some { system with socket := .closed }.onClose
    | .serverCalls event =>
        if system.socket = .opened then some (system.handleEvent event) else none

/-! ## What a page shows -/

/-- The mask of a page is off if the worker is connected, and on if it is not. -/
def Told (worker : AppWorker) (page : Page) : Prop :=
  page.mask = if worker.connected then none else some "Connection lost, reconnecting..."

/-- A page that shows a chat shows the chat of the worker, under its username.  One that
shows the login screen has no lines but those that came since.  The mask is the one that a
page has at first, or tells of the connection. -/
structure InStep (worker : AppWorker) (page : Page) : Prop where
  shown : ∀ username, page.username = some username →
    worker.username = some username ∧ page.lines = worker.events.map Page.line
  hidden : page.username = none → page.lines <:+ worker.events.map Page.line
  mask : page.mask = some "Connecting..." ∨ Told worker page

namespace InStep

variable {worker : AppWorker} {page : Page}

/-- A page that is sent everything shows everything. -/
theorem init (mask : page.mask = some "Connecting..." ∨ Told worker page) :
    InStep worker (page.receive (.init worker.username worker.events)) := by
  cases named : worker.username with
  | none =>
      refine ⟨?_, ?_, mask⟩
      · rintro username ⟨⟩
      · intro _
        exact List.nil_suffix
  | some username =>
      rw [Page.receive, Page.foldl_replay]
      refine ⟨?_, ?_, mask⟩
      · rintro _ ⟨⟩
        exact ⟨named, List.nil_append _⟩
      · rintro ⟨⟩

/-- A page that is logged out shows nothing, whatever the worker keeps. -/
theorem logout (inStep : InStep worker page) : InStep worker (page.receive (.init none [])) where
  shown := by
    rintro username ⟨⟩
  hidden := by
    intro _
    exact List.nil_suffix
  mask := inStep.mask

/-- A page that gets an event stays in step with a worker that adds it. -/
theorem event (inStep : InStep worker page) (event : ChatEvent) :
    InStep { worker with events := worker.events ++ [event] } (page.receive event.handle) := by
  rw [Page.receive_handle]
  refine ⟨?_, ?_, inStep.mask⟩
  · intro username isShown
    rcases inStep.shown username isShown with ⟨sameName, sameLines⟩
    refine ⟨sameName, ?_⟩
    rw [List.map_append, ← sameLines]
    rfl
  · intro isHidden
    rcases inStep.hidden isHidden with ⟨before, joined⟩
    refine ⟨before, ?_⟩
    rw [List.map_append, ← joined, List.append_assoc]
    rfl

theorem connected (inStep : InStep worker page) :
    InStep { worker with connected := true } (page.receive .connected) where
  shown := inStep.shown
  hidden := inStep.hidden
  mask := Or.inr rfl

theorem disconnected (inStep : InStep worker page) :
    InStep { worker with connected := false } (page.receive .disconnected) where
  shown := inStep.shown
  hidden := inStep.hidden
  mask := Or.inr rfl

/-- Only the username, the events and the connection matter. -/
theorem of_eq {other : AppWorker} (inStep : InStep worker page)
    (username : other.username = worker.username) (events : other.events = worker.events)
    (connected : other.connected = worker.connected) : InStep other page := by
  refine ⟨?_, ?_, ?_⟩
  · rw [username, events]
    exact inStep.shown
  · rw [events]
    exact inStep.hidden
  · rw [Told, connected]
    exact inStep.mask

end InStep

/-- The connected pages, once they have got to all calls, are in step with the worker.
There are no events before the connection is open. -/
structure Consistent (system : System) : Prop where
  distinct : system.worker.connectedPages.Nodup
  opened : ∀ page ∈ system.worker.connectedPages, page < system.opened
  connecting : system.socket = .connecting → system.worker.events = []
  inStep : ∀ page ∈ system.worker.connectedPages,
    InStep system.worker (system.ports page).settled

/-- A loop over distinct pages posts to those that are not broken, and keeps them. -/
theorem broadcastLoop_spec (task : PageCall) {pages : List Nat} (distinct : pages.Nodup)
    (ports : Nat → Port) :
    (broadcastLoop task pages ports).1 = pages.filter (fun page => !(ports page).broken) ∧
      ∀ page, (broadcastLoop task pages ports).2 page =
        if page ∈ pages ∧ (ports page).broken = false then (ports page).post task
        else ports page := by
  induction pages generalizing ports with
  | nil => exact ⟨rfl, fun page => (if_neg (by simp)).symm⟩
  | cons first pages ih =>
      rcases List.nodup_cons.mp distinct with ⟨notIn, distinct⟩
      by_cases broken : (ports first).broken = true
      · rcases ih distinct ports with ⟨kept, posted⟩
        rw [broadcastLoop, if_pos broken]
        refine ⟨?_, ?_⟩
        · rw [kept, List.filter_cons_of_neg (by simp [broken])]
        · intro page
          rw [posted]
          by_cases same : page = first
          · subst same
            rw [if_neg (by simp [broken]), if_neg (by simp [broken])]
          · simp only [List.mem_cons, same, false_or]
      · rcases ih distinct (Function.update ports first ((ports first).post task)) with
          ⟨kept, posted⟩
        rw [Bool.not_eq_true] at broken
        rw [broadcastLoop, if_neg (by simp [broken])]
        have unchanged : ∀ page ∈ pages,
            Function.update ports first ((ports first).post task) page = ports page := by
          intro page member
          apply Function.update_of_ne
          rintro rfl
          exact notIn member
        refine ⟨?_, ?_⟩
        · simp only [kept]
          rw [List.filter_cons_of_pos (by simp [broken])]
          congr 1
          apply List.filter_congr
          intro page member
          rw [unchanged page member]
        · intro page
          simp only [posted]
          by_cases same : page = first
          · subst same
            rw [if_neg (by simp [notIn]), Function.update_self, if_pos (by simp [broken])]
          · simp only [List.mem_cons, same, false_or, Function.update_of_ne same]

/-- The pages that are left were there before, and have been posted to. -/
theorem settled_broadcastToPages {system : System} {task : PageCall}
    (distinct : system.worker.connectedPages.Nodup) {page : Nat}
    (member : page ∈ (system.broadcastToPages task).worker.connectedPages) :
    page ∈ system.worker.connectedPages ∧
      ((system.broadcastToPages task).ports page).settled =
        (system.ports page).settled.receive task := by
  rcases broadcastLoop_spec task distinct system.ports with ⟨kept, posted⟩
  have isKept : page ∈ (broadcastLoop task system.worker.connectedPages system.ports).1 := member
  rw [kept, List.mem_filter, Bool.not_eq_true'] at isKept
  refine ⟨isKept.1, ?_⟩
  rw [← Port.settled_post]
  apply congrArg Port.settled
  exact (posted page).trans (if_pos isKept)

theorem nodup_broadcastToPages {system : System} (task : PageCall)
    (distinct : system.worker.connectedPages.Nodup) :
    (system.broadcastToPages task).worker.connectedPages.Nodup := by
  have kept := (broadcastLoop_spec task distinct system.ports).1
  have filtered := distinct.filter fun page => !(system.ports page).broken
  rw [← kept] at filtered
  exact filtered

namespace Consistent

variable {system : System}

/-- A broadcast after which all pages are in step. -/
theorem broadcastToPages {task : PageCall} (distinct : system.worker.connectedPages.Nodup)
    (opened : ∀ page ∈ system.worker.connectedPages, page < system.opened)
    (connecting : system.socket = .connecting → system.worker.events = [])
    (inStep : ∀ page ∈ system.worker.connectedPages,
      InStep system.worker ((system.ports page).settled.receive task)) :
    Consistent (system.broadcastToPages task) where
  distinct := nodup_broadcastToPages task distinct
  opened := by
    intro page member
    exact opened page (settled_broadcastToPages distinct member).1
  connecting := connecting
  inStep := by
    intro page member
    rcases settled_broadcastToPages distinct member with ⟨before, settled⟩
    rw [settled]
    exact (inStep page before).of_eq rfl rfl rfl

theorem init : Consistent {} where
  distinct := List.nodup_nil
  opened := nofun
  connecting _ := rfl
  inStep := nofun

theorem logout (consistent : Consistent system) : Consistent system.logout :=
  .broadcastToPages consistent.distinct consistent.opened consistent.connecting
    fun page member => (consistent.inStep page member).logout

/-- A page in step that shows no other name is in step with a worker that takes the name
and has no events. -/
theorem rename (consistent : Consistent system) {username : Option String}
    (noEvents : system.worker.events = [])
    (noOther : ∀ page ∈ system.worker.connectedPages, ∀ other,
      (system.ports page).settled.username = some other → username = some other) :
    Consistent { system with worker := { system.worker with username, events := [] } } where
  distinct := consistent.distinct
  opened := consistent.opened
  connecting _ := rfl
  inStep := by
    intro page member
    have before := consistent.inStep page member
    refine ⟨?_, ?_, before.mask⟩
    · intro other isShown
      rw [← noEvents]
      exact ⟨noOther page member other isShown, (before.shown other isShown).2⟩
    · rw [← noEvents]
      exact before.hidden

/-- The state that `login` takes the name in: no page shows another one. -/
theorem before_login (consistent : Consistent system) (username : Option String) :
    let before :=
      if system.worker.username ≠ none ∧ system.worker.username ≠ username then system.logout
      else system
    Consistent before ∧ ∀ page ∈ before.worker.connectedPages, ∀ other,
      (before.ports page).settled.username = some other → username = some other := by
  by_cases another : system.worker.username ≠ none ∧ system.worker.username ≠ username
  · simp only [if_pos another]
    refine ⟨consistent.logout, ?_⟩
    intro page member other isShown
    have settled := (settled_broadcastToPages consistent.distinct member).2
    rw [System.logout, settled] at isShown
    cases isShown
  · simp only [if_neg another]
    refine ⟨consistent, ?_⟩
    intro page member other isShown
    have named := ((consistent.inStep page member).shown other isShown).1
    by_contra different
    apply another
    rw [named]
    exact ⟨nofun, fun same => different same.symm⟩

/-- All pages are shown the new chat, unless the call of the server throws.  There have
been no events to lose then. -/
theorem login (consistent : Consistent system) (username : Option String) :
    Consistent (system.login username) := by
  rcases consistent.before_login username with ⟨before, noOther⟩
  unfold System.login
  generalize (if system.worker.username ≠ none ∧ system.worker.username ≠ username then
    system.logout else system) = middle at before noOther
  let renamed : System := { middle with worker := { middle.worker with username, events := [] } }
  rcases renamed.callServer_cases (.login username) with ⟨throws, connecting⟩ | ⟨toServer, sends⟩
  · simp only [renamed] at throws
    simp only [throws]
    exact before.rename (before.connecting connecting) noOther
  · simp only [renamed] at sends
    simp only [sends]
    refine broadcastToPages before.distinct before.opened (fun _ => rfl) ?_
    intro page member
    have mask := (before.inStep page member).mask
    let worker : AppWorker := { middle.worker with username, events := [] }
    have inStep : InStep worker _ := .init mask
    exact inStep

theorem send (consistent : Consistent system) (message : Option String) :
    Consistent (system.send message) := by
  rcases system.callServer_cases (.say message) with ⟨throws, _⟩ | ⟨toServer, sends⟩
  · rw [System.send, throws]
    exact consistent
  · rw [System.send, sends]
    exact { consistent with connecting := consistent.connecting }

/-- A page that connects is sent everything. -/
theorem setRemote (consistent : Consistent system) : Consistent system.setRemote where
  distinct := by
    have fresh : system.opened ∉ system.worker.connectedPages :=
      fun member => Nat.lt_irrefl _ (consistent.opened _ member)
    have distinct := consistent.distinct.concat fresh
    rw [List.concat_eq_append] at distinct
    exact distinct
  opened := by
    intro page member
    rcases List.mem_append.mp member with before | new
    · exact Nat.lt_succ_of_lt (consistent.opened page before)
    · cases List.mem_singleton.mp new
      exact Nat.lt_succ_self _
  connecting := consistent.connecting
  inStep := by
    intro page member
    rcases List.mem_append.mp member with before | new
    · have other : page ≠ system.opened := Nat.ne_of_lt (consistent.opened page before)
      simp only [System.setRemote, Function.update_of_ne other]
      exact (consistent.inStep page before).of_eq rfl rfl rfl
    · cases List.mem_singleton.mp new
      simp only [System.setRemote, Function.update_self, Port.settled_post]
      have inStep : InStep system.worker (({} : Port).settled.receive
          (.init system.worker.username system.worker.events)) := .init (Or.inl rfl)
      exact inStep.of_eq rfl rfl rfl

theorem handleEvent (consistent : Consistent system) (isOpen : system.socket ≠ .connecting)
    (event : ChatEvent) : Consistent (system.handleEvent event) where
  distinct := nodup_broadcastToPages event.handle consistent.distinct
  opened := by
    intro page member
    exact consistent.opened page (settled_broadcastToPages consistent.distinct member).1
  connecting := fun connecting => absurd connecting isOpen
  inStep := by
    intro page member
    rcases settled_broadcastToPages consistent.distinct member with ⟨before, settled⟩
    have after := (consistent.inStep page before).event event
    rw [← settled] at after
    exact after.of_eq rfl rfl rfl

theorem onOpen (consistent : Consistent system) (isOpen : system.socket ≠ .connecting) :
    Consistent system.onOpen := by
  refine broadcastToPages consistent.distinct consistent.opened ?_ ?_
  · intro connecting
    exact absurd connecting isOpen
  · intro page member
    exact (consistent.inStep page member).connected

theorem onClose (consistent : Consistent system) (isOpen : system.socket ≠ .connecting) :
    Consistent system.onClose := by
  refine broadcastToPages consistent.distinct consistent.opened ?_ ?_
  · intro connecting
    exact absurd connecting isOpen
  · intro page member
    exact (consistent.inStep page member).disconnected

/-- A port that settles as before. -/
theorem setPort (consistent : Consistent system) {page : Nat} {port : Port}
    (settled : port.settled = (system.ports page).settled) :
    Consistent (system.setPort page port) where
  distinct := consistent.distinct
  opened := consistent.opened
  connecting := consistent.connecting
  inStep := by
    intro other member
    have before := consistent.inStep other member
    simp only [System.setPort]
    by_cases same : other = page
    · subst same
      rw [Function.update_self, settled]
      exact before
    · rw [Function.update_of_ne same]
      exact before

theorem socket (consistent : Consistent system) {state : ReadyState} (isOpen : state ≠ .connecting) :
    Consistent { system with socket := state } where
  distinct := consistent.distinct
  opened := consistent.opened
  connecting := fun connecting => absurd connecting isOpen
  inStep := consistent.inStep

theorem handle (consistent : Consistent system) (call : WorkerCall) :
    Consistent (system.handle call) := by
  cases call with
  | login username => exact consistent.login username
  | logout => exact consistent.logout
  | send message => exact consistent.send message

/-- Whatever happens, the pages stay in step. -/
theorem machine_next {next : System} {action : Action}
    (step : machine.next system action = some next) (consistent : Consistent system) :
    Consistent next := by
  cases action with
  | connect =>
      cases step
      exact consistent.setRemote
  | pageCalls page call =>
      cases step
      exact consistent.setPort rfl
  | workerHandles page =>
      simp only [machine] at step
      cases waiting : (system.ports page).toWorker with
      | nil =>
          rw [waiting] at step
          cases step
      | cons call calls =>
          rw [waiting] at step
          cases step
          apply handle
          exact consistent.setPort rfl
  | pageHandles page =>
      simp only [machine] at step
      cases waiting : (system.ports page).toPage with
      | nil =>
          rw [waiting] at step
          cases step
      | cons call calls =>
          rw [waiting] at step
          cases step
          apply consistent.setPort
          rw [Port.settled, Port.settled, waiting, List.foldl_cons]
  | portBreaks page =>
      cases step
      exact consistent.setPort rfl
  | socketOpens =>
      rcases Option.ite_none_right_eq_some.mp step with ⟨_, ⟨⟩⟩
      have isOpen : ReadyState.opened ≠ .connecting := nofun
      exact (consistent.socket isOpen).onOpen isOpen
  | socketCloses =>
      rcases Option.ite_none_left_eq_some.mp step with ⟨_, ⟨⟩⟩
      have isOpen : ReadyState.closed ≠ .connecting := nofun
      exact (consistent.socket isOpen).onClose isOpen
  | serverCalls event =>
      rcases Option.ite_none_right_eq_some.mp step with ⟨isOpen, ⟨⟩⟩
      apply consistent.handleEvent
      rw [isOpen]
      nofun

end Consistent

/-! ## What a page is told -/

/-- The pages that are left, and the masks they will have, are those from before, and so is
the connection. -/
structure KeepsMasks (before after : System) : Prop where
  connected : after.worker.connected = before.worker.connected
  pages : ∀ page ∈ after.worker.connectedPages, page ∈ before.worker.connectedPages ∧
    (after.ports page).settled.mask = (before.ports page).settled.mask

namespace KeepsMasks

variable {system : System}

theorem refl (system : System) : KeepsMasks system system :=
  ⟨rfl, fun _ member => ⟨member, rfl⟩⟩

theorem trans {first second third : System} (before : KeepsMasks first second)
    (after : KeepsMasks second third) : KeepsMasks first third where
  connected := after.connected.trans before.connected
  pages := by
    intro page member
    rcases after.pages page member with ⟨middle, mask⟩
    rcases before.pages page middle with ⟨first, earlier⟩
    exact ⟨first, mask.trans earlier⟩

theorem broadcastToPages {task : PageCall} (distinct : system.worker.connectedPages.Nodup)
    (notConnected : task ≠ .connected) (notDisconnected : task ≠ .disconnected) :
    KeepsMasks system (system.broadcastToPages task) where
  connected := rfl
  pages := by
    intro page member
    rcases settled_broadcastToPages distinct member with ⟨before, settled⟩
    rw [settled]
    exact ⟨before, Page.mask_receive notConnected notDisconnected _⟩

/-- Only a new username and new events. -/
theorem rename (system : System) (username : Option String) :
    KeepsMasks system
      { system with worker := { system.worker with username, events := [] } } :=
  ⟨rfl, fun _ member => ⟨member, rfl⟩⟩

/-- What is sent to the server does not matter. -/
theorem sent (system : System) (toServer : List ServerCall) :
    KeepsMasks system { system with toServer } :=
  ⟨rfl, fun _ member => ⟨member, rfl⟩⟩

theorem logout (distinct : system.worker.connectedPages.Nodup) :
    KeepsMasks system system.logout :=
  .broadcastToPages distinct nofun nofun

theorem login (distinct : system.worker.connectedPages.Nodup) (username : Option String) :
    KeepsMasks system (system.login username) := by
  have before : ∀ middle : System,
      (middle = if system.worker.username ≠ none ∧ system.worker.username ≠ username then
        system.logout else system) →
      KeepsMasks system middle ∧ middle.worker.connectedPages.Nodup := by
    rintro middle rfl
    split
    · exact ⟨.logout distinct, nodup_broadcastToPages _ distinct⟩
    · exact ⟨.refl system, distinct⟩
  unfold System.login
  generalize same : (if system.worker.username ≠ none ∧ system.worker.username ≠ username then
    system.logout else system) = middle
  rcases before middle same.symm with ⟨keeps, middleDistinct⟩
  let renamed : System := { middle with worker := { middle.worker with username, events := [] } }
  have renames : KeepsMasks system renamed := keeps.trans (.rename middle username)
  rcases renamed.callServer_cases (.login username) with ⟨throws, _⟩ | ⟨toServer, sends⟩
  · simp only [renamed] at throws
    simp only [throws]
    exact renames
  · simp only [renamed] at sends
    simp only [sends]
    exact (renames.trans (.sent renamed toServer)).trans
      (.broadcastToPages middleDistinct nofun nofun)

theorem send (system : System) (message : Option String) :
    KeepsMasks system (system.send message) := by
  rcases system.callServer_cases (.say message) with ⟨throws, _⟩ | ⟨toServer, sends⟩
  · rw [System.send, throws]
    exact .refl system
  · rw [System.send, sends]
    exact .sent system toServer

theorem handle (distinct : system.worker.connectedPages.Nodup) (call : WorkerCall) :
    KeepsMasks system (system.handle call) := by
  cases call with
  | login username => exact .login distinct username
  | logout => exact .logout distinct
  | send message => exact .send system message

/-- A port that settles as before. -/
theorem setPort {page : Nat} {port : Port} (settled : port.settled = (system.ports page).settled) :
    KeepsMasks system (system.setPort page port) where
  connected := rfl
  pages := by
    intro other member
    refine ⟨member, ?_⟩
    simp only [System.setPort]
    by_cases same : other = page
    · subst same
      rw [Function.update_self, settled]
    · rw [Function.update_of_ne same]

end KeepsMasks

/-- A page stays told of the connection. -/
theorem KeepsMasks.told {before after : System} (keeps : KeepsMasks before after) {page : Nat}
    (isLeft : page ∈ after.worker.connectedPages)
    (told : Told before.worker (before.ports page).settled) :
    Told after.worker (after.ports page).settled := by
  rw [Told, (keeps.pages page isLeft).2, keeps.connected]
  exact told

/-- The pages are told when the socket opens and when it closes. -/
theorem told_onOpen {system : System} (distinct : system.worker.connectedPages.Nodup) {page : Nat}
    (isLeft : page ∈ system.onOpen.worker.connectedPages) :
    Told system.onOpen.worker (system.onOpen.ports page).settled := by
  let opened : System := { system with worker := { system.worker with connected := true } }
  have before : opened.worker.connectedPages.Nodup := distinct
  rw [System.onOpen, (settled_broadcastToPages before isLeft).2]
  rfl

theorem told_onClose {system : System} (distinct : system.worker.connectedPages.Nodup) {page : Nat}
    (isLeft : page ∈ system.onClose.worker.connectedPages) :
    Told system.onClose.worker (system.onClose.ports page).settled := by
  let closed : System := { system with worker := { system.worker with connected := false } }
  have before : closed.worker.connectedPages.Nodup := distinct
  rw [System.onClose, (settled_broadcastToPages before isLeft).2]
  rfl

/-- A page that is left is told, if the socket has just opened or closed, or if it has been
told before. -/
theorem told_of_step {system next : System} {action : Action}
    (step : machine.next system action = some next) (consistent : Consistent system) {page : Nat}
    (isLeft : page ∈ next.worker.connectedPages)
    (news : action = .socketOpens ∨ action = .socketCloses ∨
      page ∈ system.worker.connectedPages ∧ Told system.worker (system.ports page).settled) :
    Told next.worker (next.ports page).settled := by
  have distinct := consistent.distinct
  cases action with
  | socketOpens =>
      rcases Option.ite_none_right_eq_some.mp step with ⟨_, ⟨⟩⟩
      exact told_onOpen distinct isLeft
  | socketCloses =>
      rcases Option.ite_none_left_eq_some.mp step with ⟨_, ⟨⟩⟩
      exact told_onClose distinct isLeft
  | connect =>
      rcases (news.resolve_left nofun).resolve_left nofun with ⟨before, told⟩
      cases step
      have other : page ≠ system.opened := Nat.ne_of_lt (consistent.opened page before)
      simp only [System.setRemote, Function.update_of_ne other]
      exact told
  | pageCalls caller call =>
      rcases (news.resolve_left nofun).resolve_left nofun with ⟨before, told⟩
      cases step
      let port : Port :=
        { system.ports caller with toWorker := (system.ports caller).toWorker ++ [call] }
      have keeps : KeepsMasks system (system.setPort caller port) := .setPort rfl
      exact keeps.told isLeft told
  | workerHandles caller =>
      rcases (news.resolve_left nofun).resolve_left nofun with ⟨before, told⟩
      simp only [machine] at step
      cases waiting : (system.ports caller).toWorker with
      | nil =>
          rw [waiting] at step
          cases step
      | cons call calls =>
          rw [waiting] at step
          cases step
          let port : Port := { system.ports caller with toWorker := calls }
          have taken : KeepsMasks system (system.setPort caller port) := .setPort rfl
          have still : (system.setPort caller port).worker.connectedPages.Nodup := distinct
          have handled := KeepsMasks.handle still call
          exact (taken.trans handled).told isLeft told
  | pageHandles reader =>
      rcases (news.resolve_left nofun).resolve_left nofun with ⟨before, told⟩
      simp only [machine] at step
      cases waiting : (system.ports reader).toPage with
      | nil =>
          rw [waiting] at step
          cases step
      | cons call calls =>
          rw [waiting] at step
          cases step
          refine (KeepsMasks.setPort ?_).told isLeft told
          rw [Port.settled, Port.settled, waiting, List.foldl_cons]
  | portBreaks broken =>
      rcases (news.resolve_left nofun).resolve_left nofun with ⟨before, told⟩
      cases step
      let port : Port := { system.ports broken with broken := true }
      have keeps : KeepsMasks system (system.setPort broken port) := .setPort rfl
      exact keeps.told isLeft told
  | serverCalls event =>
      rcases (news.resolve_left nofun).resolve_left nofun with ⟨before, told⟩
      rcases Option.ite_none_right_eq_some.mp step with ⟨_, ⟨⟩⟩
      have keeps : KeepsMasks system (system.broadcastToPages event.handle) := by
        apply KeepsMasks.broadcastToPages distinct <;> cases event <;> nofun
      exact keeps.told isLeft told

/-- In every run the connected pages are in step once they have got to all calls.  Two
pages that have and show a chat show the same one.  And the pages that are connected when
the socket opens or closes are told of the connection, and stay so. -/
theorem pages_in_step {system : System} (reachable : machine.Reachable system) :
    (∀ page ∈ system.worker.connectedPages,
      InStep system.worker (system.ports page).settled) ∧
    (∀ first ∈ system.worker.connectedPages, ∀ second ∈ system.worker.connectedPages,
      (system.ports first).toPage = [] → (system.ports second).toPage = [] →
      (system.ports first).page.username ≠ none → (system.ports second).page.username ≠ none →
        (system.ports first).page.username = (system.ports second).page.username ∧
          (system.ports first).page.lines = (system.ports second).page.lines) ∧
    ∀ action next, machine.next system action = some next →
      ∀ page ∈ next.worker.connectedPages,
        (action = .socketOpens ∨ action = .socketCloses ∨
          page ∈ system.worker.connectedPages ∧ Told system.worker (system.ports page).settled) →
        Told next.worker (next.ports page).settled := by
  have consistent : Consistent system :=
    reachable.invariant .init fun _ step before => before.machine_next step
  refine ⟨consistent.inStep, ?_, fun _ _ step _ isLeft => told_of_step step consistent isLeft⟩
  intro first isFirst second isSecond firstDone secondDone firstShows secondShows
  have settled (page : Nat) (done : (system.ports page).toPage = []) :
      (system.ports page).settled = (system.ports page).page := by
    rw [Port.settled, done, List.foldl_nil]
  have inStepFirst := consistent.inStep first isFirst
  have inStepSecond := consistent.inStep second isSecond
  rw [settled first firstDone] at inStepFirst
  rw [settled second secondDone] at inStepSecond
  rcases Option.ne_none_iff_exists'.mp firstShows with ⟨firstName, firstShown⟩
  rcases Option.ne_none_iff_exists'.mp secondShows with ⟨secondName, secondShown⟩
  rcases inStepFirst.shown firstName firstShown with ⟨sameFirst, firstLines⟩
  rcases inStepSecond.shown secondName secondShown with ⟨sameSecond, secondLines⟩
  constructor
  · rw [firstShown, secondShown, ← sameFirst, sameSecond]
  · rw [firstLines, secondLines]

/-- A page logs in and leaves the chat to two others, of which one connects when there is
something to catch up with. -/
def threePages : List Action :=
  [.connect, .connect, .socketOpens, .pageCalls 0 (.login (some "ann")), .workerHandles 0,
    .serverCalls (.join (some "bob")), .pageHandles 1, .pageHandles 1, .pageHandles 1,
    .portBreaks 0, .serverCalls (.message (some "bob") (some "hello")), .connect, .pageHandles 1,
    .pageHandles 1, .pageHandles 2]

/-- Two pages are left, and show two lines each.  The one that connected last has not been
told that the worker is connected. -/
theorem pages_in_step_threePages :
    ∃ system, machine.runFrom machine.init threePages = some system ∧
      system.worker.connected = true ∧ system.worker.connectedPages = [1, 2] ∧
      (system.ports 1).page.mask = none ∧ (system.ports 2).page.mask = some "Connecting..." ∧
      (system.ports 1).page.lines = ["bob has joined", "bob: hello"] ∧
      (system.ports 1).page.lines = (system.ports 2).page.lines := by
  refine ⟨_, rfl, by decide, by decide, by decide, by decide, by decide, ?_⟩
  have inStep := pages_in_step (@Machine.reachable_of_run _ _ machine _ threePages rfl)
  exact (inStep.2.1 1 (by decide) 2 (by decide) (by decide) (by decide) (by decide) (by decide)).2

end WebbitGwt.Samples.SharedChat
