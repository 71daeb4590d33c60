import Mathlib.Data.List.Count
import WebbitGwt.Java.Basic
import WebbitGwt.Transition.Core

/-!
# The server of the easy chat room

`ChatServerImpl` keeps a map from the clients in the room to their names, which all
connections share.  `login` checks the name, and goes on after a check has failed: the
callback has been used then, and the next use of it throws.  The methods of the server
run one at a time here.
-/

namespace WebbitGwt.Samples.EasyChatRoom

open WebbitGwt.Java
open WebbitGwt.Transition

/-- A client is known by its connection. -/
abbrev ChatClient := Nat

/-- The calls on clients. -/
inductive ClientCall
  | say (username message : Option String)
  | join (username : Option String)
  | part (username : Option String)
  | ping
  deriving DecidableEq

/-- What is sent back for a `login`. -/
inductive Reply
  | success
  | failure (reason : String)
  deriving DecidableEq

/-- The map `loggedIn`, in the order that its iterators have. -/
abbrev Room := List (ChatClient × Option String)

namespace Room

/-- `values` -/
def values (room : Room) : List (Option String) :=
  room.map Prod.snd

/-- `keySet` -/
def keySet (room : Room) : List ChatClient :=
  room.map Prod.fst

/-- `get` -/
def get (room : Room) (client : ChatClient) : Option (Option String) :=
  (room.find? fun entry => entry.1 == client).map Prod.snd

/-- `remove` -/
def remove (room : Room) (client : ChatClient) : Room :=
  room.filter fun entry => entry.1 != client

/-- `put`, with the place at which iterators meet the entry from now on. -/
def put (room : Room) (position : Nat) (client : ChatClient) (username : Option String) : Room :=
  (room.remove client).take position ++ (client, username) :: (room.remove client).drop position

end Room

/-- A method of the server as it runs: the map, whether the callback has been used, what
has been sent, and the exception, if one has been thrown. -/
structure Run where
  room : Room
  fired : Bool := false
  replies : List Reply := []
  sent : List (ChatClient × ClientCall) := []
  thrown : Option Throwable := none
  deriving DecidableEq

namespace Run

/-- Go on, unless an exception has been thrown. -/
def andThen (run : Run) (next : Run → Run) : Run :=
  if run.thrown.isSome then run else next run

/-- A use of the callback, which `checkFired` lets through once. -/
def useCallback (run : Run) (reply : Reply) : Run :=
  if run.fired then
    { run with
      thrown := some (.illegalStateException "Callback already used, cannot be used again.") }
  else
    { run with fired := true, replies := run.replies ++ [reply] }

/-- Call the same method of all clients in the room. -/
def broadcast (run : Run) (call : ClientCall) : Run :=
  { run with sent := run.sent ++ run.room.keySet.map (·, call) }

end Run

/-- The loop in `login` over the names in the room. -/
def checkNames (username : Option String) : List (Option String) → Run → Run
  | [], run => run
  | none :: _, run => { run with thrown := some .nullPointerException }
  | some name :: names, run =>
      (if some name = username then run.useCallback (.failure "Username already in use")
        else run).andThen (checkNames username names)

/-- The checks of `login`. -/
def checks (room : Room) (c : ChatClient) (username : Option String) : Run :=
  let run : Run := { room := room }
  let run :=
    if username = none ∨ username = some "" then
      run.useCallback (.failure "Non-empty username required")
    else
      run
  let run := run.andThen fun run =>
    if (run.room.get c).isSome then run.useCallback (.failure "Already logged in") else run
  run.andThen (checkNames username run.room.values)

/-- `login` -/
def login (room : Room) (c : ChatClient) (position : Nat) (username : Option String) : Run :=
  let run := checks room c username
  let run := run.andThen fun run => run.broadcast (.join username)
  let run := run.andThen fun run => { run with room := run.room.put position c username }
  let run := run.andThen fun run => run.useCallback .success
  run.andThen fun run => { run with sent := run.sent ++ [(c, .ping)] }

/-- `say`.  A client that is not logged in has no name. -/
def say (room : Room) (c : ChatClient) (message : Option String) : Run :=
  let userName := (room.get c).getD none
  let run : Run := { room := room }
  run.broadcast (.say userName message)

/-- `onClose`.  A null name is taken for no name. -/
def onClose (room : Room) (client : ChatClient) : Run :=
  let userName := (room.get client).getD none
  let run : Run := { room := room.remove client }
  match userName with
  | none => run
  | some userName => run.broadcast (.part (some userName))

/-! ## What comes of a login -/

/-- The checks that fail, in the order they are made: the name is empty, the client is
logged in, and once for everybody who has the name. -/
def failures (room : Room) (c : ChatClient) (username : Option String) : List String :=
  (if username = none ∨ username = some "" then ["Non-empty username required"] else []) ++
    (if (room.get c).isSome then ["Already logged in"] else []) ++
    (room.values.filter (· = username)).map fun _ => "Username already in use"

/-- Report failures, one after the other. -/
def report (run : Run) (reasons : List String) : Run :=
  reasons.foldl (fun run reason => run.andThen fun run => run.useCallback (.failure reason)) run

/-- The exception of a second use. -/
def alreadyUsed : Throwable :=
  .illegalStateException "Callback already used, cannot be used again."

theorem Run.andThen_of_thrown {run : Run} (thrown : run.thrown.isSome) (next : Run → Run) :
    run.andThen next = run :=
  if_pos thrown

theorem Run.andThen_of_not_thrown {run : Run} (thrown : run.thrown = none) (next : Run → Run) :
    run.andThen next = next run := by
  rw [Run.andThen, thrown]
  rfl

theorem Run.useCallback_of_fired {run : Run} (fired : run.fired = true) (reply : Reply) :
    run.useCallback reply = { run with thrown := some alreadyUsed } := by
  rw [Run.useCallback, fired]
  rfl

theorem Run.useCallback_of_not_fired {run : Run} (fired : run.fired = false) (reply : Reply) :
    run.useCallback reply = { run with fired := true, replies := run.replies ++ [reply] } := by
  rw [Run.useCallback, fired]
  rfl

@[simp]
theorem Run.room_useCallback (run : Run) (reply : Reply) :
    (run.useCallback reply).room = run.room := by
  unfold Run.useCallback
  split <;> rfl

theorem report_of_thrown {run : Run} (thrown : run.thrown.isSome) (reasons : List String) :
    report run reasons = run := by
  induction reasons with
  | nil => rfl
  | cons reason reasons ih =>
      rw [report, List.foldl_cons, Run.andThen_of_thrown thrown, ← report, ih]

theorem report_append (run : Run) (first second : List String) :
    report run (first ++ second) = report (report run first) second :=
  List.foldl_append

theorem report_of_ite (run : Run) (failed : Prop) [Decidable failed] (reason : String) :
    report run (if failed then [reason] else []) =
      run.andThen fun run => if failed then run.useCallback (.failure reason) else run := by
  by_cases holds : failed
  · simp only [if_pos holds]
    rfl
  · simp only [if_neg holds]
    unfold Run.andThen
    split <;> rfl

/-- One failure is reported, and the method goes on; at the second it ends. -/
theorem report_start (room : Room) (reasons : List String) :
    report { room } reasons =
      match reasons with
      | [] => { room }
      | [reason] => { room, fired := true, replies := [.failure reason] }
      | reason :: _ :: _ =>
          { room, fired := true, replies := [.failure reason], thrown := some alreadyUsed } := by
  rcases reasons with _ | ⟨reason, _ | ⟨other, reasons⟩⟩
  · rfl
  · rfl
  · have twice : report { room } [reason, other] =
        { room, fired := true, replies := [.failure reason], thrown := some alreadyUsed } := rfl
    have split : reason :: other :: reasons = [reason, other] ++ reasons := rfl
    rw [split, report_append, twice]
    exact report_of_thrown rfl reasons

theorem room_report (run : Run) (reasons : List String) :
    (report run reasons).room = run.room := by
  induction reasons generalizing run with
  | nil => rfl
  | cons reason reasons ih =>
      rw [report, List.foldl_cons, ← report, ih, Run.andThen]
      split
      · rfl
      · exact Run.room_useCallback run _

/-- A loop that meets no null reports every name that is the same. -/
theorem checkNames_eq_report {username : Option String} {names : List (Option String)}
    (noNull : none ∉ names) {run : Run} :
    run.andThen (checkNames username names) =
      report run ((names.filter (· = username)).map fun _ => "Username already in use") := by
  induction names generalizing run with
  | nil =>
      unfold Run.andThen
      split <;> rfl
  | cons name names ih =>
      by_cases thrown : run.thrown.isSome
      · rw [Run.andThen_of_thrown thrown, report_of_thrown thrown]
      · rw [Option.not_isSome_iff_eq_none] at thrown
        rw [List.mem_cons, not_or] at noNull
        cases name with
        | none => exact absurd rfl noNull.1
        | some name =>
            rw [Run.andThen_of_not_thrown thrown, checkNames, ih noNull.2]
            by_cases same : some name = username
            · rw [if_pos same, List.filter_cons_of_pos (by simpa using same), List.map_cons, report,
                report, List.foldl_cons, Run.andThen_of_not_thrown thrown]
            · rw [if_neg same, List.filter_cons_of_neg (by simpa using same)]

/-- Nothing has been sent but a failure. -/
def OnlyFailures (run : Run) : Prop :=
  run.sent = [] ∧ (run.fired = false ∧ run.replies = [] ∨
    run.fired = true ∧ ∃ reason, run.replies = [.failure reason])

theorem OnlyFailures.useCallback {run : Run} (only : OnlyFailures run) (reason : String) :
    OnlyFailures (run.useCallback (.failure reason)) := by
  rcases only with ⟨sent, ⟨fired, replies⟩ | ⟨fired, first, replies⟩⟩
  · rw [Run.useCallback_of_not_fired fired, replies]
    exact ⟨sent, Or.inr ⟨rfl, reason, rfl⟩⟩
  · rw [Run.useCallback_of_fired fired]
    exact ⟨sent, Or.inr ⟨fired, first, replies⟩⟩

/-- The loop sends no more than a failure, and it ends with an exception if it meets a
null. -/
theorem checkNames_spec (username : Option String) (names : List (Option String)) {run : Run}
    (only : OnlyFailures run) :
    OnlyFailures (run.andThen (checkNames username names)) ∧
      (run.andThen (checkNames username names)).room = run.room ∧
      (none ∈ names → (run.andThen (checkNames username names)).thrown.isSome) := by
  induction names generalizing run with
  | nil =>
      have same : run.andThen (checkNames username []) = run := by
        unfold Run.andThen
        split <;> rfl
      rw [same]
      exact ⟨only, rfl, nofun⟩
  | cons name names ih =>
      by_cases thrown : run.thrown.isSome
      · rw [Run.andThen_of_thrown thrown]
        exact ⟨only, rfl, fun _ => thrown⟩
      · rw [Option.not_isSome_iff_eq_none] at thrown
        rw [Run.andThen_of_not_thrown thrown]
        cases name with
        | none => exact ⟨only, rfl, fun _ => rfl⟩
        | some name =>
            rw [checkNames]
            by_cases same : some name = username
            · rw [if_pos same]
              rcases ih (only.useCallback "Username already in use") with ⟨after, room, null⟩
              rw [Run.room_useCallback] at room
              exact ⟨after, room, fun isIn => null (by simpa using isIn)⟩
            · rw [if_neg same]
              rcases ih only with ⟨after, room, null⟩
              exact ⟨after, room, fun isIn => null (by simpa using isIn)⟩

/-- The two checks before the loop, as reports. -/
theorem checks_eq (room : Room) (c : ChatClient) (username : Option String) :
    checks room c username =
      (report { room }
        ((if username = none ∨ username = some "" then ["Non-empty username required"] else []) ++
          (if (room.get c).isSome then ["Already logged in"] else []))).andThen
        (checkNames username room.values) := by
  have nonEmpty : (if username = none ∨ username = some "" then
      ({ room } : Run).useCallback (.failure "Non-empty username required") else { room }) =
      report { room }
        (if username = none ∨ username = some "" then ["Non-empty username required"] else []) :=
    (report_of_ite { room } _ _).symm
  have notIn (run : Run) (sameRoom : run.room = room) :
      (run.andThen fun run =>
        if (run.room.get c).isSome then run.useCallback (.failure "Already logged in") else run) =
      report run (if (room.get c).isSome then ["Already logged in"] else []) := by
    rw [report_of_ite, Run.andThen, Run.andThen, sameRoom]
  unfold checks
  simp only [nonEmpty]
  rw [notIn _ (room_report _ _), report_append, room_report, room_report]

/-- What the checks come to if there is no null among the names. -/
theorem checks_eq_report {room : Room} (noNull : none ∉ room.values) (c : ChatClient)
    (username : Option String) :
    checks room c username = report { room } (failures room c username) := by
  rw [checks_eq, checkNames_eq_report noNull, ← report_append]
  rfl

theorem onlyFailures_report (room : Room) (reasons : List String) :
    OnlyFailures (report { room } reasons) := by
  rw [report_start]
  rcases reasons with _ | ⟨reason, _ | ⟨other, reasons⟩⟩
  · exact ⟨rfl, Or.inl ⟨rfl, rfl⟩⟩
  · exact ⟨rfl, Or.inr ⟨rfl, reason, rfl⟩⟩
  · exact ⟨rfl, Or.inr ⟨rfl, reason, rfl⟩⟩

/-- What comes of a login.  A client is told of the first check that fails, and only of
that one; but it is kept out only if a second one fails, or if there is a null among the
names. -/
structure LoginOutcome (room : Room) (c : ChatClient) (position : Nat)
    (username : Option String) (run : Run) : Prop where
  room_eq : run.room =
    if none ∉ room.values ∧ (failures room c username).length ≤ 1 then
      room.put position c username
    else room
  sent_eq : run.sent =
    if none ∉ room.values ∧ (failures room c username).length ≤ 1 then
      room.keySet.map (·, .join username) ++
        if failures room c username = [] then [(c, .ping)] else []
    else []
  replies_eq : none ∉ room.values → run.replies =
    match failures room c username with
    | [] => [.success]
    | reason :: _ => [.failure reason]
  replies_le : run.replies.length ≤ 1
  success_iff : .success ∈ run.replies ↔ none ∉ room.values ∧ failures room c username = []
  returns_iff : run.thrown = none ↔ none ∉ room.values ∧ failures room c username = []

theorem login_outcome (room : Room) (c : ChatClient) (position : Nat) (username : Option String) :
    LoginOutcome room c position username (login room c position username) := by
  by_cases null : none ∈ room.values
  · have reported := checkNames_spec username room.values (onlyFailures_report room
      ((if username = none ∨ username = some "" then ["Non-empty username required"] else []) ++
        (if (room.get c).isSome then ["Already logged in"] else [])))
    rw [← checks_eq, room_report] at reported
    rcases reported with ⟨⟨sent, replies⟩, sameRoom, throws⟩
    have same : login room c position username = checks room c username := by
      simp only [login, Run.andThen_of_thrown (throws null)]
    rw [same]
    have noSuccess : .success ∉ (checks room c username).replies ∧
        (checks room c username).replies.length ≤ 1 := by
      rcases replies with ⟨_, replies⟩ | ⟨_, reason, replies⟩ <;> rw [replies] <;> simp
    refine ⟨?_, ?_, fun noNull => absurd null noNull, noSuccess.2, ?_, ?_⟩
    · rw [if_neg (fun both => both.1 null), sameRoom]
    · rw [if_neg (fun both => both.1 null), sent]
    · exact iff_of_false noSuccess.1 fun both => both.1 null
    · exact iff_of_false (fun quiet => by simp [quiet] at throws; exact throws null)
        fun both => both.1 null
  · have reported := checks_eq_report null c username
    rw [report_start] at reported
    unfold login
    rw [reported]
    cases found : failures room c username with
    | nil =>
        refine ⟨?_, ?_, ?_, ?_, ?_, ?_⟩ <;>
          simp [found, null, Run.andThen, Run.broadcast, Run.useCallback]
    | cons reason reasons =>
        cases reasons with
        | nil =>
            refine ⟨?_, ?_, ?_, ?_, ?_, ?_⟩ <;>
              simp [found, null, Run.andThen, Run.broadcast, Run.useCallback]
        | cons other reasons =>
            refine ⟨?_, ?_, ?_, ?_, ?_, ?_⟩ <;> simp [found, null, Run.andThen]

/-! ## The room over time -/

/-- What clients do. -/
inductive Action
  | login (c : ChatClient) (position : Nat) (username : Option String)
  | say (c : ChatClient) (message : Option String)
  | close (c : ChatClient)
  -- a map that grows has a new order
  | rehash (order : Room)

/-- The map that all connections share. -/
def machine : Machine Room Action where
  init := []
  next room
    | .login c position username => some (login room c position username).room
    | .say c message => some (say room c message).room
    | .close c => some (onClose room c).room
    | .rehash order => if order.Perm room then some order else none

namespace Room

theorem room_onClose (room : Room) (client : ChatClient) :
    (onClose room client).room = room.remove client := by
  unfold onClose
  cases (room.get client).getD none <;> rfl

/-- A new entry is one name more, or a name in place of another one. -/
theorem count_values_put (room : Room) (position : Nat) (c : ChatClient)
    (username name : Option String) :
    (room.put position c username).values.count name ≤
      room.values.count name + if username = name then 1 else 0 := by
  have removed : (room.remove c).values.count name ≤ room.values.count name :=
    (List.filter_sublist.map Prod.snd).count_le name
  have middle : (room.put position c username).Perm ((c, username) :: room.remove c) := by
    have joined := List.take_append_drop position (room.remove c)
    exact List.perm_middle.trans (by rw [joined])
  have perm : (room.put position c username).values.Perm (username :: (room.remove c).values) :=
    middle.map Prod.snd
  rw [perm.count_eq, List.count_cons]
  simp only [beq_iff_eq]
  omega

theorem count_values_remove (room : Room) (client : ChatClient) (name : Option String) :
    (room.remove client).values.count name ≤ room.values.count name :=
  (List.filter_sublist.map Prod.snd).count_le name

end Room

/-- The number of checks that fail. -/
theorem length_failures_ge (room : Room) (c : ChatClient) (username : Option String) :
    room.values.count username +
        (if username = none ∨ username = some "" then 1 else 0) ≤
      (failures room c username).length := by
  rw [failures, List.length_append, List.length_append, List.length_map,
    List.count_eq_length_filter]
  have sameFilter : room.values.filter (· == username) = room.values.filter (· = username) :=
    List.filter_congr fun name _ => beq_eq_decide name username
  rw [sameFilter]
  split
  · simp only [List.length_singleton]
    omega
  · simp only [List.length_nil]
    omega

/-- At most two clients have the same name, and at most one has none or an empty one. -/
structure NamesInRoom (room : Room) : Prop where
  count_le : ∀ name, room.values.count name ≤ 2
  count_empty_le : room.values.count (some "") ≤ 1
  count_null_le : room.values.count none ≤ 1

theorem NamesInRoom.of_le {room other : Room} (names : NamesInRoom room)
    (le : ∀ name, other.values.count name ≤ room.values.count name) : NamesInRoom other where
  count_le name := (le name).trans (names.count_le name)
  count_empty_le := (le _).trans names.count_empty_le
  count_null_le := (le _).trans names.count_null_le

theorem NamesInRoom.login {room : Room} (names : NamesInRoom room) (c : ChatClient)
    (position : Nat) (username : Option String) :
    NamesInRoom (login room c position username).room := by
  rw [(login_outcome room c position username).room_eq]
  split
  · rename_i enters
    have few := (length_failures_ge room c username).trans enters.2
    have after := Room.count_values_put room position c username
    refine ⟨?_, ?_, ?_⟩
    · intro name
      have before := names.count_le name
      have counted := after name
      by_cases same : username = name
      · subst same
        rw [if_pos rfl] at counted
        omega
      · rw [if_neg same] at counted
        omega
    · have before := names.count_empty_le
      have counted := after (some "")
      by_cases same : username = some ""
      · rw [if_pos same] at counted
        rw [if_pos (Or.inr same), same] at few
        omega
      · rw [if_neg same] at counted
        omega
    · have before := names.count_null_le
      have counted := after none
      by_cases same : username = none
      · rw [if_pos same] at counted
        rw [if_pos (Or.inl same), same] at few
        omega
      · rw [if_neg same] at counted
        omega
  · exact names

/-- Whoever logs in, in whatever order, and whoever leaves. -/
theorem names_in_room {room : Room} (reachable : machine.Reachable room) : NamesInRoom room := by
  refine reachable.invariant ⟨by simp [machine, Room.values], by simp [machine, Room.values],
    by simp [machine, Room.values]⟩ ?_
  intro source target action _ step names
  cases action with
  | login c position username =>
      cases step
      exact names.login c position username
  | say c message =>
      cases step
      exact names
  | close c =>
      cases step
      rw [Room.room_onClose]
      exact names.of_le (Room.count_values_remove source c)
  | rehash order =>
      simp only [machine, Option.ite_none_right_eq_some] at step
      rcases step with ⟨perm, same⟩
      cases same
      exact names.of_le fun name => ((perm.map Prod.snd).count_eq name).le

/-- Three clients ask for one name, and two of them get it. -/
theorem names_in_room_ann :
    NamesInRoom [(2, some "ann"), (1, some "ann")] :=
  names_in_room (Machine.reachable_of_run
    [.login 1 0 (some "ann"), .login 2 0 (some "ann"), .login 3 0 (some "ann")] (by decide))

end WebbitGwt.Samples.EasyChatRoom
