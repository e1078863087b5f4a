import Vtm.Player.Packet

/-!
# Player sessions

`MyWorkCallback` on a received packet and `WndProc` on a posted message, over the
session map, the window map and the message queue of the main window. Sessions
and windows lie at addresses; using one that has been deleted is an error, as is
a failed assertion.
-/

namespace Vtm.Player

open Vtm.Std
open Function (update)

/-- The name of a session. -/
abbrev App := List UInt8

/-- What `MyWorkCallback` reads of a packet. -/
structure WorkPacket where
  type : RtmpType
  app : App
  timebase : Int32
  body : List UInt8
deriving DecidableEq

structure Session where
  win : Option Nat
  menuid : Nat
  app : App
  hash : Nat
deriving DecidableEq

/-- `RtmpWindow`, as far as the callbacks use it. -/
structure RtmpWindow where
  app : App
  timebase : Int32
  menuid : Nat
  priQue : List WorkPacket
deriving DecidableEq

/-- The messages that are posted to the main window. -/
inductive Message where
  | WM_NEW_CONNECTION (s : Nat) (timebase : Int32)
  | WM_NEW_ONLINEUSER (s : Nat)
  | WM_DEL_ONLINEUSER (menuid : Nat)
deriving DecidableEq

/-- The session that a message points to. -/
@[grind =] def Message.session : Message → Option Nat
  | .WM_NEW_CONNECTION s _ => some s
  | .WM_NEW_ONLINEUSER s => some s
  | .WM_DEL_ONLINEUSER _ => none

/-- The global state of the player: the maps `g_umHashToSession` and
`g_umHashToWin` to addresses, what lies there, the next address and the next
`uuid32`, the messages posted, and the menu of online users. -/
structure PlayerState where
  umHashToSession : Nat → Option Nat
  umHashToWin : Nat → Option Nat
  session : Nat → Option Session
  window : Nat → Option RtmpWindow
  address : Nat
  uuid32 : Nat
  messages : List Message
  menu : List (Nat × App)

/-- The state before the first packet. -/
def PlayerState.initial : PlayerState :=
  ⟨fun _ => none, fun _ => none, fun _ => none, fun _ => none, 0, 1000, [], []⟩

/-- The tokens of `SplitString` in front of each delimiter; what follows the last
one is dropped. -/
def splitLoop : App → List UInt8 → List App
  | _, [] => []
  | token, c :: rest => if c = 10 then token :: splitLoop [] rest else splitLoop (token ++ [c]) rest

/-- `SplitString( ptrPacket->body(), "\n" )`. -/
def splitString (body : List UInt8) : List App := splitLoop [] (body.takeWhile (· ≠ 0))

section Callbacks

variable (hashValue : App → Nat)

/-- A new session, entered in the map and posted to the main window. -/
def newSession (app : App) (st : PlayerState) : Checked PlayerState := do
  let s : Session := { win := none, menuid := st.uuid32, app := app, hash := hashValue app }
  CHECK (st.umHashToSession s.hash ≠ none) "g_umHashToSession.count( s->hash ) == 0"
  return { st with
    umHashToSession := update st.umHashToSession s.hash (some st.address)
    session := update st.session st.address (some s)
    address := st.address + 1
    uuid32 := st.uuid32 + 1
    messages := st.messages ++ [.WM_NEW_ONLINEUSER st.address] }

/-- `Push` and `Fin`. -/
def pushPacketTo (packet : WorkPacket) (st : PlayerState) : Checked PlayerState :=
  match st.umHashToWin (hashValue packet.app) with
  | none => .error "g_umHashToWin.count( hashVal )"
  | some w =>
      match st.window w with
      | none => .error "window is deleted"
      | some win => return { st with
          window := update st.window w
            (some { win with priQue := win.priQue ++ [packet] }) }

/-- The session of `LostSession` is deleted, if there is one; its menu entry. -/
def deleteSession (hashVal : Nat) (st : PlayerState) : Checked (PlayerState × Option Nat) :=
  match st.umHashToSession hashVal with
  | none => return (st, none)
  | some s =>
      match st.session s with
      | none => .error "session is deleted"
      | some session => return ({ st with
          umHashToSession := update st.umHashToSession hashVal none
          session := update st.session s none }, some session.menuid)

/-- The window of `LostSession` is deleted, if there is one; its menu entry. -/
def deleteWindow (hashVal : Nat) (st : PlayerState) : Checked (PlayerState × Option Nat) :=
  match st.umHashToWin hashVal with
  | none => return (st, none)
  | some w =>
      match st.window w with
      | none => .error "window is deleted"
      | some win => return ({ st with
          umHashToWin := update st.umHashToWin hashVal none
          window := update st.window w none }, some win.menuid)

def lostSession (packet : WorkPacket) (st : PlayerState) : Checked PlayerState := do
  let (st, first) ← deleteSession (hashValue packet.app) st
  let (st, second) ← deleteWindow (hashValue packet.app) st
  CHECK (first = none ∧ second = none) "atLeatDeleteOne"
  return { st with
    messages := st.messages ++ [.WM_DEL_ONLINEUSER (second.getD (first.getD 0))] }

/-- `BuildConnect` with time base 0, and `Accept` with its own. -/
def newConnection (packet : WorkPacket) (timebase : Int32) (st : PlayerState) :
    Checked PlayerState :=
  match st.umHashToSession (hashValue packet.app) with
  | none => .error "g_umHashToSession.count( hashVal )"
  | some s => return { st with messages := st.messages ++ [.WM_NEW_CONNECTION s timebase] }

/-- `MyWorkCallback` on a received packet. -/
def myWorkCallback (packet : WorkPacket) (st : PlayerState) : Checked PlayerState :=
  match packet.type with
  | .Push => pushPacketTo hashValue packet st
  | .Fin => pushPacketTo hashValue packet st
  | .OnlineSessions =>
      (splitString packet.body).foldlM (fun st app => newSession hashValue app st) st
  | .NewSession => newSession hashValue packet.app st
  | .LostSession => lostSession hashValue packet st
  | .BuildConnect => newConnection hashValue packet 0 st
  | .Accept => newConnection hashValue packet packet.timebase st
  | .CreateStream | .Pull | .Ack | .Err | .Refuse => return st

end Callbacks

/-- The window of a session, made and entered in the map. -/
def openWindow (s : Nat) (session : Session) (timebase : Int32) (st : PlayerState) :
    Checked PlayerState := do
  CHECK (st.umHashToWin session.hash ≠ none) "g_umHashToWin.count( s->hash ) == 0"
  return { st with
    umHashToWin := update st.umHashToWin session.hash (some st.address)
    session := update st.session s (some { session with win := some st.address })
    window := update st.window st.address
      (some { app := session.app, timebase := timebase, menuid := session.menuid, priQue := [] })
    address := st.address + 1 }

/-- `WndProc` on a posted message. A connection that the peer has asked for is
opened when the user agrees. -/
def wndProc (agreed : Bool) (message : Message) (st : PlayerState) : Checked PlayerState :=
  match message with
  | .WM_NEW_ONLINEUSER s =>
      match st.session s with
      | none => .error "session is deleted"
      | some session => return { st with menu := st.menu ++ [(session.menuid, session.app)] }
  | .WM_DEL_ONLINEUSER menuid =>
      return { st with menu := st.menu.filter fun entry => entry.1 ≠ menuid }
  | .WM_NEW_CONNECTION s timebase =>
      match st.session s with
      | none => .error "session is deleted"
      | some session =>
          if timebase = 0 ∧ ¬ agreed then return st else openWindow s session timebase st

/-- Where a peer stands in the order in which its packets arrive. -/
inductive Phase where
  | unknown
  | online
  | connected
  | pushing
  | finished
  | lost
deriving DecidableEq, Repr

/-- The packets of a peer arrive as `NewSession`, at most one `BuildConnect` or
`Accept`, any number of `Push`, possibly `Fin`, and possibly `LostSession`. -/
def Phase.next : Phase → RtmpType → Option Phase
  | .unknown, .NewSession => some .online
  | .online, .BuildConnect | .online, .Accept => some .connected
  | .online, .Push | .connected, .Push | .pushing, .Push => some .pushing
  | .online, .Fin | .connected, .Fin | .pushing, .Fin => some .finished
  | .online, .LostSession | .connected, .LostSession | .pushing, .LostSession
  | .finished, .LostSession => some .lost
  | _, _ => none

/-- The player with what has happened so far: the phase of every peer, and the
peers whose window the main window has opened. -/
structure System where
  player : PlayerState
  phase : App → Phase
  opened : App → Bool

/-- The system before the first packet. -/
def System.initial : System := ⟨.initial, fun _ => .unknown, fun _ => false⟩

/-- A packet is processed, or the main window handles its next message. -/
inductive Step where
  | work (packet : WorkPacket)
  | wnd (agreed : Bool)

/-- The peers that are online once a packet has been processed, and their phases. -/
def phaseAfter (phase : App → Phase) (packet : WorkPacket) : App → Phase :=
  if packet.type = .OnlineSessions then
    fun app => if app ∈ splitString packet.body then .online else phase app
  else update phase packet.app
    (((phase packet.app).next packet.type).getD (phase packet.app))

/-- The peers with an opened window once a message has been handled. -/
def openedAfter (opened : App → Bool) (agreed : Bool) (message : Message) (st : PlayerState) :
    App → Bool :=
  match message with
  | .WM_NEW_CONNECTION s timebase =>
      match st.session s with
      | some session =>
          if timebase = 0 ∧ ¬ agreed then opened else update opened session.app true
      | none => opened
  | _ => opened

/-- One step of the system. -/
def System.step (hashValue : App → Nat) (sys : System) : Step → Checked System
  | .work packet => do
      let player ← myWorkCallback hashValue packet sys.player
      return { sys with player := player, phase := phaseAfter sys.phase packet }
  | .wnd agreed =>
      match sys.player.messages with
      | [] => .error "no message"
      | message :: messages => do
          let player ← wndProc agreed message { sys.player with messages := messages }
          return { sys with
            player := player
            opened := openedAfter sys.opened agreed message sys.player }

/-- A step that the peers and the main window can take: packets arrive in the
order of their phases. -/
@[grind =] def Admissible (peers : List App) (sys : System) : Step → Prop
  | .work packet =>
      if packet.type = .OnlineSessions then
        (splitString packet.body).Nodup ∧
          ∀ app ∈ splitString packet.body, app ∈ peers ∧ sys.phase app = .unknown
      else packet.app ∈ peers ∧ (sys.phase packet.app).next packet.type ≠ none
  | .wnd _ => sys.player.messages ≠ []

/-- The main window keeps up: a `Push` or `Fin` packet is processed after it has
opened the connection of the peer, and a `LostSession` packet after it has
handled all messages about the peer. -/
def KeepsUp (hashValue : App → Nat) (sys : System) : Step → Prop
  | .work packet =>
      ((packet.type = .Push ∨ packet.type = .Fin) → sys.opened packet.app = true) ∧
        (packet.type = .LostSession → ∀ message ∈ sys.player.messages,
          message.session = none ∨
            message.session ≠ sys.player.umHashToSession (hashValue packet.app))
  | .wnd _ => True

instance (peers : List App) (sys : System) (s : Step) : Decidable (Admissible peers sys s) :=
  match s with
  | .work packet => inferInstanceAs (Decidable (if packet.type = .OnlineSessions then
        (splitString packet.body).Nodup ∧
          ∀ app ∈ splitString packet.body, app ∈ peers ∧ sys.phase app = .unknown
      else packet.app ∈ peers ∧ (sys.phase packet.app).next packet.type ≠ none))
  | .wnd _ => inferInstanceAs (Decidable (sys.player.messages ≠ []))

instance (hashValue : App → Nat) (sys : System) (s : Step) : Decidable (KeepsUp hashValue sys s) :=
  match s with
  | .work packet => inferInstanceAs (Decidable (
      ((packet.type = .Push ∨ packet.type = .Fin) → sys.opened packet.app = true) ∧
        (packet.type = .LostSession → ∀ message ∈ sys.player.messages,
          message.session = none ∨
            message.session ≠ sys.player.umHashToSession (hashValue packet.app))))
  | .wnd _ => inferInstanceAs (Decidable True)

/-- The states that the system reaches while the main window keeps up. -/
inductive Reached (hashValue : App → Nat) (peers : List App) : System → Prop where
  | initial : Reached hashValue peers System.initial
  | step {sys next : System} {s : Step} (reached : Reached hashValue peers sys)
      (admissible : Admissible peers sys s) (keepsUp : KeepsUp hashValue sys s)
      (run : sys.step hashValue s = .ok next) : Reached hashValue peers next

/-- The given steps one after the other, as long as each can be taken while the
main window keeps up. -/
def follow (hashValue : App → Nat) (peers : List App) : List Step → System → Option System
  | [], sys => some sys
  | s :: steps, sys =>
      if Admissible peers sys s ∧ KeepsUp hashValue sys s then
        match sys.step hashValue s with
        | .ok next => follow hashValue peers steps next
        | .error _ => none
      else none

theorem Reached.follow {hashValue : App → Nat} {peers : List App} {steps : List Step}
    {sys next : System} (reached : Reached hashValue peers sys)
    (run : Player.follow hashValue peers steps sys = some next) : Reached hashValue peers next := by
  induction steps generalizing sys with
  | nil =>
      cases run
      exact reached
  | cons s steps ih =>
      rw [Player.follow] at run
      split at run
      case isFalse => cases run
      case isTrue taken =>
        split at run
        case h_1 after step => exact ih (reached.step taken.1 taken.2 step) run
        case h_2 => cases run

end Vtm.Player
