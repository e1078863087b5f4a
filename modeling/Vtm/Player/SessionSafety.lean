import Vtm.Player.Session

/-!
# Safety of player sessions

While the main window keeps up with the packets, every peer that is online has
a live session, and a live window once its connection is open; messages only
point to live sessions. So no assertion fails and nothing deleted is used.
-/

namespace Vtm.Player

open Vtm.Std
open Function (update update_of_ne update_self)

/-- A message that opens the window of the session at `a`. -/
def Message.connects (a : Nat) : Message → Bool
  | .WM_NEW_CONNECTION s _ => s = a
  | _ => false

/-- The number of messages that open the window of the session at `a`. -/
def pending (messages : List Message) (a : Nat) : Nat := messages.countP (Message.connects a)

theorem pending_append (messages : List Message) (message : Message) (a : Nat) :
    pending (messages ++ [message]) a = pending messages a + (message.connects a).toNat := by
  rw [pending, List.countP_append, List.countP_singleton, pending]
  cases message.connects a <;> rfl

theorem pending_cons (messages : List Message) (message : Message) (a : Nat) :
    pending (message :: messages) a = pending messages a + (message.connects a).toNat := by
  rw [pending, List.countP_cons, pending]
  cases message.connects a <;> rfl

section Invariant

variable (hashValue : App → Nat)

/-- A peer that is online has a live session, and a live window exactly when its
connection has been opened. -/
structure Present (st : PlayerState) (app : App) (phase : Phase) (opened : Bool) (a : Nat)
    (s : Session) : Prop where
  entered : st.umHashToSession (hashValue app) = some a
  lives : st.session a = some s
  owner : s.app = app
  key : s.hash = hashValue app
  closed : opened = false → st.umHashToWin (hashValue app) = none ∧ pending st.messages a ≤ 1 ∧
    (phase = .online → pending st.messages a = 0)
  window : opened = true → phase ≠ .online ∧ pending st.messages a = 0 ∧
    ∃ w win, st.umHashToWin (hashValue app) = some w ∧ st.window w = some win ∧ win.app = app

/-- A peer that is not online has neither. -/
structure Absent (st : PlayerState) (app : App) (phase : Phase) (opened : Bool) : Prop where
  session : st.umHashToSession (hashValue app) = none
  window : st.umHashToWin (hashValue app) = none
  closed : phase = .unknown → opened = false

/-- A peer is online. -/
def Phase.isOnline (phase : Phase) : Prop := phase ≠ .unknown ∧ phase ≠ .lost

/-- What holds of the maps and the messages. -/
structure Consistent (peers : List App) (st : PlayerState) (phase : App → Phase)
    (opened : App → Bool) : Prop where
  fresh : ∀ a, st.address ≤ a → st.session a = none ∧ st.window a = none
  absent : ∀ app ∈ peers, ¬ (phase app).isOnline → Absent hashValue st app (phase app) (opened app)
  present : ∀ app ∈ peers, (phase app).isOnline →
    ∃ a s, Present hashValue st app (phase app) (opened app) a s
  posted : ∀ message ∈ st.messages, ∀ a, message.session = some a →
    ∃ app ∈ peers, (phase app).isOnline ∧ st.umHashToSession (hashValue app) = some a

end Invariant

variable {hashValue : App → Nat} {peers : List App} {st : PlayerState} {phase : App → Phase}
  {opened : App → Bool}

theorem consistent_initial :
    Consistent hashValue peers System.initial.player System.initial.phase
      System.initial.opened where
  fresh _ _ := ⟨rfl, rfl⟩
  absent _ _ _ := ⟨rfl, rfl, fun _ => rfl⟩
  present _ _ online := absurd rfl online.1
  posted _ member := by simp [System.initial, PlayerState.initial] at member

/-- What a state shows of a peer. -/
structure Shows (hashValue : App → Nat) (st st' : PlayerState) (app : App) : Prop where
  session : st'.umHashToSession (hashValue app) = st.umHashToSession (hashValue app)
  window : st'.umHashToWin (hashValue app) = st.umHashToWin (hashValue app)
  lives : ∀ a, st.umHashToSession (hashValue app) = some a → st'.session a = st.session a
  waits : ∀ a, st.umHashToSession (hashValue app) = some a →
    pending st'.messages a = pending st.messages a
  opens : ∀ w win, st.umHashToWin (hashValue app) = some w → st.window w = some win →
    win.app = app → st'.window w = some win

/-- A peer that a step does not touch stays as it is. -/
theorem Present.frame {st' : PlayerState} {app : App} {ph : Phase} {op : Bool} {a : Nat} {s : Session}
    (present : Present hashValue st app ph op a s) (shows : Shows hashValue st st' app) :
    Present hashValue st' app ph op a s := by
  have waits := shows.waits a present.entered
  refine ⟨shows.session.trans present.entered, (shows.lives a present.entered).trans present.lives,
    present.owner, present.key, fun closed => ?_, fun isOpen => ?_⟩
  · rw [shows.window, waits]
    exact present.closed closed
  · obtain ⟨later, none, w, win, entered, live, owner⟩ := present.window isOpen
    rw [shows.window, waits]
    exact ⟨later, none, w, win, entered, shows.opens w win entered live owner, owner⟩

theorem Absent.frame {st' : PlayerState} {app : App} {ph : Phase} {op : Bool}
    (absent : Absent hashValue st app ph op) (shows : Shows hashValue st st' app) :
    Absent hashValue st' app ph op :=
  ⟨shows.session.trans absent.session, shows.window.trans absent.window, absent.closed⟩

/-- Different peers have their sessions at different addresses. -/
theorem Present.address_ne {app app' : App} {ph ph' : Phase} {op op' : Bool} {a a' : Nat}
    {s s' : Session} (present : Present hashValue st app ph op a s)
    (other : Present hashValue st app' ph' op' a' s') (differ : app' ≠ app) : a' ≠ a := by
  rintro rfl
  have same := other.lives.symm.trans present.lives
  cases same
  exact differ (other.owner.symm.trans present.owner)

theorem Consistent.address_lt (holds : Consistent hashValue peers st phase opened) {app : App}
    {ph : Phase} {op : Bool} {a : Nat} {s : Session}
    (present : Present hashValue st app ph op a s) : a < st.address := by
  by_contra high
  have none := (holds.fresh a (Nat.le_of_not_lt high)).1
  rw [present.lives] at none
  cases none

theorem Consistent.window_lt (holds : Consistent hashValue peers st phase opened) {w : Nat}
    {win : RtmpWindow} (live : st.window w = some win) : w < st.address := by
  by_contra high
  have none := (holds.fresh w (Nat.le_of_not_lt high)).2
  rw [live] at none
  cases none

/-- Nothing points to an address that is not in use. -/
theorem Consistent.pending_fresh (holds : Consistent hashValue peers st phase opened) :
    pending st.messages st.address = 0 := by
  rw [pending, List.countP_eq_zero]
  intro message member connects
  cases message with
  | WM_NEW_CONNECTION s timebase =>
      have here : s = st.address := of_decide_eq_true connects
      obtain ⟨app, mem, online, entered⟩ := holds.posted _ member s rfl
      obtain ⟨a, session, present⟩ := holds.present app mem online
      have same := entered.symm.trans present.entered
      cases same
      have low := holds.address_lt present
      omega
  | WM_NEW_ONLINEUSER s => cases connects
  | WM_DEL_ONLINEUSER menuid => cases connects

/-- A step that touches one peer keeps the others. -/
theorem Consistent.of_touched (holds : Consistent hashValue peers st phase opened)
    {st' : PlayerState} {phase' : App → Phase} {opened' : App → Bool} (app : App)
    (fresh : ∀ a, st'.address ≤ a → st'.session a = none ∧ st'.window a = none)
    (phases : ∀ app' ∈ peers, app' ≠ app → phase' app' = phase app' ∧ opened' app' = opened app')
    (shows : ∀ app' ∈ peers, app' ≠ app → Shows hashValue st st' app')
    (touched : (¬ (phase' app).isOnline → Absent hashValue st' app (phase' app) (opened' app)) ∧
      ((phase' app).isOnline → ∃ a s, Present hashValue st' app (phase' app) (opened' app) a s))
    (posted : ∀ message ∈ st'.messages, ∀ a, message.session = some a →
      ∃ app ∈ peers, (phase' app).isOnline ∧ st'.umHashToSession (hashValue app) = some a) :
    Consistent hashValue peers st' phase' opened' where
  fresh := fresh
  absent app' mem offline := by
    by_cases same : app' = app
    · rw [same] at offline ⊢
      exact touched.1 offline
    · obtain ⟨ph, op⟩ := phases app' mem same
      rw [ph] at offline
      rw [ph, op]
      exact (holds.absent app' mem offline).frame (shows app' mem same)
  present app' mem online := by
    by_cases same : app' = app
    · rw [same] at online ⊢
      exact touched.2 online
    · obtain ⟨ph, op⟩ := phases app' mem same
      rw [ph] at online
      rw [ph, op]
      obtain ⟨a, s, present⟩ := holds.present app' mem online
      exact ⟨a, s, present.frame (shows app' mem same)⟩
  posted := posted

section Steps

variable (apart : ∀ a ∈ peers, ∀ b ∈ peers, hashValue a = hashValue b → a = b)
include apart

theorem newSession_consistent (holds : Consistent hashValue peers st phase opened) {app : App}
    (mem : app ∈ peers) (unknown : phase app = .unknown) :
    ∃ st', newSession hashValue app st = .ok st' ∧
      Consistent hashValue peers st' (update phase app .online) opened := by
  have absent := holds.absent app mem (fun online => online.1 unknown)
  have closed := absent.closed unknown
  refine ⟨_, CHECK_bind_eq_ok_iff.mpr ⟨not_not.mpr absent.session, rfl⟩, ?_⟩
  refine holds.of_touched app ?_ ?_ ?_ ?_ ?_
  · intro a above
    have high : st.address + 1 ≤ a := above
    have none := holds.fresh a (by omega)
    exact ⟨(update_of_ne (Nat.ne_of_gt high) ..).trans none.1, none.2⟩
  · intro app' _ differ
    exact ⟨update_of_ne differ .., rfl⟩
  · intro app' mem' differ
    have keys : hashValue app' ≠ hashValue app := fun same => differ (apart _ mem' _ mem same)
    refine ⟨update_of_ne keys .., rfl, fun a entered => ?_, fun a entered => ?_,
      fun w win _ live _ => live⟩
    · by_cases online : (phase app').isOnline
      · obtain ⟨a', s, present⟩ := holds.present app' mem' online
        cases entered.symm.trans present.entered
        exact update_of_ne (holds.address_lt present).ne ..
      · rw [(holds.absent app' mem' online).session] at entered
        cases entered
    · exact pending_append st.messages _ a
  · rw [update_self]
    refine ⟨fun offline => absurd ⟨by decide, by decide⟩ offline, fun _ =>
      ⟨st.address, { win := none, menuid := st.uuid32, app := app, hash := hashValue app }, ?_⟩⟩
    refine ⟨update_self .., update_self .., rfl, rfl, fun _ => ?_, ?_⟩
    · have none := holds.pending_fresh
      have same : pending (st.messages ++ [.WM_NEW_ONLINEUSER st.address]) st.address =
          pending st.messages st.address := pending_append st.messages _ _
      rw [same, none]
      exact ⟨absent.window, Nat.zero_le 1, fun _ => rfl⟩
    · rw [closed]
      intro impossible
      cases impossible
  · intro message member a points
    rcases List.mem_append.mp member with before | new
    · obtain ⟨owner, memOwner, online, entered⟩ := holds.posted message before a points
      have differ : owner ≠ app := by
        rintro rfl
        exact online.1 unknown
      have keys : hashValue owner ≠ hashValue app := fun same =>
        differ (apart _ memOwner _ mem same)
      refine ⟨owner, memOwner, ?_, ?_⟩
      · rw [update_of_ne differ]
        exact online
      · exact (update_of_ne keys ..).trans entered
    · rw [List.mem_singleton.mp new] at points
      cases points
      refine ⟨app, mem, ?_, update_self ..⟩
      rw [update_self]
      exact ⟨by decide, by decide⟩

theorem onlineSessions_consistent (apps : List App)
    (holds : Consistent hashValue peers st phase opened) (distinct : apps.Nodup)
    (unknown : ∀ app ∈ apps, app ∈ peers ∧ phase app = .unknown) :
    ∃ st', apps.foldlM (fun st app => newSession hashValue app st) st = .ok st' ∧
      Consistent hashValue peers st' (fun app => if app ∈ apps then .online else phase app)
        opened := by
  induction apps generalizing st phase with
  | nil => exact ⟨st, rfl, by simpa using holds⟩
  | cons app apps ih =>
      obtain ⟨notin, distinct⟩ := List.nodup_cons.mp distinct
      obtain ⟨mem, here⟩ := unknown app (by simp)
      obtain ⟨middle, run, holds⟩ := newSession_consistent apart holds mem here
      obtain ⟨st', run', holds⟩ := ih holds distinct fun app' member => by
        have differ : app' ≠ app := by
          rintro rfl
          exact notin member
        rw [update_of_ne differ]
        exact unknown app' (by simp [member])
      refine ⟨st', ?_, ?_⟩
      · rw [List.foldlM_cons, run]
        exact run'
      · have same : (fun app' => if app' ∈ app :: apps then Phase.online else phase app') =
            fun app' => if app' ∈ apps then .online
              else update phase app .online app' := by
          funext app'
          by_cases first : app' = app
          · simp [first]
          · simp [first]
        rw [same]
        exact holds

omit apart in
theorem pushPacketTo_consistent (holds : Consistent hashValue peers st phase opened)
    {packet : WorkPacket} {next : Phase} (mem : packet.app ∈ peers)
    (online : (phase packet.app).isOnline) (isOpen : opened packet.app = true)
    (after : next.isOnline) (later : next ≠ .online) :
    ∃ w win, st.umHashToWin (hashValue packet.app) = some w ∧ st.window w = some win ∧
      win.app = packet.app ∧
      pushPacketTo hashValue packet st = .ok { st with
        window := update st.window w
          (some { win with priQue := win.priQue ++ [packet] }) } ∧
      Consistent hashValue peers { st with
        window := update st.window w
          (some { win with priQue := win.priQue ++ [packet] }) }
        (update phase packet.app next) opened := by
  obtain ⟨a, s, present⟩ := holds.present packet.app mem online
  obtain ⟨-, none, w, win, entered, live, owner⟩ := present.window isOpen
  refine ⟨w, win, entered, live, owner, ?_, ?_⟩
  · simp only [pushPacketTo, entered, live]
    rfl
  refine holds.of_touched packet.app ?_ ?_ ?_ ?_ ?_
  · intro address above
    have none := holds.fresh address above
    have low := holds.window_lt live
    exact ⟨none.1, (update_of_ne (Nat.ne_of_gt (low.trans_le above)) ..).trans none.2⟩
  · intro app' _ differ
    exact ⟨update_of_ne differ .., rfl⟩
  · intro app' mem' differ
    refine ⟨rfl, rfl, fun _ _ => rfl, fun _ _ => rfl, fun w' win' entered' live' owner' => ?_⟩
    have apart : w' ≠ w := by
      rintro rfl
      cases live'.symm.trans live
      exact differ (owner'.symm.trans owner)
    exact (update_of_ne apart ..).trans live'
  · rw [update_self]
    refine ⟨fun offline => absurd after offline, fun _ => ⟨a, s, present.entered, present.lives,
      present.owner, present.key, fun closed => ?_, fun _ => ?_⟩⟩
    · rw [isOpen] at closed
      cases closed
    · exact ⟨later, none, w, _, entered, update_self .., owner⟩
  · intro message member address points
    obtain ⟨app', mem', online', entered'⟩ := holds.posted message member address points
    refine ⟨app', mem', ?_, entered'⟩
    by_cases same : app' = packet.app
    · rw [same, update_self]
      exact after
    · rw [update_of_ne same]
      exact online'

omit apart in
theorem newConnection_consistent (holds : Consistent hashValue peers st phase opened)
    {packet : WorkPacket} (timebase : Int32) (mem : packet.app ∈ peers)
    (online : phase packet.app = .online) :
    ∃ st', newConnection hashValue packet timebase st = .ok st' ∧
      Consistent hashValue peers st' (update phase packet.app .connected) opened := by
  obtain ⟨a, s, present⟩ := holds.present packet.app mem (by rw [online]; exact ⟨by decide, by decide⟩)
  have closed : opened packet.app = false := by
    by_contra isOpen
    exact (present.window (by simpa using isOpen)).1 online
  obtain ⟨noWindow, -, none⟩ := present.closed closed
  refine ⟨{ st with messages := st.messages ++ [.WM_NEW_CONNECTION a timebase] }, ?_, ?_⟩
  · simp only [newConnection, present.entered]
    rfl
  refine holds.of_touched packet.app holds.fresh ?_ ?_ ?_ ?_
  · intro app' _ differ
    exact ⟨update_of_ne differ .., rfl⟩
  · intro app' mem' differ
    refine ⟨rfl, rfl, fun _ _ => rfl, fun a' entered' => ?_, fun _ _ _ live _ => live⟩
    have other : a' ≠ a := by
      by_cases online' : (phase app').isOnline
      · obtain ⟨b, s', present'⟩ := holds.present app' mem' online'
        cases entered'.symm.trans present'.entered
        exact present.address_ne present' differ
      · rw [(holds.absent app' mem' online').session] at entered'
        cases entered'
    show pending (st.messages ++ [.WM_NEW_CONNECTION a timebase]) a' = _
    rw [pending_append, Message.connects, decide_eq_false other.symm]
    rfl
  · rw [update_self]
    refine ⟨fun offline => absurd ⟨by decide, by decide⟩ offline, fun _ => ⟨a, s, present.entered,
      present.lives, present.owner, present.key, fun _ => ?_, fun isOpen => ?_⟩⟩
    · show _ ∧ pending (st.messages ++ [.WM_NEW_CONNECTION a timebase]) a ≤ 1 ∧ _
      rw [pending_append, none online, Nat.zero_add]
      exact ⟨noWindow, Bool.toNat_le _, fun wrong => by cases wrong⟩
    · rw [closed] at isOpen
      cases isOpen
  · have kept (app' : App) (on : (phase app').isOnline) :
        (update phase packet.app .connected app').isOnline := by
      by_cases same : app' = packet.app
      · rw [same, update_self]
        exact ⟨by decide, by decide⟩
      · rwa [update_of_ne same]
    intro message member address points
    rcases List.mem_append.mp member with before | new
    · obtain ⟨app', mem', online', entered'⟩ := holds.posted message before address points
      exact ⟨app', mem', kept app' online', entered'⟩
    · rw [List.mem_singleton.mp new] at points
      cases points
      refine ⟨packet.app, mem, kept _ ?_, present.entered⟩
      rw [online]
      exact ⟨by decide, by decide⟩

omit apart in
/-- What `LostSession` deletes. -/
theorem lostSession_ok {packet : WorkPacket} {ph : Phase} {op : Bool} {a : Nat} {s : Session}
    (present : Present hashValue st packet.app ph op a s) :
    ∃ st' menuid, lostSession hashValue packet st = .ok st' ∧
      st'.umHashToSession = update st.umHashToSession (hashValue packet.app) none ∧
      st'.umHashToWin = update st.umHashToWin (hashValue packet.app) none ∧
      st'.session = update st.session a none ∧
      (∀ w, st'.window w = st.window w ∨
        st'.window w = none ∧ ∃ win, st.window w = some win ∧ win.app = packet.app) ∧
      st'.messages = st.messages ++ [.WM_DEL_ONLINEUSER menuid] ∧ st'.address = st.address := by
  have deleted : deleteSession (hashValue packet.app) st = .ok ({ st with
      umHashToSession := update st.umHashToSession (hashValue packet.app) none
      session := update st.session a none }, some s.menuid) := by
    simp only [deleteSession, present.entered, present.lives]
    rfl
  cases op with
  | false =>
      obtain ⟨noWindow, -⟩ := present.closed rfl
      have kept : update st.umHashToWin (hashValue packet.app) none = st.umHashToWin :=
        Function.update_eq_self_iff.mpr noWindow.symm
      have nothing : deleteWindow (hashValue packet.app) { st with
          umHashToSession := update st.umHashToSession (hashValue packet.app) none
          session := update st.session a none } = .ok ({ st with
          umHashToSession := update st.umHashToSession (hashValue packet.app) none
          session := update st.session a none }, none) := by
        simp only [deleteWindow, noWindow]
        rfl
      exact ⟨_, s.menuid, bind_eq_ok_iff.mpr ⟨_, deleted, bind_eq_ok_iff.mpr ⟨_, nothing,
        CHECK_bind_eq_ok_iff.mpr ⟨by simp, rfl⟩⟩⟩, rfl, kept.symm, rfl, fun _ => Or.inl rfl, rfl,
        rfl⟩
  | true =>
      obtain ⟨-, -, w, win, entered, live, owner⟩ := present.window rfl
      have closed : deleteWindow (hashValue packet.app) { st with
          umHashToSession := update st.umHashToSession (hashValue packet.app) none
          session := update st.session a none } = .ok ({ st with
          umHashToSession := update st.umHashToSession (hashValue packet.app) none
          session := update st.session a none
          umHashToWin := update st.umHashToWin (hashValue packet.app) none
          window := update st.window w none }, some win.menuid) := by
        simp only [deleteWindow, entered, live]
        rfl
      refine ⟨_, win.menuid, bind_eq_ok_iff.mpr ⟨_, deleted, bind_eq_ok_iff.mpr ⟨_, closed,
        CHECK_bind_eq_ok_iff.mpr ⟨by simp, rfl⟩⟩⟩, rfl, rfl, rfl, fun w' => ?_, rfl, rfl⟩
      by_cases here : w' = w
      · rw [here]
        exact Or.inr ⟨update_self .., win, live, owner⟩
      · exact Or.inl (update_of_ne here ..)

theorem lostSession_consistent (holds : Consistent hashValue peers st phase opened)
    {packet : WorkPacket} (mem : packet.app ∈ peers) (online : (phase packet.app).isOnline)
    (handled : ∀ message ∈ st.messages, message.session = none ∨
      message.session ≠ st.umHashToSession (hashValue packet.app)) :
    ∃ st', lostSession hashValue packet st = .ok st' ∧
      Consistent hashValue peers st' (update phase packet.app .lost) opened := by
  obtain ⟨a, s, present⟩ := holds.present packet.app mem online
  obtain ⟨st', menuid, run, toSession, toWin, session, window, messages, address⟩ :=
    lostSession_ok present
  have keys (app' : App) (mem' : app' ∈ peers) (differ : app' ≠ packet.app) :
      hashValue app' ≠ hashValue packet.app := fun same => differ (apart _ mem' _ mem same)
  refine ⟨st', run, holds.of_touched packet.app ?_ ?_ ?_ ?_ ?_⟩
  · intro b above
    rw [address] at above
    have none := holds.fresh b above
    refine ⟨?_, ?_⟩
    · rw [session, update_of_ne (Nat.ne_of_gt ((holds.address_lt present).trans_le above))]
      exact none.1
    · rcases window b with same | ⟨gone, -⟩
      · rw [same]
        exact none.2
      · exact gone
  · intro app' _ differ
    exact ⟨update_of_ne differ .., rfl⟩
  · intro app' mem' differ
    refine ⟨?_, ?_, fun b entered => ?_, fun b _ => ?_, fun w win _ live owner => ?_⟩
    · rw [toSession, update_of_ne (keys app' mem' differ)]
    · rw [toWin, update_of_ne (keys app' mem' differ)]
    · by_cases online' : (phase app').isOnline
      · obtain ⟨b', s', present'⟩ := holds.present app' mem' online'
        cases entered.symm.trans present'.entered
        rw [session, update_of_ne (present.address_ne present' differ)]
      · rw [(holds.absent app' mem' online').session] at entered
        cases entered
    · rw [messages, pending_append]
      rfl
    · rcases window w with same | ⟨-, win', live', owner'⟩
      · rw [same, live]
      · cases live.symm.trans live'
        exact absurd (owner.symm.trans owner') differ
  · rw [update_self]
    refine ⟨fun _ => ⟨?_, ?_, fun wrong => by cases wrong⟩, fun online' => absurd rfl online'.2⟩
    · rw [toSession, update_self]
    · rw [toWin, update_self]
  · intro message member b points
    rw [messages] at member
    rcases List.mem_append.mp member with before | new
    · obtain ⟨app', mem', online', entered'⟩ := holds.posted message before b points
      have differ : app' ≠ packet.app := by
        rintro rfl
        rcases handled message before with none | other
        · rw [none] at points
          cases points
        · exact other (points.trans entered'.symm)
      refine ⟨app', mem', ?_, ?_⟩
      · rw [update_of_ne differ]
        exact online'
      · rw [toSession, update_of_ne (keys app' mem' differ)]
        exact entered'
    · rw [List.mem_singleton.mp new] at points
      cases points

omit apart in
/-- The main window handles a message about an online user, or about one that
has left. -/
theorem Consistent.handled (holds : Consistent hashValue peers st phase opened) {message : Message}
    {messages : List Message} (first : st.messages = message :: messages)
    (other : ∀ a, message.connects a = false) (menu : List (Nat × App)) :
    Consistent hashValue peers { st with messages := messages, menu := menu } phase opened := by
  have waits (a : Nat) : pending messages a = pending st.messages a := by
    rw [first, pending_cons, other]
    rfl
  have shows (app : App) :
      Shows hashValue st { st with messages := messages, menu := menu } app :=
    ⟨rfl, rfl, fun _ _ => rfl, fun a _ => waits a, fun _ _ _ live _ => live⟩
  refine ⟨holds.fresh, fun app mem offline => (holds.absent app mem offline).frame (shows app),
    fun app mem online => ?_, fun m member a points => ?_⟩
  · obtain ⟨a, s, present⟩ := holds.present app mem online
    exact ⟨a, s, present.frame (shows app)⟩
  · exact holds.posted m (by rw [first]; exact List.mem_cons_of_mem _ member) a points

/-- The main window handles the connection of a peer: its window is opened, or
the user has not agreed. -/
theorem connection_consistent (holds : Consistent hashValue peers st phase opened) {s : Nat}
    {timebase : Int32} {messages : List Message} (agreed : Bool)
    (first : st.messages = .WM_NEW_CONNECTION s timebase :: messages) :
    ∃ st', wndProc agreed (.WM_NEW_CONNECTION s timebase) { st with messages := messages } =
        .ok st' ∧
      Consistent hashValue peers st' phase
        (openedAfter opened agreed (.WM_NEW_CONNECTION s timebase) st) := by
  obtain ⟨app, mem, online, entered⟩ :=
    holds.posted (.WM_NEW_CONNECTION s timebase) (by rw [first]; simp) s rfl
  obtain ⟨a, session, present⟩ := holds.present app mem online
  cases entered.symm.trans present.entered
  have count : pending st.messages s = pending messages s + 1 := by
    rw [first, pending_cons, Message.connects, decide_eq_true rfl]
    rfl
  have closed : opened app = false := by
    by_contra isOpen
    have none := (present.window (by simpa using isOpen)).2.1
    omega
  obtain ⟨noWindow, single, notOnline⟩ := present.closed closed
  have later : phase app ≠ .online := fun here => by
    have none := notOnline here
    omega
  have done : pending messages s = 0 := by omega
  -- the messages that are left, and the peers they are about
  have waits (app' : App) (mem' : app' ∈ peers) (differ : app' ≠ app) (b : Nat)
      (entered' : st.umHashToSession (hashValue app') = some b) :
      b ≠ s ∧ pending messages b = pending st.messages b := by
    by_cases online' : (phase app').isOnline
    · obtain ⟨b', session', present'⟩ := holds.present app' mem' online'
      cases entered'.symm.trans present'.entered
      have other := present.address_ne present' differ
      refine ⟨other, ?_⟩
      rw [first, pending_cons, Message.connects, decide_eq_false other.symm]
      rfl
    · rw [(holds.absent app' mem' online').session] at entered'
      cases entered'
  have posted : ∀ message ∈ messages, ∀ b, message.session = some b →
      ∃ app ∈ peers, (phase app).isOnline ∧ st.umHashToSession (hashValue app) = some b :=
    fun message member b points =>
      holds.posted message (by rw [first]; exact List.mem_cons_of_mem _ member) b points
  by_cases refused : timebase = 0 ∧ ¬ agreed
  · refine ⟨{ st with messages := messages }, ?_, ?_⟩
    · simp only [wndProc, present.lives]
      exact if_pos refused
    have same : openedAfter opened agreed (.WM_NEW_CONNECTION s timebase) st = opened := by
      simp only [openedAfter, present.lives]
      exact if_pos refused
    rw [same]
    refine holds.of_touched app holds.fresh (fun _ _ _ => ⟨rfl, rfl⟩) ?_ ?_ posted
    · intro app' mem' differ
      exact ⟨rfl, rfl, fun _ _ => rfl, fun b entered' => (waits app' mem' differ b entered').2,
        fun _ _ _ live _ => live⟩
    · refine ⟨fun offline => absurd online offline, fun _ => ⟨s, session, present.entered,
        present.lives, present.owner, present.key, fun _ => ?_, fun isOpen => ?_⟩⟩
      · exact ⟨noWindow, done.le.trans (Nat.zero_le 1), fun _ => done⟩
      · rw [closed] at isOpen
        cases isOpen
  · have same : openedAfter opened agreed (.WM_NEW_CONNECTION s timebase) st =
        update opened app true := by
      simp only [openedAfter, present.lives, present.owner]
      exact if_neg refused
    have key : st.umHashToWin session.hash = none := by
      rw [present.key]
      exact noWindow
    have run : wndProc agreed (.WM_NEW_CONNECTION s timebase) { st with messages := messages } =
        openWindow s session timebase { st with messages := messages } := by
      simp only [wndProc, present.lives]
      exact if_neg refused
    refine ⟨_, run.trans (CHECK_bind_eq_ok_iff.mpr ⟨not_not.mpr key, rfl⟩), ?_⟩
    rw [same]
    refine holds.of_touched app ?_ ?_ ?_ ?_ ?_
    · intro b above
      have high : st.address + 1 ≤ b := above
      have none := holds.fresh b (by omega)
      have low := holds.address_lt present
      exact ⟨(update_of_ne (by omega) ..).trans none.1,
        (update_of_ne (Nat.ne_of_gt high) ..).trans none.2⟩
    · intro app' _ differ
      exact ⟨rfl, update_of_ne differ ..⟩
    · intro app' mem' differ
      have keys : hashValue app' ≠ session.hash := by
        rw [present.key]
        exact fun same => differ (apart _ mem' _ mem same)
      exact ⟨rfl, update_of_ne keys ..,
        fun b entered' => update_of_ne (waits app' mem' differ b entered').1 ..,
        fun b entered' => (waits app' mem' differ b entered').2,
        fun w win _ live _ => (update_of_ne (holds.window_lt live).ne ..).trans live⟩
    · rw [update_self]
      refine ⟨fun offline => absurd online offline, fun _ => ⟨s, { session with win := some st.address },
        present.entered, update_self .., present.owner, present.key,
        fun wrong => absurd wrong (by decide), fun _ => ⟨later, done, st.address, _, ?_,
          update_self .., present.owner⟩⟩⟩
      rw [← present.key]
      exact update_self ..
    · exact posted

/-- A packet that arrives in order is processed, and everything stays consistent. -/
theorem work_consistent {sys : System} {packet : WorkPacket}
    (holds : Consistent hashValue peers sys.player sys.phase sys.opened)
    (admissible : Admissible peers sys (.work packet))
    (keepsUp : KeepsUp hashValue sys (.work packet)) :
    ∃ st', myWorkCallback hashValue packet sys.player = .ok st' ∧
      Consistent hashValue peers st' (phaseAfter sys.phase packet) sys.opened := by
  obtain ⟨isOpen, handled⟩ := keepsUp
  simp only [Admissible] at admissible
  unfold phaseAfter
  by_cases list : packet.type = .OnlineSessions
  · rw [if_pos list] at admissible ⊢
    obtain ⟨distinct, unknown⟩ := admissible
    have processed := onlineSessions_consistent apart _ holds distinct unknown
    unfold myWorkCallback
    rwa [list]
  · rw [if_neg list] at admissible ⊢
    obtain ⟨mem, order⟩ := admissible
    unfold myWorkCallback
    cases type : packet.type with
    | OnlineSessions => exact absurd type list
    | CreateStream | Pull | Ack | Err | Refuse =>
        rw [type] at order
        cases ph : sys.phase packet.app <;> rw [ph] at order <;> exact absurd rfl order
    | NewSession =>
        rw [type] at order
        cases ph : sys.phase packet.app with
        | unknown => exact newSession_consistent apart holds mem ph
        | online | connected | pushing | finished | lost =>
            rw [ph] at order
            exact absurd rfl order
    | BuildConnect =>
        rw [type] at order
        cases ph : sys.phase packet.app with
        | online => exact newConnection_consistent holds 0 mem ph
        | unknown | connected | pushing | finished | lost =>
            rw [ph] at order
            exact absurd rfl order
    | Accept =>
        rw [type] at order
        cases ph : sys.phase packet.app with
        | online => exact newConnection_consistent holds packet.timebase mem ph
        | unknown | connected | pushing | finished | lost =>
            rw [ph] at order
            exact absurd rfl order
    | Push =>
        rw [type] at order
        cases ph : sys.phase packet.app with
        | online | connected | pushing =>
            obtain ⟨w, win, -, -, -, run, after⟩ := pushPacketTo_consistent holds mem
              (by rw [ph]; exact ⟨by decide, by decide⟩) (isOpen (Or.inl type))
              (⟨by decide, by decide⟩ : Phase.pushing.isOnline) (by decide)
            exact ⟨_, run, after⟩
        | unknown | finished | lost =>
            rw [ph] at order
            exact absurd rfl order
    | Fin =>
        rw [type] at order
        cases ph : sys.phase packet.app with
        | online | connected | pushing =>
            obtain ⟨w, win, -, -, -, run, after⟩ := pushPacketTo_consistent holds mem
              (by rw [ph]; exact ⟨by decide, by decide⟩) (isOpen (Or.inr type))
              (⟨by decide, by decide⟩ : Phase.finished.isOnline) (by decide)
            exact ⟨_, run, after⟩
        | unknown | finished | lost =>
            rw [ph] at order
            exact absurd rfl order
    | LostSession =>
        rw [type] at order
        cases ph : sys.phase packet.app with
        | online | connected | pushing | finished =>
            exact lostSession_consistent apart holds mem
              (by rw [ph]; exact ⟨by decide, by decide⟩) (handled type)
        | unknown | lost =>
            rw [ph] at order
            exact absurd rfl order

/-- A step that the peers and the main window can take succeeds, and everything
stays consistent. -/
theorem step_consistent {sys : System} {s : Step}
    (holds : Consistent hashValue peers sys.player sys.phase sys.opened)
    (admissible : Admissible peers sys s) (keepsUp : KeepsUp hashValue sys s) :
    ∃ next, sys.step hashValue s = .ok next ∧
      Consistent hashValue peers next.player next.phase next.opened := by
  cases s with
  | work packet =>
      obtain ⟨player, run, after⟩ := work_consistent apart holds admissible keepsUp
      exact ⟨{ sys with player := player, phase := phaseAfter sys.phase packet },
        bind_eq_ok_iff.mpr ⟨player, run, rfl⟩, after⟩
  | wnd agreed =>
      cases first : sys.player.messages with
      | nil => exact absurd first admissible
      | cons message messages =>
          unfold System.step
          simp only [first]
          suffices handled : ∃ player,
              wndProc agreed message { sys.player with messages := messages } = .ok player ∧
              Consistent hashValue peers player sys.phase
                (openedAfter sys.opened agreed message sys.player) by
            obtain ⟨player, run, after⟩ := handled
            exact ⟨{ sys with
              player := player
              opened := openedAfter sys.opened agreed message sys.player },
              bind_eq_ok_iff.mpr ⟨player, run, rfl⟩, after⟩
          cases message with
          | WM_NEW_CONNECTION a timebase => exact connection_consistent apart holds agreed first
          | WM_DEL_ONLINEUSER menuid =>
              exact ⟨_, rfl, holds.handled first (fun _ => rfl) _⟩
          | WM_NEW_ONLINEUSER a =>
              obtain ⟨app, mem, online, entered⟩ :=
                holds.posted (.WM_NEW_ONLINEUSER a) (by rw [first]; simp) a rfl
              obtain ⟨b, session, present⟩ := holds.present app mem online
              cases entered.symm.trans present.entered
              refine ⟨_, ?_, holds.handled first (fun _ => rfl)
                (sys.player.menu ++ [(session.menuid, session.app)])⟩
              simp only [wndProc, present.lives]
              rfl

theorem reached_consistent {sys : System} (reached : Reached hashValue peers sys) :
    Consistent hashValue peers sys.player sys.phase sys.opened := by
  induction reached with
  | initial => exact consistent_initial
  | step _ admissible keepsUp run ih =>
      obtain ⟨next, run', after⟩ := step_consistent apart ih admissible keepsUp
      rw [run] at run'
      cases run'
      exact after

end Steps

/-- A packet of a peer. -/
def packetOf (app : App) (type : RtmpType) : WorkPacket := ⟨type, app, 40, []⟩

/-- Two peers come online, one of them in a list; each connects, the first one
pushes, finishes and leaves, and the second one pushes. -/
def twoPeers : List Step :=
  [.work (packetOf [49] .NewSession), .work ⟨.OnlineSessions, [], 0, [50, 50, 10]⟩, .wnd true,
    .wnd true, .work (packetOf [49] .Accept), .work (packetOf [50, 50] .BuildConnect), .wnd true,
    .wnd true, .work (packetOf [49] .Push), .work (packetOf [50, 50] .Push),
    .work (packetOf [49] .Fin), .work (packetOf [49] .LostSession)]

/-- The system behind these steps. -/
def afterTwoPeers : System :=
  (follow List.length [[49], [50, 50]] twoPeers System.initial).getD System.initial

theorem afterTwoPeers_reached : Reached List.length [[49], [50, 50]] afterTwoPeers := by
  have run : follow List.length [[49], [50, 50]] twoPeers System.initial = some afterTwoPeers := rfl
  exact Reached.initial.follow run

/-- The system after the first packet of the peer `1`. -/
def oneOnline : System where
  player :=
    { PlayerState.initial with
      umHashToSession := update (fun _ => none) 1 (some 0)
      session := update (fun _ => none) 0 (some ⟨none, 1000, [49], 1⟩)
      address := 1
      uuid32 := 1001
      messages := [.WM_NEW_ONLINEUSER 0] }
  phase := update (fun _ => .unknown) [49] .online
  opened := fun _ => false

end Vtm.Player
