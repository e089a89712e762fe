import GravitalShare.StackBacklog

/-! The relay task of one intercepted connection: it opens a tunnel through the proxy and then
passes bytes both ways, in two loops that know nothing of each other. -/
namespace GravitalShare.Engine

open Stack (Link RelayAct RelayStep)

/-- The loop `app_to_up`. At its end it has shut down the stream to the proxy and dropped
`conn_rx`. -/
inductive AppToUp where
  | recv
  | writing (rest : Bytes)
  | ended

namespace AppToUp

-- up_tx.write_all with this much left to write
def writeAll (rest : Bytes) : AppToUp := if rest = [] then .recv else .writing rest

def hand : AppToUp → Bytes
  | .writing rest => rest
  | _ => []

def isOver : AppToUp → Bool
  | .ended => true
  | _ => false

def Fits : AppToUp → Prop
  | .writing rest => rest ≠ []
  | _ => True

theorem fits_writeAll (rest : Bytes) : (writeAll rest).Fits := by
  unfold writeAll
  split_ifs with h
  · trivial
  · exact h

theorem hand_writeAll (rest : Bytes) : (writeAll rest).hand = rest := by
  unfold writeAll
  split_ifs with h
  · exact h.symm
  · rfl

theorem isOver_writeAll (rest : Bytes) : (writeAll rest).isOver = false := by
  unfold writeAll
  split_ifs <;> rfl

end AppToUp

/-- The loop `up_to_app`. At its end it has dropped `conn_tx`. -/
inductive UpToApp where
  | read
  | sending (chunk : Bytes)
  | ended

namespace UpToApp

def hand : UpToApp → Bytes
  | .sending chunk => chunk
  | _ => []

def isOver : UpToApp → Bool
  | .ended => true
  | _ => false

/-- A chunk comes from one read into a buffer of 16384. -/
def Fits : UpToApp → Prop
  | .sending chunk => 1 ≤ chunk.length ∧ chunk.length ≤ 16384
  | _ => True

end UpToApp

/-- Where `relay_connection` stands; both loops run under one `join!`. -/
inductive Relay where
  | connecting
  | relaying (app : AppToUp) (up : UpToApp)
  | refused

namespace Relay

def appHand : Relay → Bytes
  | .relaying app _ => app.hand
  | _ => []

def upHand : Relay → Bytes
  | .relaying _ up => up.hand
  | _ => []

def Fits : Relay → Prop
  | .relaying app up => app.Fits ∧ up.Fits
  | _ => True

/-- The stream to the proxy was shut down. -/
def hasShutDown : Relay → Bool
  | .relaying app _ => app.isOver
  | _ => false

/-- The task will take nothing more from the app. -/
def appOver : Relay → Bool
  | .connecting => false
  | .relaying app _ => app.isOver
  | .refused => true

/-- The task will give nothing more to the app. -/
def upOver : Relay → Bool
  | .connecting => false
  | .relaying _ up => up.isOver
  | .refused => true

def connected : Relay → Bool
  | .relaying _ _ => true
  | _ => false

theorem appOver_of_hasShutDown {task : Relay} (h : task.hasShutDown = true) :
    task.appOver = true := by
  cases task with
  | relaying app up => exact h
  | connecting | refused => cases h

end Relay

/-- What the task works on: the channels of its connection and the bytes under way on the two
halves of the stream to the proxy. -/
structure Desk where
  link : Link
  task : Relay
  toProxy : Bytes
  toClient : Bytes

inductive DeskAct where
  | connect
  | refuse
  | recv
  | write (n : ℕ)
  | hangUp
  | writeErr
  | read (n : ℕ)
  | readEof
  | readErr
  | send
  | sendErr

/-- `relay_connection`; `done` tells that the proxy has shut down its half of the stream. A read
or a write may fail at any time, and nothing is said here of the room that a write finds. -/
inductive DeskStep (done : Bool) : Desk → DeskAct → Desk → Prop
  | connect {link : Link} {p c : Bytes} :
      DeskStep done ⟨link, .connecting, p, c⟩ .connect ⟨link, .relaying .recv .read, p, c⟩
  -- the connection is dropped on the way out of the function
  | refuse {link : Link} {p c : Bytes} :
      DeskStep done ⟨link, .connecting, p, c⟩ .refuse ⟨link.dropConn, .refused, p, c⟩
  | recv {link : Link} {chunk p c : Bytes} {chan : Chan Bytes} {up : UpToApp}
      (ht : link.up.tryRecv = some (chunk, chan)) :
      DeskStep done ⟨link, .relaying .recv up, p, c⟩ .recv
        ⟨{ link with up := chan }, .relaying (.writeAll chunk) up, p, c⟩
  | write {link : Link} {rest p c : Bytes} {up : UpToApp} (n : ℕ) (h0 : 0 < n)
      (hn : n ≤ rest.length) :
      DeskStep done ⟨link, .relaying (.writing rest) up, p, c⟩ (.write n)
        ⟨link, .relaying (.writeAll (rest.drop n)) up, p ++ rest.take n, c⟩
  -- recv() gives None; nobody sees the shutdown and the end of conn_rx apart
  | hangUp {link : Link} {p c : Bytes} {up : UpToApp} (hq : link.up.queue = [])
      (hs : link.up.sender = false) :
      DeskStep done ⟨link, .relaying .recv up, p, c⟩ .hangUp
        ⟨{ link with up := link.up.dropReceiver }, .relaying .ended up, p, c⟩
  | writeErr {link : Link} {rest p c : Bytes} {up : UpToApp} :
      DeskStep done ⟨link, .relaying (.writing rest) up, p, c⟩ .writeErr
        ⟨{ link with up := link.up.dropReceiver }, .relaying .ended up, p, c⟩
  | read {link : Link} {p c : Bytes} {app : AppToUp} (n : ℕ) (h0 : 0 < n) (hbuf : n ≤ 16384)
      (hn : n ≤ c.length) :
      DeskStep done ⟨link, .relaying app .read, p, c⟩ (.read n)
        ⟨link, .relaying app (.sending (c.take n)), p, c.drop n⟩
  | readEof {link : Link} {p : Bytes} {app : AppToUp} (hd : done = true) :
      DeskStep done ⟨link, .relaying app .read, p, []⟩ .readEof
        ⟨{ link with down := link.down.dropSender }, .relaying app .ended, p, []⟩
  | readErr {link : Link} {p c : Bytes} {app : AppToUp} :
      DeskStep done ⟨link, .relaying app .read, p, c⟩ .readErr
        ⟨{ link with down := link.down.dropSender }, .relaying app .ended, p, c⟩
  -- conn_tx.send waits for a slot
  | send {link : Link} {chunk p c : Bytes} {app : AppToUp} (hr : link.down.receiver = true)
      (hroom : link.down.queue.length < link.down.cap) :
      DeskStep done ⟨link, .relaying app (.sending chunk), p, c⟩ .send
        ⟨{ link with down := link.down.push chunk hroom }, .relaying app .read, p, c⟩
  | sendErr {link : Link} {chunk p c : Bytes} {app : AppToUp} (hr : link.down.receiver = false) :
      DeskStep done ⟨link, .relaying app (.sending chunk), p, c⟩ .sendErr
        ⟨{ link with down := link.down.dropSender }, .relaying app .ended, p, c⟩

namespace Desk

/-- The task holds its ends of the channels until the loop that uses them is over. -/
structure Owned (d : Desk) : Prop where
  upReceiver : d.task.appOver = false → d.link.up.receiver = true
  downSender : d.task.upOver = false → d.link.down.sender = true
  fits : d.task.Fits

end Desk

section

variable {done : Bool} {d d' : Desk} {a : DeskAct}

theorem DeskStep.owned (ho : d.Owned) (h : DeskStep done d a d') : d'.Owned := by
  obtain ⟨hup, hdown, hfits⟩ := ho
  cases h with
  | connect => exact ⟨hup, hdown, trivial, trivial⟩
  | refuse => exact ⟨fun he => Bool.noConfusion he, fun he => Bool.noConfusion he, trivial⟩
  | recv ht =>
    exact ⟨fun _ => (Chan.tryRecv_eq_some ht).2.2.2.trans (hup rfl), hdown,
      AppToUp.fits_writeAll _, hfits.2⟩
  | write n h0 hn => exact ⟨fun _ => hup rfl, hdown, AppToUp.fits_writeAll _, hfits.2⟩
  | hangUp | writeErr => exact ⟨fun he => Bool.noConfusion he, hdown, trivial, hfits.2⟩
  | read n h0 hbuf hn =>
    refine ⟨hup, fun _ => hdown rfl, hfits.1, ?_⟩
    simp only [UpToApp.Fits, List.length_take, Nat.min_eq_left hn]
    exact ⟨h0, hbuf⟩
  | readEof | readErr | sendErr =>
    exact ⟨hup, fun he => Bool.noConfusion he, hfits.1, trivial⟩
  | send => exact ⟨hup, fun _ => hdown rfl, hfits.1, trivial⟩

/-- What the task does to the channels are steps of a relay. -/
theorem DeskStep.relay_run (ho : d.Owned) (h : DeskStep done d a d') :
    ∃ tr, Run RelayStep d.link tr d'.link := by
  cases h with
  | connect | write | read => exact ⟨[], Run.nil⟩
  | refuse => exact ⟨_, (Run.single .dropRx).snoc .dropTx⟩
  | recv ht => exact ⟨_, Run.single (.recv (ho.upReceiver rfl) ht)⟩
  | hangUp | writeErr => exact ⟨_, Run.single .dropRx⟩
  | readEof | readErr | sendErr => exact ⟨_, Run.single .dropTx⟩
  | send hr hroom =>
    obtain ⟨-, h1, h2⟩ := ho.fits
    exact ⟨_, Run.single (.send (ho.downSender rfl) hr hroom h1 h2)⟩

end

end GravitalShare.Engine
