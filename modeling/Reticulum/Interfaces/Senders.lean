import Mathlib.Data.List.Flatten
import Mathlib.Data.List.Sublists
import Reticulum.Interfaces.Kiss
import Reticulum.Lib.Runs

/-!
# Senders on streams

A packet is sent as one frame on the connection that its interface holds. Only the TCP
interface repeats a write that was cut short. Backbone keeps the rest for the next
packet, the local interface ignores how much was written, and the serial interface says
so but goes on. `senders_whole_iff` says when each of them keeps to whole frames.

## Implementation notes

`Sender` has the fields of the four interfaces that sending reads or writes. Connections
carry their own record: the packets that were given while one was held, those for which
`process_outgoing` returned `Ok` while online, and the bytes that went out on it. Nothing
that the code does depends on that record.
-/

namespace Reticulum.Interfaces

/-! ## Connections -/

/-- What a connection saw. -/
structure Connection where
  given : List Bytes
  promised : List Bytes
  wire : Bytes
  deriving DecidableEq

namespace Connection

/-- A new connection. -/
def opened : Connection := { given := [], promised := [], wire := [] }

/-- A packet is given. -/
def give (c : Connection) (data : Bytes) : Connection := { c with given := c.given ++ [data] }

/-- Bytes go out. -/
def wrote (c : Connection) (bytes : Bytes) : Connection := { c with wire := c.wire ++ bytes }

/-- The caller is told that a packet was sent. -/
def promise (c : Connection) (data : Bytes) : Connection :=
  { c with promised := c.promised ++ [data] }

variable (frame : Bytes → Bytes)

/-- The frames of some of the packets that were given went out in order, among them those that were
promised, and behind them at most a part of one more. -/
def Whole (c : Connection) : Prop :=
  ∃ sent cut, c.promised.Sublist sent ∧ sent.Sublist c.given ∧
    c.wire = sent.flatMap frame ++ cut ∧
      (cut = [] ∨ ∃ packet, (sent ++ [packet]).Sublist c.given ∧ cut <+: frame packet)

/-- The frames of the packets that were promised went out, and nothing else. -/
def Exact (c : Connection) : Prop :=
  c.promised.Sublist c.given ∧ c.wire = c.promised.flatMap frame

end Connection

/-- What a socket does with a write: it takes as much of it as it can, at most so much, or fails. -/
inductive Write
  | accepts (n : Nat)
  | fails (error : String)

/-- `write_all`: writes until all bytes are out; the bytes that went out, and the error if there was
one. -/
def writeAll : List Write → Bytes → Bytes × Option String
  | _, [] => ([], none)
  | [], _ :: _ => ([], some "failed to write whole buffer")
  | .accepts 0 :: _, _ :: _ => ([], some "failed to write whole buffer")
  | .accepts (n + 1) :: writes, byte :: bytes =>
      let rest := writeAll writes (bytes.drop n)
      (byte :: bytes.take n ++ rest.1, rest.2)
  | .fails error :: _, _ :: _ => ([], some error)

/-! ## Interfaces -/

/-- The fields that sending reads or writes, and the connections that ended. -/
structure Sender where
  online : Bool
  detached : Bool
  transmitBuffer : Bytes
  socket : Option Connection
  closed : List Connection

namespace Sender

/-- An interface that was created on a connection, or without one. -/
def start (connected : Bool) : Sender where
  online := connected
  detached := false
  transmitBuffer := []
  socket := if connected then some Connection.opened else none
  closed := []

/-- The socket is dropped. -/
def close (s : Sender) : Sender :=
  { s with socket := none, closed := s.closed ++ s.socket.toList }

/-- There is a new socket, which takes the place of one that was held. -/
def connect (s : Sender) : Sender := { s.close with socket := some Connection.opened }

/-- A packet is given. -/
def give (s : Sender) (data : Bytes) : Sender :=
  { s with socket := s.socket.map fun c => c.give data }

/-- The caller learns what became of a packet. -/
def learn (online : Bool) (data : Bytes) : Except String Unit × Sender → Sender
  | (.ok _, s) =>
      if online then { s with socket := s.socket.map fun c => c.promise data } else s
  | (.error _, s) => s

end Sender

/-- What happens to an interface: a packet for it, and what the socket does; the read loop finds the
connection lost; a new connection; `detach`. -/
inductive SendEvent (W : Type)
  | outgoing (data : Bytes) (write : W)
  | lost
  | connected
  | detach

namespace Tcp

/-- A packet in the framing of the interface. -/
def frame (kissFraming : Bool) (data : Bytes) : Bytes :=
  if kissFraming then (Kiss.Frame.data data).bytes else Hdlc.frame data

/-- `process_outgoing`. -/
def processOutgoing (kissFraming : Bool) (s : Sender) (data : Bytes) (writes : List Write) :
    Except String Unit × Sender :=
  if !s.online || s.detached then (.error "Interface offline or detached", s)
  else
    match s.socket with
    | none => (.error "No socket connection", s)
    | some socket =>
        let written := writeAll writes (frame kissFraming data)
        let s := { s with socket := some (socket.wrote written.1) }
        match written.2 with
        | none => (.ok (), s)
        | some e => (.error ("Failed to send data: " ++ e), { s.close with online := false })

/-- What an event does. -/
def send (kissFraming : Bool) (s : Sender) : SendEvent (List Write) → Sender
  | .outgoing data writes =>
      Sender.learn s.online data (processOutgoing kissFraming (s.give data) data writes)
  | .lost => { s.close with online := false }
  | .connected => { s.connect with online := true }
  | .detach => { s.close with online := false, detached := true }

end Tcp

namespace Backbone

/-- `process_outgoing`: the frame goes behind what is left of earlier ones. -/
def processOutgoing (s : Sender) (data : Bytes) (write : Write) : Except String Unit × Sender :=
  if !s.online || s.detached then (.error "Interface offline or detached", s)
  else
    let transmit := s.transmitBuffer ++ Hdlc.frame data
    match s.socket with
    | none => (.error "No socket connection", { s with transmitBuffer := transmit })
    | some socket =>
        match write with
        | .accepts n =>
            (.ok (), { s with
              socket := some (socket.wrote (transmit.take n))
              transmitBuffer := transmit.drop n })
        | .fails e =>
            (.error ("Failed to send data: " ++ e),
              { s.close with online := false, transmitBuffer := [] })

/-- What an event does. -/
def send (s : Sender) : SendEvent Write → Sender
  | .outgoing data write => Sender.learn s.online data (processOutgoing (s.give data) data write)
  | .lost => { s.close with online := false }
  | .connected => { s.connect with online := true }
  | .detach => { s.close with online := false, detached := true }

end Backbone

namespace Local

/-- `process_outgoing`. -/
def processOutgoing (s : Sender) (data : Bytes) (write : Write) : Except String Unit × Sender :=
  if !s.online then (.error "Interface offline", s)
  else
    match s.socket with
    | none => (.error "No socket connection", s)
    | some socket =>
        match write with
        | .accepts n => (.ok (), { s with socket := some (socket.wrote ((Hdlc.frame data).take n)) })
        | .fails e => (.error ("Failed to write to socket: " ++ e), s)

/-- What an event does: a lost connection is held until there is a new one, and `detach` does not
take the interface offline. -/
def send (s : Sender) : SendEvent Write → Sender
  | .outgoing data write => Sender.learn s.online data (processOutgoing (s.give data) data write)
  | .lost => { s with online := false }
  | .connected => { s.connect with online := true }
  | .detach => { s.close with detached := true }

end Local

namespace Serial

/-- `process_outgoing`. -/
def processOutgoing (s : Sender) (data : Bytes) (write : Write) : Except String Unit × Sender :=
  if !s.online then (.ok (), s)
  else
    let framed := Hdlc.frame data
    let (written, s) : Nat × Sender :=
      match s.socket, write with
      | some port, .accepts n =>
          (min n framed.length, { s with socket := some (port.wrote (framed.take n)) })
      | _, _ => (0, s)
    if written ≠ framed.length then
      (.error s!"Serial interface only wrote {written} bytes of {framed.length}", s)
    else (.ok (), s)

/-- What happens to a serial interface: a packet, an error of the port, the port is opened again, and
the interface goes online. -/
inductive PortEvent
  | outgoing (data : Bytes) (write : Write)
  | lost
  | opened
  | online

/-- What an event does. -/
def send (s : Sender) : PortEvent → Sender
  | .outgoing data write => Sender.learn s.online data (processOutgoing (s.give data) data write)
  | .lost => { s.close with online := false }
  | .opened => s.connect
  | .online => { s with online := true }

end Serial

/-! ## The law -/

/-- Every connection saw whole frames of packets that were given on it. -/
def Sender.Whole (frame : Bytes → Bytes) (s : Sender) : Prop :=
  (∀ c ∈ s.closed, c.Whole frame) ∧ ∀ c, s.socket = some c → c.Whole frame

/-- A write that does not fail takes all that it is given. -/
def Backbone.Accepts (s : Sender) : SendEvent Write → Prop
  | .outgoing data (.accepts n) =>
      s.online = true → s.detached = false →
        (s.transmitBuffer ++ Hdlc.frame data).length ≤ n
  | _ => True

/-- A write that does not fail takes all that it is given. -/
def Local.Accepts (s : Sender) : SendEvent Write → Prop
  | .outgoing data (.accepts n) =>
      s.online = true → s.socket ≠ none → (Hdlc.frame data).length ≤ n
  | _ => True

/-- A write that takes anything follows on whole frames. -/
def Serial.Accepts (s : Sender) : Serial.PortEvent → Prop
  | .outgoing _ (.accepts n) =>
      s.online = true → ∀ c, s.socket = some c → n = 0 ∨ c.Exact Hdlc.frame
  | _ => True

/-! ## Connections -/

namespace Connection

variable {frame : Bytes → Bytes} {c : Connection}

theorem exact_opened : opened.Exact frame := ⟨List.Sublist.refl [], rfl⟩

theorem Exact.whole (h : c.Exact frame) : c.Whole frame :=
  ⟨c.promised, [], List.Sublist.refl _, h.1, by rw [List.append_nil, h.2], .inl rfl⟩

theorem Exact.give (h : c.Exact frame) (data : Bytes) : (c.give data).Exact frame :=
  ⟨h.1.trans (List.sublist_append_left _ _), h.2⟩

theorem Whole.give (h : c.Whole frame) (data : Bytes) : (c.give data).Whole frame := by
  obtain ⟨sent, cut, hpromised, hsent, hwire, hcut⟩ := h
  have hmore : c.given.Sublist (c.give data).given := List.sublist_append_left _ _
  refine ⟨sent, cut, hpromised, hsent.trans hmore, hwire, ?_⟩
  rcases hcut with hnil | ⟨packet, hpacket, hstarts⟩
  · exact .inl hnil
  · exact .inr ⟨packet, hpacket.trans hmore, hstarts⟩

/-- A packet is given, and nothing of its frame goes out. -/
theorem Whole.give_nothing (h : c.Whole frame) (data : Bytes) :
    ((c.give data).wrote []).Whole frame := by
  have hsame : (c.give data).wrote [] = c.give data := by
    unfold wrote
    rw [List.append_nil]
  rw [hsame]
  exact h.give data

/-- A frame goes out whole. -/
theorem Exact.sent (h : c.Exact frame) (data : Bytes) :
    (((c.give data).wrote (frame data)).promise data).Exact frame := by
  refine ⟨h.1.append_right [data], ?_⟩
  have hwire : (((c.give data).wrote (frame data)).promise data).wire = c.wire ++ frame data := rfl
  have hpromised : (((c.give data).wrote (frame data)).promise data).promised =
      c.promised ++ [data] := rfl
  rw [hwire, hpromised, h.2, List.flatMap_append, List.flatMap_singleton]

/-- A frame goes out in part. -/
theorem Exact.cut (h : c.Exact frame) {data bytes : Bytes} (hbytes : bytes <+: frame data) :
    ((c.give data).wrote bytes).Whole frame :=
  ⟨c.promised, bytes, List.Sublist.refl _, h.1.trans (List.sublist_append_left _ _),
    congrArg (· ++ bytes) h.2,
    .inr ⟨data, h.1.append_right [data], hbytes⟩⟩

/-- A packet is promised though its frame did not go out whole. -/
theorem Exact.not_whole (h : c.Exact frame) {data bytes : Bytes}
    (hshort : bytes.length < (frame data).length) :
    ¬(((c.give data).wrote bytes).promise data).Whole frame := by
  rintro ⟨sent, cut, hpromised, -, hwire, -⟩
  have hlength : ((c.promised ++ [data]).flatMap frame).length ≤ (sent.flatMap frame).length :=
    (hpromised.flatMap frame).length_le
  have hbytes : (c.wire ++ bytes).length = (sent.flatMap frame ++ cut).length :=
    congrArg List.length hwire
  rw [List.flatMap_append, List.flatMap_singleton, List.length_append] at hlength
  rw [h.2, List.length_append, List.length_append] at hbytes
  omega

end Connection

/-- What goes out of a `write_all` is all of it, or a part and an error. -/
theorem writeAll_spec (writes : List Write) (bytes : Bytes) :
    (writeAll writes bytes).1 <+: bytes ∧
      ((writeAll writes bytes).2 = none → (writeAll writes bytes).1 = bytes) := by
  fun_induction writeAll writes bytes with
  | case1 => exact ⟨List.prefix_rfl, fun _ => rfl⟩
  | case2 => exact ⟨List.nil_prefix, fun h => absurd h (by simp)⟩
  | case3 => exact ⟨List.nil_prefix, fun h => absurd h (by simp)⟩
  | case4 n writes byte bytes rest ih =>
      obtain ⟨hstarts, hall⟩ := ih
      refine ⟨?_, fun h => ?_⟩
      · rw [List.cons_append, List.cons_prefix_cons]
        refine ⟨rfl, ?_⟩
        calc bytes.take n ++ rest.1 <+: bytes.take n ++ bytes.drop n :=
              (List.prefix_append_right_inj _).mpr hstarts
          _ = bytes := List.take_append_drop n bytes
      · rw [List.cons_append]
        have hrest : rest.1 = bytes.drop n := hall h
        rw [hrest, List.take_append_drop]
  | case5 => exact ⟨List.nil_prefix, fun h => absurd h (by simp)⟩

/-! ## Interfaces that keep to whole frames -/

/-- The connections that ended saw whole frames, and the one that is held nothing else. -/
structure Sender.Kept (frame : Bytes → Bytes) (s : Sender) : Prop where
  closed : ∀ c ∈ s.closed, c.Whole frame
  socket : ∀ c, s.socket = some c → c.Exact frame

namespace Sender

variable {frame : Bytes → Bytes} {s : Sender}

theorem Kept.whole (h : s.Kept frame) : s.Whole frame :=
  ⟨h.closed, fun c hc => (h.socket c hc).whole⟩

theorem Whole.close (h : s.Whole frame) : s.close.Kept frame where
  closed := by
    intro c hc
    rcases List.mem_append.mp hc with hmem | hmem
    · exact h.1 c hmem
    · exact h.2 c (Option.mem_toList.mp hmem)
  socket := fun _ hc => absurd hc (by simp [Sender.close])

theorem Whole.connect (h : s.Whole frame) : s.connect.Kept frame where
  closed := h.close.closed
  socket := fun c hc => by
    obtain rfl := Option.some.inj hc
    exact Connection.exact_opened

theorem Whole.give (h : s.Whole frame) (data : Bytes) : (s.give data).Whole frame :=
  ⟨h.1, fun c hc => by
    obtain ⟨before, hbefore, rfl⟩ := Option.map_eq_some_iff.mp hc
    exact (h.2 before hbefore).give data⟩

theorem Kept.give (h : s.Kept frame) (data : Bytes) : (s.give data).Kept frame where
  closed := h.closed
  socket := fun c hc => by
    obtain ⟨before, hbefore, rfl⟩ := Option.map_eq_some_iff.mp hc
    exact (h.socket before hbefore).give data

theorem kept_start (connected : Bool) : (start connected).Kept frame where
  closed := fun c hc => absurd hc List.not_mem_nil
  socket := fun c hc => by
    cases connected with
    | false => cases hc
    | true =>
        obtain rfl := Option.some.inj hc
        exact Connection.exact_opened

/-- A packet is given, and its frame goes out whole. -/
theorem Kept.sent (h : s.Kept frame) {c : Connection} (hc : s.socket = some c) (data : Bytes) :
    Kept frame { s with
      socket := some (((c.give data).wrote (frame data)).promise data) } where
  closed := h.closed
  socket := fun after hafter => by
    obtain rfl := Option.some.inj hafter
    exact (h.socket c hc).sent data

/-- A packet is given, and a part of its frame goes out. -/
theorem Kept.cut (h : s.Kept frame) {c : Connection} (hc : s.socket = some c) {data bytes : Bytes}
    (hbytes : bytes <+: frame data) :
    Whole frame { s with socket := some ((c.give data).wrote bytes) } :=
  ⟨h.closed, fun after hafter => by
    obtain rfl := Option.some.inj hafter
    exact (h.socket c hc).cut hbytes⟩

theorem give_socket {c : Connection} (hc : s.socket = some c) (data : Bytes) :
    (s.give data).socket = some (c.give data) := by
  unfold give
  rw [hc]
  rfl

theorem give_socket_none (hs : s.socket = none) (data : Bytes) : (s.give data).socket = none := by
  unfold give
  rw [hs]
  rfl

end Sender

/-! ## The TCP interface -/

/-- One event leaves whole frames, whatever the socket does. -/
theorem Tcp.kept_send (kissFraming : Bool) {s : Sender} (h : s.Kept (Tcp.frame kissFraming))
    (e : SendEvent (List Write)) : (Tcp.send kissFraming s e).Kept (Tcp.frame kissFraming) := by
  cases e with
  | lost => exact ⟨h.whole.close.closed, h.whole.close.socket⟩
  | connected => exact ⟨h.whole.connect.closed, h.whole.connect.socket⟩
  | detach => exact ⟨h.whole.close.closed, h.whole.close.socket⟩
  | outgoing data writes =>
      have hgive := h.give data
      rw [send, processOutgoing]
      split
      · exact hgive
      · rename_i honline
        have hon : s.online = true := by
          by_contra hoff
          exact honline (by simp [Sender.give, hoff])
        cases hsocket : s.socket with
        | none =>
            rw [Sender.give_socket_none hsocket]
            exact hgive
        | some c =>
            rw [Sender.give_socket hsocket]
            obtain ⟨hstarts, hall⟩ := writeAll_spec writes (frame kissFraming data)
            dsimp only
            cases hwritten : (writeAll writes (frame kissFraming data)).2 with
            | none =>
                dsimp only
                rw [hall hwritten, hon]
                exact h.sent hsocket data
            | some error =>
                have hcut := (h.cut hsocket hstarts).close
                exact ⟨hcut.closed, hcut.socket⟩

/-! ## Backbone -/

namespace Backbone

/-- Nothing is left over, and there is a socket when there should be. -/
structure Kept (s : Sender) : Prop extends s.Kept Hdlc.frame where
  transmitBuffer : s.transmitBuffer = []
  held : s.online = true → s.socket ≠ none

theorem kept_start (connected : Bool) : Kept (Sender.start connected) where
  toKept := Sender.kept_start connected
  transmitBuffer := rfl
  held := fun honline => by
    have hconnected : connected = true := honline
    simp [Sender.start, hconnected]

/-- A write that is made. -/
theorem send_accepts {s : Sender} (h : Kept s) (hon : s.online = true)
    (hdetached : s.detached = false) {c : Connection} (hsocket : s.socket = some c) (data : Bytes)
    (n : Nat) :
    send s (.outgoing data (.accepts n)) = { s with
      socket := some (((c.give data).wrote ((Hdlc.frame data).take n)).promise data)
      transmitBuffer := (Hdlc.frame data).drop n } := by
  obtain ⟨online, detached, transmitBuffer, socket, closed⟩ := s
  obtain rfl : transmitBuffer = [] := h.transmitBuffer
  subst hon hdetached hsocket
  rfl

theorem kept_send {s : Sender} (h : Kept s) {e : SendEvent Write} (hok : Accepts s e) :
    Kept (send s e) := by
  have hclose := h.whole.close
  have hconnect := h.whole.connect
  cases e with
  | lost => exact ⟨⟨hclose.closed, hclose.socket⟩, h.transmitBuffer, fun honline => by cases honline⟩
  | connected =>
      exact ⟨⟨hconnect.closed, hconnect.socket⟩, h.transmitBuffer,
        fun _ => Option.some_ne_none Connection.opened⟩
  | detach => exact ⟨⟨hclose.closed, hclose.socket⟩, h.transmitBuffer, fun honline => by
      cases honline⟩
  | outgoing data write =>
      have hgive := h.toKept.give data
      by_cases hoff : (!(s.give data).online || (s.give data).detached) = true
      · rw [send, processOutgoing, if_pos hoff]
        refine ⟨hgive, h.transmitBuffer, fun honline => ?_⟩
        simpa [Sender.learn, Sender.give] using h.held honline
      · have hboth : s.online = true ∧ s.detached = false := by
          simpa [Sender.give] using hoff
        obtain ⟨hon, hdetached⟩ := hboth
        obtain ⟨c, hsocket⟩ := Option.ne_none_iff_exists'.mp (h.held hon)
        cases write with
        | accepts n =>
            have hall := hok hon hdetached
            rw [h.transmitBuffer, List.nil_append] at hall
            rw [send_accepts h hon hdetached hsocket, List.take_of_length_le hall,
              List.drop_of_length_le hall]
            have hsent := h.toKept.sent hsocket data
            exact ⟨⟨hsent.closed, hsent.socket⟩, rfl, fun _ => Option.some_ne_none _⟩
        | fails error =>
            have hgone := hgive.whole.close
            rw [send, processOutgoing, if_neg hoff, Sender.give_socket hsocket]
            exact ⟨⟨hgone.closed, hgone.socket⟩, rfl, fun honline => by cases honline⟩

theorem not_whole_send {s : Sender} (h : Kept s) {e : SendEvent Write} (hok : ¬Accepts s e) :
    ¬(send s e).Whole Hdlc.frame := by
  cases e with
  | lost => exact absurd True.intro hok
  | connected => exact absurd True.intro hok
  | detach => exact absurd True.intro hok
  | outgoing data write =>
      cases write with
      | fails error => exact absurd True.intro hok
      | accepts n =>
          simp only [Accepts, Classical.not_imp, Nat.not_le] at hok
          obtain ⟨hon, hdetached, hshort⟩ := hok
          rw [h.transmitBuffer, List.nil_append] at hshort
          obtain ⟨c, hsocket⟩ := Option.ne_none_iff_exists'.mp (h.held hon)
          rw [send_accepts h hon hdetached hsocket]
          intro hwhole
          exact (h.socket c hsocket).not_whole (by rw [List.length_take]; omega) (hwhole.2 _ rfl)

end Backbone

/-! ## The local interface -/

namespace Local

/-- A write that is made. -/
theorem send_accepts {s : Sender} (hon : s.online = true) {c : Connection}
    (hsocket : s.socket = some c) (data : Bytes) (n : Nat) :
    send s (.outgoing data (.accepts n)) = { s with
      socket := some (((c.give data).wrote ((Hdlc.frame data).take n)).promise data) } := by
  have hgiven : (s.give data).online = true := hon
  rw [send, processOutgoing, hgiven, Sender.give_socket hsocket, hon]
  rfl

theorem kept_send {s : Sender} (h : s.Kept Hdlc.frame) {e : SendEvent Write}
    (hok : Accepts s e) : (send s e).Kept Hdlc.frame := by
  have hclose := h.whole.close
  have hconnect := h.whole.connect
  cases e with
  | lost => exact ⟨h.closed, h.socket⟩
  | connected => exact ⟨hconnect.closed, hconnect.socket⟩
  | detach => exact ⟨hclose.closed, hclose.socket⟩
  | outgoing data write =>
      have hgive := h.give data
      by_cases hoff : (!(s.give data).online) = true
      · rw [send, processOutgoing, if_pos hoff]
        exact hgive
      · have hon : s.online = true := by
          simpa [Sender.give] using hoff
        cases hsocket : s.socket with
        | none =>
            rw [send, processOutgoing, if_neg hoff, Sender.give_socket_none hsocket]
            exact hgive
        | some c =>
            cases write with
            | accepts n =>
                have hall := hok hon (by rw [hsocket]; exact Option.some_ne_none c)
                rw [send_accepts hon hsocket, List.take_of_length_le hall]
                exact h.sent hsocket data
            | fails error =>
                rw [send, processOutgoing, if_neg hoff, Sender.give_socket hsocket]
                exact hgive

theorem not_whole_send {s : Sender} (h : s.Kept Hdlc.frame) {e : SendEvent Write}
    (hok : ¬Accepts s e) : ¬(send s e).Whole Hdlc.frame := by
  cases e with
  | lost => exact absurd True.intro hok
  | connected => exact absurd True.intro hok
  | detach => exact absurd True.intro hok
  | outgoing data write =>
      cases write with
      | fails error => exact absurd True.intro hok
      | accepts n =>
          simp only [Accepts, Classical.not_imp, Nat.not_le] at hok
          obtain ⟨hon, hheld, hshort⟩ := hok
          obtain ⟨c, hsocket⟩ := Option.ne_none_iff_exists'.mp hheld
          rw [send_accepts hon hsocket]
          intro hwhole
          exact (h.socket c hsocket).not_whole (by rw [List.length_take]; omega) (hwhole.2 _ rfl)

end Local

/-! ## The serial interface -/

namespace Serial

theorem length_frame_ne_zero (data : Bytes) : (0 : Nat) ≠ (Hdlc.frame data).length := by
  simp [Hdlc.frame]

/-- A write that is made: what the interface makes of it does not depend on what went before. -/
theorem send_accepts {s : Sender} (hon : s.online = true) {c : Connection}
    (hsocket : s.socket = some c) (data : Bytes) (n : Nat) :
    send s (.outgoing data (.accepts n)) = { s with
      socket := some (if (Hdlc.frame data).length ≤ n then
          ((c.give data).wrote (Hdlc.frame data)).promise data
        else (c.give data).wrote ((Hdlc.frame data).take n)) } := by
  have hgiven : (s.give data).online = true := hon
  rw [send, processOutgoing, hgiven, Sender.give_socket hsocket, hon]
  dsimp only
  by_cases hall : (Hdlc.frame data).length ≤ n
  · rw [Nat.min_eq_right hall, List.take_of_length_le hall, if_pos hall]
    simp [Sender.learn, Sender.give]
  · have hshort : min n (Hdlc.frame data).length ≠ (Hdlc.frame data).length := by omega
    simp [hshort, hall, Sender.learn, Sender.give]

theorem whole_send {s : Sender} (h : s.Whole Hdlc.frame) {e : PortEvent} (hok : Accepts s e) :
    (send s e).Whole Hdlc.frame := by
  have hclose := h.close
  have hconnect := h.connect
  cases e with
  | lost => exact ⟨hclose.whole.1, hclose.whole.2⟩
  | opened => exact ⟨hconnect.whole.1, hconnect.whole.2⟩
  | online => exact h
  | outgoing data write =>
      have hgive := h.give data
      by_cases hoff : (!(s.give data).online) = true
      · have hfalse : s.online = false := by
          simpa [Sender.give] using hoff
        rw [send, processOutgoing, if_pos hoff, hfalse]
        exact hgive
      · have hon : s.online = true := by
          simpa [Sender.give] using hoff
        cases hsocket : s.socket with
        | none =>
            rw [send, processOutgoing, if_neg hoff, Sender.give_socket_none hsocket]
            simp only [ne_eq, length_frame_ne_zero, not_false_eq_true, if_true]
            exact hgive
        | some c =>
            cases write with
            | fails error =>
                rw [send, processOutgoing, if_neg hoff, Sender.give_socket hsocket]
                simp only [ne_eq, length_frame_ne_zero, not_false_eq_true, if_true]
                exact hgive
            | accepts n =>
                rw [send_accepts hon hsocket]
                refine ⟨h.1, fun after hafter => ?_⟩
                obtain rfl := Option.some.inj hafter
                rcases hok hon c hsocket with rfl | hexact
                · have hpos := length_frame_ne_zero data
                  rw [if_neg (by omega), List.take_zero]
                  exact (h.2 c hsocket).give_nothing data
                · split
                  · exact (hexact.sent data).whole
                  · exact hexact.cut (List.take_prefix _ _)

end Serial

/-! ## All four -/

/-- In every run the TCP interface keeps to whole frames, and so do Backbone and the local interface
exactly when every write that does not fail takes all that it is given, and the serial interface when
no write that takes anything follows on a frame that was cut short. -/
theorem senders_whole_iff (connected : Bool) :
    (∀ kissFraming events,
      Runs.Always (fun s e => some (Tcp.send kissFraming s e))
        (Sender.Whole (Tcp.frame kissFraming)) (Sender.start connected) events) ∧
    (∀ events,
      (Runs.Always (fun s e => some (Backbone.send s e)) (Sender.Whole Hdlc.frame)
          (Sender.start connected) events ↔
        Runs.Meets (fun s e => some (Backbone.send s e)) Backbone.Accepts
          (Sender.start connected) events)) ∧
    (∀ events,
      (Runs.Always (fun s e => some (Local.send s e)) (Sender.Whole Hdlc.frame)
          (Sender.start connected) events ↔
        Runs.Meets (fun s e => some (Local.send s e)) Local.Accepts
          (Sender.start connected) events)) ∧
    ∀ events,
      Runs.Meets (fun s e => some (Serial.send s e)) Serial.Accepts (Sender.start connected)
          events →
        Runs.Always (fun s e => some (Serial.send s e)) (Sender.Whole Hdlc.frame)
          (Sender.start connected) events := by
  refine ⟨fun kissFraming events => ?_, fun events => ?_, fun events => ?_, fun events h => ?_⟩
  · intro done s _ hrun
    have hkept : s.Kept (Tcp.frame kissFraming) :=
      Runs.invariant_of_step (P := Sender.Kept (Tcp.frame kissFraming))
        (fun s e s' hs hstep => Option.some.inj hstep ▸ Tcp.kept_send kissFraming hs e)
        (Sender.kept_start connected) hrun
    exact hkept.whole
  · exact Runs.always_iff_meets (I := Backbone.Kept) (fun s hs => hs.whole)
      (fun s e s' hs hok hstep => Option.some.inj hstep ▸ Backbone.kept_send hs hok)
      (fun s e s' hs hok hstep => Option.some.inj hstep ▸ Backbone.not_whole_send hs hok)
      (Backbone.kept_start connected) events
  · exact Runs.always_iff_meets (I := Sender.Kept Hdlc.frame) (fun s hs => hs.whole)
      (fun s e s' hs hok hstep => Option.some.inj hstep ▸ Local.kept_send hs hok)
      (fun s e s' hs hok hstep => Option.some.inj hstep ▸ Local.not_whole_send hs hok)
      (Sender.kept_start connected) events
  · exact Runs.always_of_meets
      (fun s e s' hs hok hstep => Option.some.inj hstep ▸ Serial.whole_send hs hok)
      (Sender.kept_start connected).whole h

/-- A write that failed, and one that took everything. -/
theorem senders_whole_iff_two :
    Runs.Always (fun s e => some (Backbone.send s e)) (Sender.Whole Hdlc.frame)
        (Sender.start true) [.outgoing [1] (.accepts 3), .outgoing [2] (.fails "broken pipe")] ∧
      Runs.Always (fun s e => some (Local.send s e)) (Sender.Whole Hdlc.frame)
        (Sender.start true) [.outgoing [1] (.fails "broken pipe"), .outgoing [2] (.accepts 3)] ∧
      Runs.Always (fun s e => some (Serial.send s e)) (Sender.Whole Hdlc.frame)
        (Sender.start true) [.outgoing [1] (.accepts 3), .outgoing [2] (.accepts 2)] := by
  obtain ⟨-, hbackbone, hlocal, hserial⟩ := senders_whole_iff true
  refine ⟨(hbackbone _).mpr ?_, (hlocal _).mpr ?_, hserial _ ?_⟩
  · intro s hs
    exact ⟨fun _ _ => by decide, fun _ _ => ⟨True.intro, True.intro⟩⟩
  · intro s hs
    exact ⟨True.intro, fun _ _ => ⟨fun _ _ => by decide, True.intro⟩⟩
  · intro s hs
    refine ⟨fun _ c hc => ?_, fun m hm => ⟨fun _ c hc => ?_, True.intro⟩⟩
    · obtain rfl := Option.some.inj hc
      exact .inr Connection.exact_opened
    · obtain rfl := Option.some.inj hs
      obtain rfl := Option.some.inj hc
      exact .inr (Connection.exact_opened.sent [1])

/-- Backbone and the local interface say `Ok` after one byte of a frame; the serial interface sends a
frame behind the first two bytes of another. -/
theorem senders_whole_false :
    ¬Runs.Always (fun s e => some (Backbone.send s e)) (Sender.Whole Hdlc.frame)
        (Sender.start true) [.outgoing [1] (.accepts 1)] ∧
      ¬Runs.Always (fun s e => some (Local.send s e)) (Sender.Whole Hdlc.frame)
        (Sender.start true) [.outgoing [1] (.accepts 1)] ∧
      ¬Runs.Always (fun s e => some (Serial.send s e)) (Sender.Whole Hdlc.frame)
        (Sender.start true) [.outgoing [1] (.accepts 2), .outgoing [2] (.accepts 3)] := by
  refine ⟨fun h => ?_, fun h => ?_, fun h => ?_⟩
  · refine Backbone.not_whole_send (Backbone.kept_start true) (e := .outgoing [1] (.accepts 1))
      (fun hok => ?_) (h _ _ List.prefix_rfl rfl)
    exact absurd (hok rfl rfl) (by decide)
  · refine Local.not_whole_send (Sender.kept_start true) (e := .outgoing [1] (.accepts 1))
      (fun hok => ?_) (h _ _ List.prefix_rfl rfl)
    exact absurd (hok rfl (Option.some_ne_none _)) (by decide)
  · obtain ⟨sent, cut, hpromised, hsent, hwire, -⟩ := (h _ _ List.prefix_rfl rfl).2 _ rfl
    have hmem : sent ∈ [[], [[1]], [[2]], [[1], [2]]] := List.mem_sublists.mpr hsent
    have hlonger : [[2]].Sublist sent := hpromised
    have hbytes : [0x7E, 1, 0x7E, 2, 0x7E] = sent.flatMap Hdlc.frame ++ cut := hwire
    simp only [List.mem_cons, List.not_mem_nil, or_false] at hmem
    rcases hmem with rfl | rfl | rfl | rfl
    · exact absurd hlonger (by decide)
    · exact absurd hlonger (by decide)
    · have hframe : [[2]].flatMap Hdlc.frame = [0x7E, 2, 0x7E] := by decide
      rw [hframe] at hbytes
      simp at hbytes
    · have hsix : ([[1], [2]].flatMap Hdlc.frame).length = 6 := by decide
      have hlength := congrArg List.length hbytes
      rw [List.length_append, hsix] at hlength
      simp at hlength
      omega

end Reticulum.Interfaces
