import A20OS.Cluster.UartWire

/-!
The head-node end of a UART link (`kernel/cluster/uart.c`): DOWN, HELLO_SENT, UP, SUSPECT.

`a20_clx_uart_poll_link` is a sequence of the steps at the end of this module: one for each
byte, one for silence inside a frame, one for the timers. What the driver and the clock do
comes with the step. A link keeps what it put on the wire, reported as link events and handed
to the cluster core, the last with the state it was in.
-/

namespace A20OS.Cluster

open Lib

/-! ### Data -/

/-- `A20_CLX_UART_L_*`. -/
inductive LinkState where
  | down | helloSent | up | suspect
deriving DecidableEq, Repr

/-- A call of the receive handler of the cluster core. -/
structure Upcall where
  nextHop : BitVec 16
  frame : List Byte
  state : LinkState

/-- `TICKS_PER_SEC` and `CONFIG_CLUSTER_PROFILE`. -/
structure Platform where
  ticksPerSec : Ticks
  profile : BitVec 8

/-- `a20_clx_uart_link_t`. -/
structure UartLink where
  selfNodeId : NodeId
  assignedAddr : BitVec 16
  rx : SlipRx
  peerAddr : BitVec 16 := 0
  state : LinkState := .down
  helloRetries : BitVec 8 := 0
  pingsMissed : BitVec 8 := 0
  awaitingPong : Bool := false
  helloSentTicks : Ticks := 0
  lastPingTicks : Ticks := 0
  nonce : BitVec 64 := 0
  peerNodeId : NodeId := .replicate 16 0
  rttUs : BitVec 32 := 0
  c : LinkCounters := {}
  sent : List (List Byte) := []
  events : List Bool := []
  upcalls : List Upcall := []

/-- What the environment does while a frame or the timers are handled: whether the driver
takes all bytes of a frame, whether a receive handler is attached, and the clock, read for
the nonce and for the link. -/
structure UartEnv where
  putc : Bool := true
  attached : Bool := true
  nonceTicks : Ticks := 0
  ticks : Ticks := 0

/-- The result of `uart_validate_hello`: `-EINVAL`, `-ENOENT`, or zero. -/
inductive HelloCheck where
  | invalid | selfLoop | ok
deriving DecidableEq, Repr

namespace UartLink

variable (l : UartLink)

/-- `uart_now_us`. -/
def nowUs (pf : Platform) (ticks : Ticks) : BitVec 64 := ticks * 1000000 / pf.ticksPerSec

/-! ### Sending -/

/-- `uart_link_output`. -/
def linkOutput (frame : List Byte) (putc : Bool) : UartLink :=
  if putc then
    { l with c := { l.c with txFrames := l.c.txFrames + 1 }, sent := l.sent ++ [frame] }
  else { l with c := { l.c with txDrops := l.c.txDrops + 1 } }

def helloPayload (pf : Platform) (nonce : BitVec 64) : List Byte :=
  buildHelloPayload l.selfNodeId wireVer wireVer pf.profile capRelay l.assignedAddr nonce

/-- `uart_send_hello`. -/
def sendHello (pf : Platform) (now : Ticks) (env : UartEnv) : UartLink :=
  let nonce := nextNonce l.nonce env.nonceTicks
  let l := { l with nonce }
  match uartBuildFrame (hdrLen + helloLen + crcLen) typeHello 0 0 0 (nodeHash l.selfNodeId) 0 0
      (l.helloPayload pf nonce) (.ofNat 16 helloLen) with
  | none => l
  | some frame => { l with state := .helloSent, helloSentTicks := now }.linkOutput frame env.putc

/-- `uart_send_hello_error`. -/
def sendHelloError (txid : BitVec 32) (putc : Bool) : UartLink :=
  match uartBuildFrame (hdrLen + 8 + crcLen) typeError 0 0 0 (nodeHash l.selfNodeId)
      (nodeHash l.peerNodeId) 0
      (leBytes 4 werrClusterUnsupported.toNat ++ leBytes 4 txid.toNat) 8 with
  | none => l
  | some frame => l.linkOutput frame putc

/-! ### Transitions -/

/-- `uart_link_down`. -/
def linkDown (now : Ticks) : UartLink :=
  if l.state ≠ .down then
    { l with
      state := .down
      awaitingPong := false
      pingsMissed := 0
      helloRetries := 0
      helloSentTicks := now
      events := l.events ++ [false] }
  else l

/-- `uart_link_up`. -/
def linkUp (peerAddr : BitVec 16) (peerNodeId : NodeId) (now : Ticks) : UartLink :=
  { l with
    peerAddr
    peerNodeId
    state := .up
    pingsMissed := 0
    awaitingPong := false
    lastPingTicks := now
    events := if l.state ≠ .up ∧ l.state ≠ .suspect then l.events ++ [true] else l.events }

/-! ### Handshake -/

/-- The loop of `uart_validate_hello` that looks for a reserved id: a byte other than 0x00
clears the flag, and so does a byte other than 0xFF. -/
def reservedId (id : NodeId) : Bool := id.toList.all fun b => b = 0x00 ∧ b = 0xFF

/-- `uart_validate_hello`. -/
def validateHello (frame : List Byte) : HelloCheck :=
  let h := Header.read frame
  let hello := Hello.read (framePayload frame)
  if h.ver ≠ wireVer then .invalid
  else if h.payloadLen ≠ .ofNat 16 helloLen then .invalid
  else if h.srcHash ≠ nodeHash hello.nodeId then .invalid
  else if reservedId hello.nodeId ∨ hello.nodeId = l.selfNodeId then .invalid
  else if hello.nonce = l.nonce then .selfLoop
  else if hello.caps &&& ~~~capsKnown ≠ 0 then .invalid
  else if hello.tier = tierMcu ∧ hello.caps &&& capRelay ≠ 0 then .invalid
  else if hello.protoMin > wireVer then .invalid
  else .ok

/-- A HELLO or HELLO_ACK is refused, with an ERROR and the link down. -/
def refuseHello (frame : List Byte) (env : UartEnv) : UartLink :=
  let l := { l with c := { l.c with helloRejects := l.c.helloRejects + 1 } }
  (l.sendHelloError (Header.read frame).txid env.putc).linkDown env.ticks

/-- The self-loop case, refused without an ERROR. -/
def refuseSelfLoop : UartLink :=
  { l with c := { l.c with helloRejects := l.c.helloRejects + 1 } }

def received : UartLink := { l with c := { l.c with rxFrames := l.c.rxFrames + 1 } }
def dropped : UartLink := { l with c := { l.c with rxDrops := l.c.rxDrops + 1 } }
def malformed : UartLink := { l with c := { l.c with rxMalformed := l.c.rxMalformed + 1 } }

/-- `uart_on_ack_frame`. -/
def onAckFrame (frame : List Byte) (env : UartEnv) : UartLink :=
  let hello := Hello.read (framePayload frame)
  match l.validateHello frame with
  | .selfLoop => l.refuseSelfLoop
  | .invalid => l.refuseHello frame env
  | .ok =>
      if hello.shortAddr = shortUnassigned then l.refuseHello frame env
      else (l.linkUp hello.shortAddr hello.nodeId env.ticks).received

/-- `uart_on_hello_frame`. -/
def onHelloFrame (pf : Platform) (frame : List Byte) (env : UartEnv) : UartLink :=
  let hello := Hello.read (framePayload frame)
  match l.validateHello frame with
  | .selfLoop => l.refuseSelfLoop
  | .invalid => l.refuseHello frame env
  | .ok =>
      let shortAddr :=
        if hello.shortAddr = shortUnassigned then l.assignedAddr else hello.shortAddr
      let nonce := nextNonce l.nonce env.nonceTicks
      let l := { l with nonce }
      match uartBuildFrame (hdrLen + helloLen + crcLen) typeHelloAck 0 0 0 (nodeHash l.selfNodeId)
          (nodeHash hello.nodeId) 0 (l.helloPayload pf nonce) (.ofNat 16 helloLen) with
      | none => { l with c := { l.c with txDrops := l.c.txDrops + 1 } }
      | some ack =>
          let l := l.linkOutput ack env.putc
          (if env.putc then l.linkUp shortAddr hello.nodeId env.ticks else l).received

/-! ### Heartbeat -/

/-- `uart_on_ping`. -/
def onPing (frame : List Byte) (env : UartEnv) : UartLink :=
  let h := Header.read frame
  if l.state ≠ .up ∧ l.state ≠ .suspect then l.dropped
  else if h.payloadLen ≠ 8 ∨ h.srcHash ≠ nodeHash l.peerNodeId then l.dropped
  else
    match uartBuildFrame (hdrLen + 8 + crcLen) typePong 0 0 0 (nodeHash l.selfNodeId)
        (nodeHash l.peerNodeId) 0 (framePayload frame) 8 with
    | none => l
    | some pong => if env.putc then (l.linkOutput pong true).received else l.linkOutput pong false

/-- `uart_on_pong`. -/
def onPong (pf : Platform) (frame : List Byte) (env : UartEnv) : UartLink :=
  let h := Header.read frame
  let ts : BitVec 64 := .ofNat 64 (loadLE 8 (framePayload frame) 0)
  let now := nowUs pf env.ticks
  if l.state ≠ .up ∧ l.state ≠ .suspect then l.dropped
  else if h.payloadLen ≠ 8 ∨ h.srcHash ≠ nodeHash l.peerNodeId ∨ l.awaitingPong = false then
    l.dropped
  else if ts > now then l.dropped
  else
    -- a difference of 2^63 or more is negative as a signed number and counts as zero
    let sample : BitVec 64 := if (now - ts).msb then 0 else now - ts
    let l : UartLink :=
      { l with
        rttUs := ((l.rttUs.setWidth 64 * 7 + sample) / 8).setWidth 32
        awaitingPong := false
        pingsMissed := 0
        state := if l.state = .suspect then .up else l.state }
    l.received

/-! ### Receiving -/

/-- The data frames, which go to the cluster core. -/
def isData (type : BitVec 8) : Prop :=
  type = typeSend ∨ type = typeCall ∨ type = typeCallReply ∨ type = typeClose ∨ type = typeError

instance (type : BitVec 8) : Decidable (isData type) := by
  unfold isData; infer_instance

/-- `uart_on_frame`. -/
def onFrame (pf : Platform) (frame : List Byte) (env : UartEnv) : UartLink :=
  let h := Header.read frame
  match screenFrame frame with
  | .malformed => l.malformed
  | .drop => l.dropped
  | .ok =>
      if h.flags &&& flagsRefused ≠ 0 then l.dropped
      else if h.type ≠ typeHello ∧ h.type ≠ typeHelloAck ∧ h.ver ≠ wireVer then l.malformed
      else if h.type = typeHello then l.onHelloFrame pf frame env
      else if h.type = typeHelloAck then l.onAckFrame frame env
      else if h.type = typePing then l.onPing frame env
      else if h.type = typePong then l.onPong pf frame env
      else if h.type = typeAck ∨ h.type = typeNack then l.dropped
      else if isData h.type then
        if env.attached then
          { l.received with upcalls := l.upcalls ++ [⟨l.peerAddr, frame, l.state⟩] }
        else l.dropped
      else l.malformed

/-! ### Timers -/

/-- The PING that `uart_tick` sends; a missed answer has been counted before. -/
def sendPing (pf : Platform) (now : Ticks) (env : UartEnv) : UartLink :=
  match uartBuildFrame (hdrLen + 8 + crcLen) typePing 0 0 0 (nodeHash l.selfNodeId)
      (nodeHash l.peerNodeId) 0 (leBytes 8 (nowUs pf env.ticks).toNat) 8 with
  | none => { l with lastPingTicks := now }
  | some ping =>
      { l.linkOutput ping env.putc with
        awaitingPong := env.putc || l.awaitingPong
        lastPingTicks := now }

/-- A HELLO was not answered in time. -/
def retryHello (pf : Platform) (now : Ticks) (env : UartEnv) : UartLink :=
  let l := { l with helloRetries := l.helloRetries + 1 }
  if l.helloRetries ≥ uartHelloRetries then l.linkDown now else l.sendHello pf now env

/-- A PING was not answered in time. -/
def missPing (pf : Platform) (now : Ticks) (env : UartEnv) : UartLink :=
  let l := { l with pingsMissed := l.pingsMissed + 1 }
  if l.pingsMissed ≥ 2 * uartHelloRetries then l.linkDown now
  else if l.state = .up ∧ l.pingsMissed ≥ uartHelloRetries then
    { l with state := .suspect }.sendPing pf now env
  else l.sendPing pf now env

/-- `uart_tick`. -/
def tick (pf : Platform) (now : Ticks) (env : UartEnv) : UartLink :=
  match l.state with
  | .down =>
      if now - l.helloSentTicks ≥ msToTicks pf.ticksPerSec uartHelloTimeoutMs then
        l.sendHello pf now env
      else l
  | .helloSent =>
      if now - l.helloSentTicks < msToTicks pf.ticksPerSec uartHelloTimeoutMs then l
      else l.retryHello pf now env
  | _ =>
      if now - l.lastPingTicks < msToTicks pf.ticksPerSec uartPingPeriodMs then l
      else if l.awaitingPong then l.missPing pf now env
      else l.sendPing pf now env

/-! ### Steps -/

/-- `a20_clx_uart_link_register`. -/
def register (pf : Platform) (selfNodeId : NodeId) (assignedAddr : BitVec 16) : UartLink :=
  { selfNodeId, assignedAddr, rx := .init 512 (msToTicks pf.ticksPerSec uartInterbyteMs) }

inductive Label where
  | byte (b : Byte) (now : Ticks) (env : UartEnv)
  | silence (now : Ticks)
  | tick (now : Ticks) (env : UartEnv)

/-- One byte from the driver. -/
def rxByte (pf : Platform) (b : Byte) (now : Ticks) (env : UartEnv) : UartLink :=
  match l.rx.rxByte b now with
  | (rx, .frame) => { l with rx }.onFrame pf rx.buf env
  | (rx, .discarded) => { l with rx }.dropped
  | (rx, .consumed) => { l with rx }

def step (pf : Platform) (l : UartLink) : Label → Option UartLink
  | .byte b now env => some (l.rxByte pf b now env)
  | .silence now =>
      match l.rx.timeout now with
      | (rx, true) => some { l with rx }.dropped
      | (rx, false) => some { l with rx }
  | .tick now env => some (l.tick pf now env)

/-- The frame a step hands to `uart_on_frame`, if it completes one. -/
def arrives (l : UartLink) : Label → Option (List Byte)
  | .byte b now _ =>
      match l.rx.rxByte b now with
      | (rx, .frame) => some rx.buf
      | _ => none
  | _ => none

end UartLink

end A20OS.Cluster
