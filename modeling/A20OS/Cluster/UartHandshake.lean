import A20OS.Cluster.UartLink

/-!
When a UART link is up, and what it lets through.

A handler leaves state, missed pings and upcalls alone, takes the link down, brings it up,
counts a missed ping, or hands a frame up (`Move`). Only an accepted HELLO or HELLO_ACK brings
a link up.

Two checks go wrong. `uart_validate_hello` clears its flag for a reserved id at every byte, so
ids of all zeros and all ones pass (`reservedId_eq_false`). And `uart_on_frame` hands data
frames up in every state. `fits` says that a frame is not one of these two kinds.
-/

namespace A20OS.Cluster.UartLink

open Lib Option

variable {pf : Platform} {l l' : UartLink} {frame : List Byte} {env : UartEnv} {greeted up : Prop}
  {l₁ : UartLink}

/-- UP or SUSPECT. -/
def Live (l : UartLink) : Prop := l.state = .up ∨ l.state = .suspect

instance (l : UartLink) : Decidable l.Live := by
  unfold Live; infer_instance

/-- Fewer than three pings are missed in UP, and fewer than six in SUSPECT. -/
def Patient (l : UartLink) : Prop :=
  (l.state = .up → l.pingsMissed < 3) ∧ (l.state = .suspect → l.pingsMissed < 6)

/-- The identity checks that a HELLO or HELLO_ACK has to pass. -/
structure Identified (l : UartLink) (frame : List Byte) : Prop where
  type : (Header.read frame).type = typeHello ∨ (Header.read frame).type = typeHelloAck
  hash : (Header.read frame).srcHash = nodeHash (Hello.read (framePayload frame)).nodeId
  notZero : (Hello.read (framePayload frame)).nodeId ≠ .replicate 16 0x00
  notOnes : (Hello.read (framePayload frame)).nodeId ≠ .replicate 16 0xFF
  notSelf : (Hello.read (framePayload frame)).nodeId ≠ l.selfNodeId
  caps : (Hello.read (framePayload frame)).caps &&& ~~~capsKnown = 0
  proto : ∃ v, v = wireVer ∧ (Hello.read (framePayload frame)).protoMin ≤ v ∧
    v ≤ (Hello.read (framePayload frame)).protoMax

/-! ### The condition -/

/-- The id is one of the two reserved ones. -/
def isReserved (id : NodeId) : Prop := id = .replicate 16 0x00 ∨ id = .replicate 16 0xFF

instance (id : NodeId) : Decidable (isReserved id) := by
  unfold isReserved; infer_instance

/-- The frame is one that goes to the cluster core. -/
def goesUp (frame : List Byte) (env : UartEnv) : Prop :=
  screenFrame frame = .ok ∧ (Header.read frame).flags &&& flagsRefused = 0 ∧
    (Header.read frame).ver = wireVer ∧ isData (Header.read frame).type ∧ env.attached = true

instance (frame : List Byte) (env : UartEnv) : Decidable (goesUp frame env) := by
  unfold goesUp; infer_instance

/-- What the environment does during a step. -/
def Label.during : Label → UartEnv
  | .byte _ _ env => env
  | .silence _ => {}
  | .tick _ env => env

/-- No HELLO or HELLO_ACK with a reserved id, and no data frame unless the link is up. -/
def fits (l : UartLink) (a : Label) : Prop :=
  ∀ frame ∈ l.arrives a,
    (((Header.read frame).type = typeHello ∨ (Header.read frame).type = typeHelloAck) →
      ¬isReserved (Hello.read (framePayload frame)).nodeId) ∧
    (goesUp frame a.during → l.Live)

instance (l : UartLink) (a : Label) : Decidable (l.fits a) := by
  unfold fits; infer_instance

/-! ### The handshake -/

/-- No byte is 0x00 and 0xFF at once: the loop finds no id reserved. -/
theorem reservedId_eq_false (id : NodeId) : reservedId id = false := by
  have first : id.toList ≠ [] := by
    intro empty
    have := congrArg List.length empty
    simp at this
  obtain ⟨b, rest, bytes⟩ := List.exists_cons_of_ne_nil first
  unfold reservedId
  rw [bytes, List.all_cons, Bool.and_eq_false_iff]
  left
  simp only [decide_eq_false_iff_not]
  rintro ⟨zero, ones⟩
  rw [zero] at ones
  exact absurd ones (by decide)

/-- What an accepted HELLO has passed: all but the check for a reserved id. -/
theorem validateHello_ok (ok : l.validateHello frame = .ok)
    (type : (Header.read frame).type = typeHello ∨ (Header.read frame).type = typeHelloAck)
    (real : ¬isReserved (Hello.read (framePayload frame)).nodeId) : Identified l frame := by
  unfold validateHello at ok
  simp only [reservedId_eq_false] at ok
  repeat' split at ok
  all_goals cases ok
  next hash self _ caps _ proto =>
    have least : (Hello.read (framePayload frame)).protoMin = wireVer := by
      simpa [wireVer] using proto
    refine ⟨type, not_not.mp hash, fun zero => real (.inl zero), fun ones => real (.inr ones),
      fun same => self (.inr same), not_not.mp caps, wireVer, rfl, least ▸ BitVec.le_refl _,
      Nat.zero_le _⟩

/-! ### What a step does -/

/-- An accepted HELLO or HELLO_ACK arrives. -/
def Greeted (l : UartLink) (frame : List Byte) : Prop :=
  ((Header.read frame).type = typeHello ∨ (Header.read frame).type = typeHelloAck) ∧
    l.validateHello frame = .ok

/-- How a handler may change a link; `greeted` and `up` say when it may bring the link up
and when it may hand a frame up. -/
inductive Move (greeted up : Prop) (l l' : UartLink) : Prop
  | stays (state : l'.state = l.state) (pings : l'.pingsMissed = l.pingsMissed)
      (upcalls : l'.upcalls = l.upcalls)
  | falls (state : ¬l'.Live) (upcalls : l'.upcalls = l.upcalls)
  | rises (state : l'.state = .up) (pings : l'.pingsMissed = 0) (cause : l.Live ∨ greeted)
      (upcalls : l'.upcalls = l.upcalls)
  | misses (live : l.Live) (patient : l.Patient → l'.Patient) (upcalls : l'.upcalls = l.upcalls)
  | handsUp (state : l'.state = l.state) (pings : l'.pingsMissed = l.pingsMissed) (cause : up)
      (upcalls : ∃ nextHop frame, l'.upcalls = l.upcalls ++ [⟨nextHop, frame, l.state⟩])

/-- Counting, sending and a new nonce do not matter. -/
theorem Move.quiet {l₂ : UartLink} (move : Move greeted up l l₁) (state : l₂.state = l₁.state)
    (pings : l₂.pingsMissed = l₁.pingsMissed) (upcalls : l₂.upcalls = l₁.upcalls) :
    Move greeted up l l₂ := by
  cases move with
  | stays state' pings' upcalls' =>
    exact .stays (state.trans state') (pings.trans pings') (upcalls.trans upcalls')
  | falls state' upcalls' =>
    refine .falls ?_ (upcalls.trans upcalls')
    unfold Live
    rw [state]
    exact state'
  | rises state' pings' cause upcalls' =>
    exact .rises (state.trans state') (pings.trans pings') cause (upcalls.trans upcalls')
  | misses live patient upcalls' =>
    refine .misses live (fun before => ?_) (upcalls.trans upcalls')
    unfold Patient
    rw [state, pings]
    exact patient before
  | handsUp state' pings' cause upcalls' =>
    exact .handsUp (state.trans state') (pings.trans pings') cause (upcalls ▸ upcalls')

theorem Move.refl : Move greeted up l l := .stays rfl rfl rfl

theorem Move.linkOutput (move : Move greeted up l l₁) (frame : List Byte)
    (putc : Bool) : Move greeted up l (l₁.linkOutput frame putc) := by
  unfold UartLink.linkOutput
  split <;> exact move.quiet rfl rfl rfl

theorem Move.refuseHello (frame : List Byte) (env : UartEnv) :
    Move greeted up l (l.refuseHello frame env) := by
  have upcalls : (l.refuseHello frame env).upcalls = l.upcalls := by
    simp only [UartLink.refuseHello, sendHelloError, linkDown, UartLink.linkOutput]
    repeat' split
    all_goals rfl
  have state : (l.refuseHello frame env).state = .down := by
    simp only [UartLink.refuseHello, linkDown]
    split
    · rfl
    · next down => exact not_not.mp down
  exact .falls (by simp [Live, state]) upcalls

theorem onAckFrame_move (type : (Header.read frame).type = typeHelloAck) :
    Move (Greeted l frame) up l (l.onAckFrame frame env) := by
  unfold onAckFrame
  cases check : l.validateHello frame with
  | selfLoop => exact .stays rfl rfl rfl
  | invalid => exact Move.refuseHello frame env
  | ok =>
    dsimp only
    split
    · exact Move.refuseHello frame env
    · exact .rises rfl rfl (.inr ⟨.inr type, check⟩) rfl

theorem onHelloFrame_move (type : (Header.read frame).type = typeHello) :
    Move (Greeted l frame) up l (l.onHelloFrame pf frame env) := by
  unfold onHelloFrame
  cases check : l.validateHello frame with
  | selfLoop => exact .stays rfl rfl rfl
  | invalid => exact Move.refuseHello frame env
  | ok =>
    dsimp only
    split
    · exact .stays rfl rfl rfl
    by_cases answered : env.putc = true
    · rw [if_pos answered]
      refine .rises rfl rfl (.inr ⟨.inl type, check⟩) ?_
      simp [linkUp, UartLink.received, UartLink.linkOutput, answered]
    · refine .stays ?_ ?_ ?_
      all_goals simp [UartLink.received, UartLink.linkOutput, answered]

theorem onPing_move : Move greeted up l (l.onPing frame env) := by
  unfold onPing
  dsimp only
  split
  · exact .stays rfl rfl rfl
  split
  · exact .stays rfl rfl rfl
  split
  · exact Move.refl
  split
  · exact (Move.refl.linkOutput _ _).quiet rfl rfl rfl
  · exact Move.refl.linkOutput _ _

theorem onPong_move : Move greeted up l (l.onPong pf frame env) := by
  unfold onPong
  dsimp only
  split
  · exact .stays rfl rfl rfl
  next inside =>
  have live : l.Live := by
    tauto
  split
  · exact .stays rfl rfl rfl
  split
  · exact .stays rfl rfl rfl
  · refine .rises ?_ rfl (.inl live) rfl
    rcases live with isUp | isSuspect
    · simp [UartLink.received, isUp]
    · simp [UartLink.received, isSuspect]

theorem onFrame_move (pf : Platform) (l : UartLink) (frame : List Byte) (env : UartEnv) :
    Move (Greeted l frame) (goesUp frame env) l (l.onFrame pf frame env) := by
  unfold onFrame
  cases screen : screenFrame frame with
  | malformed | drop => exact .stays rfl rfl rfl
  | ok =>
    dsimp only
    split
    · exact .stays rfl rfl rfl
    next flags =>
    split
    · exact .stays rfl rfl rfl
    next version =>
    split
    · next type => exact onHelloFrame_move type
    next notHello =>
    split
    · next type => exact onAckFrame_move type
    next notAck =>
    split
    · exact onPing_move
    split
    · exact onPong_move
    split
    · exact .stays rfl rfl rfl
    split
    · next data =>
      split
      · next attached =>
        have ver : (Header.read frame).ver = wireVer := by
          by_contra other
          exact version ⟨notHello, notAck, other⟩
        exact .handsUp rfl rfl ⟨screen, not_not.mp flags, ver, data, attached⟩ ⟨_, _, rfl⟩
      · exact .stays rfl rfl rfl
    · exact .stays rfl rfl rfl

/-! ### The timers -/

theorem sendPing_fields (pf : Platform) (l : UartLink) (now : Ticks) (env : UartEnv) :
    (l.sendPing pf now env).state = l.state ∧
      (l.sendPing pf now env).pingsMissed = l.pingsMissed ∧
      (l.sendPing pf now env).upcalls = l.upcalls := by
  unfold sendPing
  split
  · exact ⟨rfl, rfl, rfl⟩
  · unfold linkOutput
    split <;> exact ⟨rfl, rfl, rfl⟩

theorem sendHello_move (off : ¬l₁.Live) (upcalls : l₁.upcalls = l.upcalls) (now : Ticks)
    (env : UartEnv) : Move greeted up l (l₁.sendHello pf now env) := by
  unfold sendHello
  dsimp only
  split
  · exact .falls (by simpa [Live] using off) upcalls
  refine .falls ?_ ?_
  · unfold linkOutput
    split
    all_goals simp [Live]
  · unfold linkOutput
    split
    all_goals exact upcalls

theorem linkDown_move (upcalls : l₁.upcalls = l.upcalls)
    (now : Ticks) : Move greeted up l (l₁.linkDown now) := by
  unfold linkDown
  by_cases down : l₁.state ≠ .down
  · rw [if_pos down]
    exact .falls (by simp [Live]) upcalls
  · rw [if_neg down]
    exact .falls (by simp [Live, not_not.mp down]) upcalls

theorem retryHello_move (off : ¬l.Live) (now : Ticks) :
    Move greeted up l (l.retryHello pf now env) := by
  unfold retryHello
  dsimp only
  split
  · apply linkDown_move
    rfl
  · apply sendHello_move
    · simpa [Live] using off
    · rfl

/-- A missed ping is counted up to three in UP, which ends it, and up to six in SUSPECT. -/
theorem missPing_move (live : l.Live) (now : Ticks) :
    Move greeted up l (l.missPing pf now env) := by
  unfold missPing
  dsimp only
  split
  · apply linkDown_move
    rfl
  next few =>
  have few : l.pingsMissed + 1 < 6 := by simpa [uartHelloRetries] using few
  split
  · obtain ⟨state, pings, upcalls⟩ := sendPing_fields pf
      { l with pingsMissed := l.pingsMissed + 1, state := .suspect } now env
    refine .misses live (fun _ => ?_) upcalls
    rw [Patient, state, pings]
    exact ⟨nofun, fun _ => few⟩
  · next stays =>
    obtain ⟨state, pings, upcalls⟩ := sendPing_fields pf
      { l with pingsMissed := l.pingsMissed + 1 } now env
    refine .misses live (fun _ => ?_) upcalls
    rw [Patient, state, pings]
    refine ⟨fun isUp => ?_, fun _ => few⟩
    have stays : ¬(l.state = .up ∧ l.pingsMissed + 1 ≥ uartHelloRetries) := stays
    simpa [uartHelloRetries] using fun many => stays ⟨isUp, many⟩

theorem tick_move (now : Ticks) : Move greeted up l (l.tick pf now env) := by
  obtain ⟨state, pings, upcalls⟩ := sendPing_fields pf l now env
  unfold tick
  split
  · next down =>
    split
    · exact sendHello_move (by simp [Live, down]) rfl now env
    · exact Move.refl
  · next sent =>
    split
    · exact Move.refl
    · exact retryHello_move (by simp [Live, sent]) now
  · next notDown notSent =>
    have live : l.Live := by
      unfold Live
      cases at' : l.state with
      | down => exact absurd at' notDown
      | helloSent => exact absurd at' notSent
      | up => exact .inl rfl
      | suspect => exact .inr rfl
    split
    · exact Move.refl
    split
    · exact missPing_move live now
    · exact .stays state pings upcalls

/-! ### Runs -/

/-- The decoder does not matter to a handler. -/
theorem Move.rx {rx : SlipRx} {greeted' up' : Prop} (move : Move greeted up { l with rx } l')
    (first : greeted → greeted') (second : up → up') : Move greeted' up' l l' := by
  cases move with
  | stays state pings upcalls => exact .stays state pings upcalls
  | falls state upcalls => exact .falls state upcalls
  | rises state pings cause upcalls => exact .rises state pings (cause.imp_right first) upcalls
  | misses live patient upcalls => exact .misses live patient upcalls
  | handsUp state pings cause upcalls => exact .handsUp state pings (second cause) upcalls

theorem step_move {a : Label} (taken : l.step pf a = some l') :
    Move (∃ frame ∈ l.arrives a, Greeted l frame) (∃ frame ∈ l.arrives a, goesUp frame a.during)
      l l' := by
  cases a with
  | byte b now env =>
    obtain rfl := some.inj taken
    rcases decoded : l.rx.rxByte b now with ⟨rx, _ | _ | _⟩
    · have move := onFrame_move pf { l with rx } rx.buf env
      simp only [rxByte, arrives, decoded]
      exact move.rx (fun greeted => ⟨rx.buf, rfl, greeted⟩) (fun goes => ⟨rx.buf, rfl, goes⟩)
    · simp only [rxByte, decoded]
      exact .stays rfl rfl rfl
    · simp only [rxByte, decoded]
      exact .stays rfl rfl rfl
  | silence now =>
    rcases timed : l.rx.timeout now with ⟨rx, _ | _⟩
    all_goals
      simp only [step, timed] at taken
      obtain rfl := some.inj taken
      exact .stays rfl rfl rfl
  | tick now env =>
    obtain rfl := some.inj taken
    exact tick_move now

theorem Move.patient (move : Move greeted up l l') (before : l.Patient) : l'.Patient := by
  cases move with
  | stays state pings _ | handsUp state pings _ _ =>
    rw [Patient, state, pings]
    exact before
  | falls state _ =>
    exact ⟨fun isUp => absurd (.inl isUp) state, fun isSuspect => absurd (.inr isSuspect) state⟩
  | rises state pings _ _ =>
    rw [Patient, state, pings]
    exact ⟨fun _ => by decide, nofun⟩
  | misses _ patient _ => exact patient before

theorem Move.live (move : Move greeted up l l') (now : l'.Live) : l.Live ∨ greeted := by
  cases move with
  | stays state _ _ | handsUp state _ _ _ => exact .inl (by rwa [Live, state] at now)
  | falls state _ => exact absurd now state
  | rises _ _ cause _ => exact cause
  | misses live _ _ => exact .inl live

/-- All frames the core was handed came while the link was up. -/
def Guarded (l : UartLink) : Prop := ∀ u ∈ l.upcalls, u.state = .up ∨ u.state = .suspect

theorem Move.guarded (move : Move greeted up l l') (allowed : up → l.Live)
    (before : l.Guarded) : l'.Guarded := by
  cases move with
  | stays _ _ upcalls | falls _ upcalls | rises _ _ _ upcalls | misses _ _ upcalls =>
    rwa [Guarded, upcalls]
  | handsUp _ _ cause upcalls =>
    obtain ⟨nextHop, frame, upcalls⟩ := upcalls
    intro u mem
    rw [upcalls, List.mem_append, List.mem_singleton] at mem
    rcases mem with old | rfl
    · exact before u old
    · exact allowed cause

/-- In every run in which no reserved id greets and no data frame comes while the link is
off, a link that is up has been greeted by an identified node since it was last down, its
missed pings are below the bounds, and no frame went to the cluster core while it was
off. -/
theorem run_link {selfNodeId : NodeId} {assignedAddr : BitVec 16} {as : List Label}
    (run : execWhile (step pf) fits (register pf selfNodeId assignedAddr) as = some l) :
    (l.Live → ∃ xs a ys l₁ l₂ frame, as = xs ++ a :: ys ∧
      exec (step pf) (register pf selfNodeId assignedAddr) xs = some l₁ ∧
      frame ∈ l₁.arrives a ∧ Identified l₁ frame ∧ l₁.step pf a = some l₂ ∧
      ∀ zs l', zs <+: ys → exec (step pf) l₂ zs = some l' → l'.Live) ∧
    (l.state = .up → l.pingsMissed < 3) ∧ (l.state = .suspect → l.pingsMissed < 6) ∧
    ∀ u ∈ l.upcalls, u.state = .up ∨ u.state = .suspect := by
  have reached := execWhile_runsTo run
  have patient : l.Patient :=
    reached.invariant (fun before _ taken => (step_move taken).patient before) ⟨nofun, nofun⟩
  have guarded : l.Guarded := by
    refine reached.invariant (fun before meets taken => (step_move taken).guarded ?_ before) nofun
    rintro ⟨frame, arrived, goes⟩
    exact (meets frame arrived).2 goes
  refine ⟨fun live => ?_, patient.1, patient.2, guarded⟩
  rcases execWhile_since (P := Live) (fun taken live => (step_move taken).live live) run live with
    all | ⟨xs, a, ys, l₁, l₂, split, first, meets, ⟨frame, arrived, type, ok⟩, taken, after⟩
  · -- a link is not up when it is registered
    have start := all [] _ List.nil_prefix rfl
    simp [Live, register] at start
  · have real := (meets frame arrived).1 type
    exact ⟨xs, a, ys, l₁, l₂, frame, split, first, arrived, validateHello_ok ok type real, taken,
      after⟩

/-! ### Examples -/

/-- A frame as it comes in, byte by byte. -/
def incoming (frame : Option (List Byte)) : List Label :=
  ((frame.bind fun frame => slipEncode frame 600).getD []).map fun b => .byte b 0 {}

/-- A leaf with the id answers a HELLO. -/
def helloAckFrom (id : NodeId) : Option (List Byte) :=
  uartBuildFrame 320 typeHelloAck 0 0 0 (nodeHash id) 0 0
    (buildHelloPayload id wireVer wireVer tierMcu capLeaf 5 9) 32

/-- A CALL with one byte of payload. -/
def smallCall : Option (List Byte) := uartBuildFrame 320 typeCall 0 0 1 2 3 4 [7] 1

def board : Platform := ⟨1000, 2⟩
def headId : NodeId := .replicate 16 1
def leafId : NodeId := .replicate 16 2

theorem run_link_call :
    ∃ l, execWhile (step board) fits (register board headId 5)
        (incoming (helloAckFrom leafId) ++ incoming smallCall) = some l ∧
      l.pingsMissed < 3 ∧ l.upcalls.length = 1 ∧
      ∀ u ∈ l.upcalls, u.state = .up ∨ u.state = .suspect := by
  obtain ⟨l, run, up, calls⟩ : ∃ l, execWhile (step board) fits (register board headId 5)
      (incoming (helloAckFrom leafId) ++ incoming smallCall) = some l ∧
      l.state = .up ∧ l.upcalls.length = 1 :=
    eq_some_of_any (by decide +kernel)
  obtain ⟨-, pings, -, guarded⟩ := run_link run
  exact ⟨l, run, pings up, calls, guarded⟩

/-- The frames that arrive in a run. -/
def arrivals (pf : Platform) : UartLink → List Label → List (List Byte)
  | _, [] => []
  | l, a :: as => (l.arrives a).toList ++ ((l.step pf a).map fun l => arrivals pf l as).getD []

/-- A HELLO_ACK from the id of all zeros brings the link up, and a link that is down hands a
CALL to the cluster core. -/
theorem reserved_id_and_early_call :
    (∃ l frame, exec (step board) (register board headId 5)
        (incoming (helloAckFrom (.replicate 16 0))) = some l ∧ l.state = .up ∧
      arrivals board (register board headId 5) (incoming (helloAckFrom (.replicate 16 0))) =
        [frame] ∧ (Hello.read (framePayload frame)).nodeId = .replicate 16 0) ∧
    ∃ l, exec (step board) (register board headId 5) (incoming smallCall) = some l ∧
      l.upcalls.map (·.state) = [.down] := by
  constructor
  · obtain ⟨l, run, state⟩ : ∃ l, exec (step board) (register board headId 5)
        (incoming (helloAckFrom (.replicate 16 0))) = some l ∧ l.state = .up :=
      map_eq_some_iff.mp (by decide +kernel)
    refine ⟨l, (helloAckFrom (.replicate 16 0)).getD [], run, state, ?_, ?_⟩ <;> decide +kernel
  · exact map_eq_some_iff.mp (by decide +kernel)

end A20OS.Cluster.UartLink
