/-
# Frames between the bus and the hub

The agent sends what an interface receives up to the hub, and writes what the
hub injects to the bus. A frame the transport does not take is kept by the
platform, which hands the same frame to `Agent.onCanFrame` again until it is
taken.

An echo frame is labelled with the origin token the `EchoCorrelator` holds for
it. The agent takes the token out of the correlator before it knows whether the
transport takes the frame, so a refused echo loses its token; `retrySafe_iff`
says that this is the only case in which a refusal is not harmless.

The runner reaches the bus through the agent, which queues an echo entry for
each of its frames (`transmitTransactionFrame`). The runner never reads the
correlator, so its frames are entered from its log behind each operation.

A transport may lose the connection in the middle of a send and say so before it
returns (`Agent_OnDisconnected`). That is left out: here a send is taken or refused.
-/
import CanHub.Agent.Echo
import CanHub.Agent.Runner

namespace CanHub

inductive AgentState | disconnected | connecting | registering | running
deriving DecidableEq

/-- The channel of each registered interface, by interface index. -/
structure ChannelMap where
  channels : List UInt8 := []
  length_le : channels.length ≤ registerInterfacesMax := by decide

namespace ChannelMap

def channelForInterface (m : ChannelMap) (interfaceIndex : UInt8) : Option UInt8 :=
  m.channels[interfaceIndex.toNat]?

def interfaceForChannel (m : ChannelMap) (channel : UInt8) : Option UInt8 :=
  (m.channels.findIdx? (· == channel)).map UInt8.ofNat

end ChannelMap

structure Agent where
  state : AgentState := .disconnected
  channelMap : ChannelMap := {}
  echo : EchoCorrelator := {}
  transactions : TransactionRunner
  txDropped : ℕ → UInt64 := fun _ => 0

/-- What a call of `Agent_OnCanFrame` leaves: the agent, the value returned, and
what was handed to the transport. -/
structure Uplink where
  agent : Agent
  handled : Bool
  offered : Option (UInt8 × List UInt8)

namespace Agent

/-- The echo entries of the frames the runner offered to the bus: queued by
`transmitTransactionFrame` before the write, and dropped again when it fails. -/
def echoOutputs (echo : EchoCorrelator) : List RunnerOutput → EchoCorrelator
  | [] => echo
  | .transmit _ interfaceIndex f accepted :: outputs =>
    let pushed := echo.push interfaceIndex frameRouteNoToken f.canId
    echoOutputs (if accepted then pushed else pushed.dropNewest interfaceIndex) outputs
  | _ :: outputs => echoOutputs echo outputs

/-- The agent once its runner has become `r`. -/
def withTransactions (a : Agent) (r : TransactionRunner) : Agent :=
  { a with
    transactions := r
    echo := echoOutputs a.echo (r.port.log.drop a.transactions.port.log.length) }

/-- The route flags of a frame on its way up, and the correlator behind it. -/
def uplinkRoute (echo : EchoCorrelator) (interfaceIndex : UInt8) (f : FrameMessage) : EchoCorrelator × UInt8 :=
  if f.routeFlags &&& frameRouteFlagEcho ≠ 0 then
    let (echo, token) := echo.popMatch interfaceIndex f.canId
    (echo, frameRouteFlagEcho ||| token.elim 0 (· <<< frameRouteTokenShift))
  else (echo, 0)

/-- `Agent_OnCanFrame`; `accepts` is the transport's answer to `send_frame`. -/
def onCanFrame (a : Agent) (interfaceIndex : UInt8) (f : FrameMessage) (accepts : Bool) : Uplink :=
  if a.state ≠ .running then ⟨a, true, none⟩
  else
    match a.channelMap.channelForInterface interfaceIndex with
    | none => ⟨a, true, none⟩
    | some channel =>
      let (echo, routeFlags) := uplinkRoute a.echo interfaceIndex f
      let a := { a with echo }
      match { f with channel, routeFlags }.encode with
      | none => ⟨a, true, none⟩
      | some encoded =>
        ⟨if accepts then a.withTransactions (a.transactions.onFrame interfaceIndex f) else a, accepts,
          some (channel, encoded)⟩

/-- `injectFrame`; `written` is the bus's answer to `write_frame`. -/
def injectFrame (a : Agent) (f : FrameMessage) (written : Bool) : Agent :=
  match a.channelMap.interfaceForChannel f.channel with
  | none => a
  | some i =>
    let token := (f.routeFlags &&& frameRouteTokenMask) >>> frameRouteTokenShift
    let echo := a.echo.push i token f.canId
    if written then { a with echo }
    else
      { a with
        echo := echo.dropNewest i
        txDropped := fun j => if j = i.toNat then a.txDropped j + 1 else a.txDropped j }

/-- The correlator's part of an injection. -/
theorem injectFrame_echo (a : Agent) (f : FrameMessage) (written : Bool) :
    (a.injectFrame f written).echo = match a.channelMap.interfaceForChannel f.channel with
      | none => a.echo
      | some i => a.echo.inject i ((f.routeFlags &&& frameRouteTokenMask) >>> frameRouteTokenShift) f.canId written := by
  unfold injectFrame EchoCorrelator.inject
  cases a.channelMap.interfaceForChannel f.channel <;> cases written <;> rfl

/-! ### Transactions -/

/-- `handleTxnBegin`, and the acknowledgement it sends. -/
def handleTxnBegin (a : Agent) (b : TxnBeginMessage) (nowUs : ℕ) : Agent × Option TxnBeginAckMessage :=
  if a.state ≠ .running then (a, none)
  else
    match a.channelMap.interfaceForChannel b.channel with
    | some i =>
      let (r, ack) := a.transactions.begin b i nowUs
      (a.withTransactions r, some ack)
    | none => (a, some ⟨b.channel, TxnBeginStatus.invalid.code, 0, 0⟩)

def handleTxnAbort (a : Agent) (m : TxnAbortMessage) : Agent := a.withTransactions (a.transactions.abort m.txnId)

/-! ### Retrying a refused frame -/

/-- The agent after the platform offered the frame `n` times to a transport that refused it. -/
def refused (a : Agent) (interfaceIndex : UInt8) (f : FrameMessage) : ℕ → Agent
  | 0 => a
  | n + 1 => ((a.refused interfaceIndex f n).onCanFrame interfaceIndex f false).agent

/-- A refusal leaves the agent as it was, and after any number of them the frame
goes up as it would have the first time. -/
def RetrySafe (a : Agent) (i : UInt8) (f : FrameMessage) : Prop :=
  ((a.onCanFrame i f false).handled = false → (a.onCanFrame i f false).agent = a)
  ∧ ∀ n, (∀ k < n, ((a.refused i f k).onCanFrame i f false).handled = false) →
      (a.refused i f n).onCanFrame i f true = a.onCanFrame i f true

/-- The frame is an echo whose token the correlator holds. -/
def OwnEcho (echo : EchoCorrelator) (i : UInt8) (f : FrameMessage) : Prop :=
  f.routeFlags &&& frameRouteFlagEcho ≠ 0 ∧ ∃ e ∈ echo.pending i, e.canId = f.canId

theorem uplinkRoute_same {echo : EchoCorrelator} {i : UInt8} {f : FrameMessage} (h : ¬ OwnEcho echo i f) :
    (uplinkRoute echo i f).1 = echo := by
  unfold uplinkRoute
  split
  · rename_i hecho
    have hno : ∀ e ∈ echo.pending i, e.canId ≠ f.canId := fun e he hid => h ⟨hecho, e, he, hid⟩
    rw [EchoCorrelator.popMatch_none hno]
  · rfl

/-- The oldest entry with an identifier splits a queue that has one. -/
theorem exists_oldest {es : List EchoEntry} {canId : UInt32} (h : ∃ e ∈ es, e.canId = canId) :
    ∃ before e rest, es = before ++ e :: rest ∧ (∀ x ∈ before, x.canId ≠ canId) ∧ e.canId = canId := by
  have hfound : (es.find? (·.canId == canId)).isSome := by simpa using h
  obtain ⟨e, he⟩ := Option.isSome_iff_exists.mp hfound
  obtain ⟨hid, before, rest, rfl, hno⟩ := List.find?_eq_some_iff_append.mp he
  exact ⟨before, e, rest, rfl, fun x hx => by simpa using hno x hx, by simpa using hid⟩

theorem uplinkRoute_ne {echo : EchoCorrelator} {i : UInt8} {f : FrameMessage} (h : OwnEcho echo i f) :
    (uplinkRoute echo i f).1 ≠ echo := by
  obtain ⟨hecho, hpending⟩ := h
  obtain ⟨before, e, rest, hq, hno, hid⟩ := exists_oldest hpending
  obtain ⟨-, hrest⟩ := EchoCorrelator.popMatch_pending hq hno hid
  intro hsame
  unfold uplinkRoute at hsame
  rw [if_pos hecho] at hsame
  have hlen : rest.length = (echo.pending i).length := by rw [← hrest, show (echo.popMatch i f.canId).1 = echo from hsame]
  rw [hq] at hlen
  simp at hlen
  omega

/-- A frame that can go up at all: the agent runs, the interface has a channel and the length is valid. -/
def CanGoUp (a : Agent) (i : UInt8) (f : FrameMessage) : Prop :=
  a.state = .running ∧ (a.channelMap.channelForInterface i).isSome ∧ f.Valid

/-- The call returns false exactly when the transport refuses a frame that can go up. -/
theorem onCanFrame_refused (a : Agent) (i : UInt8) (f : FrameMessage) :
    (CanGoUp a i f ∧ (a.onCanFrame i f false).handled = false
      ∧ (a.onCanFrame i f false).agent = { a with echo := (uplinkRoute a.echo i f).1 })
    ∨ (¬ CanGoUp a i f ∧ (a.onCanFrame i f false).handled = true) := by
  unfold onCanFrame
  split
  · rename_i hs
    exact .inr ⟨fun h => hs h.1, rfl⟩
  rename_i hs
  split
  · rename_i hc
    exact .inr ⟨fun h => absurd h.2.1 (by rw [hc]; decide), rfl⟩
  rename_i channel hc
  dsimp only
  split
  · rename_i henc
    refine .inr ⟨fun h => ?_, rfl⟩
    have := (FrameMessage.encode_isSome { f with channel, routeFlags := (uplinkRoute a.echo i f).2 }).mpr h.2.2
    rw [henc] at this
    cases this
  · rename_i encoded henc
    refine .inl ⟨⟨not_not.mp hs, by simp [hc], ?_⟩, rfl, rfl⟩
    exact (FrameMessage.encode_isSome { f with channel, routeFlags := (uplinkRoute a.echo i f).2 }).mp
      (by rw [henc]; rfl)

/-- **When a refused frame can be offered again**: always, except for an echo
whose token the correlator holds, which the refused call has already taken. -/
theorem retrySafe_iff (a : Agent) (i : UInt8) (f : FrameMessage) :
    RetrySafe a i f ↔ ¬ (CanGoUp a i f ∧ OwnEcho a.echo i f) := by
  constructor
  · rintro ⟨hsafe, -⟩ ⟨hup, hown⟩
    rcases onCanFrame_refused a i f with ⟨-, hret, hag⟩ | ⟨hno, -⟩
    · have hecho : (uplinkRoute a.echo i f).1 = a.echo := congrArg Agent.echo (hag.symm.trans (hsafe hret))
      exact uplinkRoute_ne hown hecho
    · exact hno hup
  · intro hcond
    have hsame : (a.onCanFrame i f false).handled = false → (a.onCanFrame i f false).agent = a := by
      intro hret
      rcases onCanFrame_refused a i f with ⟨hup, -, hag⟩ | ⟨-, htrue⟩
      · rw [hag, uplinkRoute_same fun hown => hcond ⟨hup, hown⟩]
      · exact absurd (hret.symm.trans htrue) (by decide)
    refine ⟨hsame, fun n hret => ?_⟩
    have hrefused : a.refused i f n = a := by
      induction n with
      | zero => rfl
      | succ n ih =>
        have hn := ih fun k hk => hret k (hk.trans (Nat.lt_succ_self n))
        have hlast := hret n (Nat.lt_succ_self n)
        rw [hn] at hlast
        show ((a.refused i f n).onCanFrame i f false).agent = a
        rw [hn]
        exact hsame hlast
    rw [hrefused]

/-- An agent with one interface, on channel 1, whose correlator waits for the echo of 0x100. -/
def echoAgent : Agent :=
  { state := .running, channelMap := { channels := [1] }, echo := EchoCorrelator.reset.push 0 5 0x100
    transactions := .init (fun _ => true) (fun _ => 0) 1024 }

def echoFrame : FrameMessage := { FrameMessage.zero with canId := 0x100, routeFlags := frameRouteFlagEcho }

/-- The echo goes up with its token 5; refused once, it goes up without one. -/
theorem refused_echo_loses_token :
    (echoAgent.onCanFrame 0 echoFrame false).handled = false
      ∧ (echoAgent.onCanFrame 0 echoFrame true).offered.map (fun o => o.2[19]?)
        = some (some (frameRouteFlagEcho ||| 5 <<< frameRouteTokenShift))
      ∧ ((echoAgent.refused 0 echoFrame 1).onCanFrame 0 echoFrame true).offered.map (fun o => o.2[19]?)
        = some (some frameRouteFlagEcho) := by
  refine ⟨?_, ?_, ?_⟩ <;> decide +kernel

end Agent
end CanHub
