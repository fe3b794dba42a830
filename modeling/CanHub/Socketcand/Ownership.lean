/-
# Who owns a channel behind the socketcand bridge

The bridge finds the connection of an answer by searching the live ones. That
is right as long as every connection lives until its answer comes: then the
oldest waiting open of an interface is the one the next answer is for
(`attributed`), and every channel granted has its connection
(`channel_ownership`). A connection that leaves, or is closed for a second
`open`, while its OPEN is on its way breaks both, and one that is closed for a
second `open` with a channel in its hands does not give it back.

Most of what the bridge does does not show in the books: `outline` is what they
take from a bridge, and each operation is met once by what it does to that.
-/
import CanHub.Socketcand.Session

namespace CanHub

open Function List

/-! ### Finding the connection of an answer -/

namespace Session

variable {s : Session}

theorem find_eq (h : s.book.Sound) {i : ConnectionSlot} (hlive : (s.bridge.connection i).inUse) :
    s.bridge.connections.find (s.bridge.connection i).connectionId = some i := by
  refine Table.find?_unique (by simpa using ⟨hlive, rfl⟩) fun j hj => ?_
  simp only [Bool.and_eq_true, beq_iff_eq] at hj
  exact h.ids j i hj.1 hlive hj.2

/-- **The next answer finds its connection.** -/
theorem attributed (h : s.book.Sound) {a : UInt32 × OpenMessage} {rest : List (UInt32 × OpenMessage)}
    (hsent : s.sent = a :: rest) :
    ∃ i, (s.bridge.connection i).face.Waits a ∧
      s.bridge.connections.findPendingOpen a.2.interfaceId = some i ∧ s.bridge.connections.find a.1 = some i := by
  have hhead : a ∈ s.book.sent := by
    rw [show s.book.sent = a :: rest from hsent]
    exact mem_cons_self
  obtain ⟨i, hi⟩ := h.asked a hhead
  have hid : (s.bridge.connection i).connectionId = a.1 := hi.connectionId
  refine ⟨i, hi, ?_, hid ▸ find_eq h hi.inUse⟩
  have hpending : ∀ j, ConnectionTable.isPendingOpen a.2.interfaceId (s.bridge.connection j) = true ↔
      (s.bridge.connection j).inUse = true ∧ (s.bridge.connection j).interfaceId = a.2.interfaceId ∧
        (s.bridge.connection j).face.IsPending := by
    intro j
    simp [ConnectionTable.isPendingOpen, OpenFace.IsPending, SocketcandConnection.face, and_assoc]
  refine Table.least?_unique ((hpending i).mpr ⟨hi.inUse, hi.interfaceId, hi.isPending⟩) fun j hj hle => ?_
  obtain ⟨hlive, -, hp⟩ := (hpending j).mp hj
  obtain ⟨a', ha', haid⟩ := h.waiting j hlive hp
  obtain ⟨j', hj'⟩ := h.asked a' ha'
  obtain rfl := h.ids j' j hj'.inUse hlive (hj'.connectionId.trans haid)
  -- whoever else waits sent its OPEN later
  have hmem : a' ∈ a :: rest := hsent ▸ ha'
  rcases mem_cons.mp hmem with rfl | hrest
  · exact h.ids j' i hlive hi.inUse (hj'.connectionId.trans hi.connectionId.symm)
  · have horder := h.order
    rw [show s.book.sent = a :: rest from hsent] at horder
    have hlt := (pairwise_cons.mp horder).1 a' hrest i j' hi hj'
    exact absurd hle (Nat.not_le_of_lt hlt)

end Session

/-- A connection without its configuration. -/
def SocketcandConnection.core (c : SocketcandConnection) : SocketcandConnection := { c with configure := {} }

namespace SocketcandBridge

/-- What the books take from a bridge. -/
structure Outline where
  faces : ConnectionSlot → OpenFace
  ready : Bool
  seq : UInt32
  opened : List (UInt32 × OpenMessage)
  closed : List UInt8

def outline (b : SocketcandBridge) : Outline where
  faces i := (b.connection i).face
  ready := b.hubState = .ready
  seq := b.connections.nextOpenSeq
  opened := CanHub.opened b.log
  closed := CanHub.closed b.log

/-- What is left of a bridge without its configurations. -/
structure Still where
  cores : ConnectionSlot → SocketcandConnection
  ready : Bool
  seq : UInt32
  opened : List (UInt32 × OpenMessage)
  closed : List UInt8

def still (b : SocketcandBridge) : Still where
  cores i := (b.connection i).core
  ready := b.hubState = .ready
  seq := b.connections.nextOpenSeq
  opened := CanHub.opened b.log
  closed := CanHub.closed b.log

/-- An output that is neither an OPEN nor a CLOSE. -/
def IsAside (o : BridgeOutput) : Prop := CanHub.opened [o] = [] ∧ CanHub.closed [o] = []

theorem opened_append (l l' : List BridgeOutput) : CanHub.opened (l ++ l') = CanHub.opened l ++ CanHub.opened l' :=
  filterMap_append

theorem closed_append (l l' : List BridgeOutput) : CanHub.closed (l ++ l') = CanHub.closed l ++ CanHub.closed l' :=
  filterMap_append

variable (b : SocketcandBridge)

theorem outline_of_still {b b' : SocketcandBridge} (h : b'.still = b.still) : b'.outline = b.outline :=
  congrArg (fun x : Still => (⟨fun i => (x.cores i).face, x.ready, x.seq, x.opened, x.closed⟩ : Outline)) h

theorem emit_still {o : BridgeOutput} (h : IsAside o) : (b.emit o).still = b.still := by
  simp only [still, emit, opened_append, closed_append, h.1, h.2, append_nil]
  rfl

variable (i : ConnectionSlot) {f : SocketcandConnection → SocketcandConnection}

theorem modify_connection (f : SocketcandConnection → SocketcandConnection)
    (j : ConnectionSlot) : (b.modify i f).connection j = if j = i then f (b.connection i) else b.connection j := by
  simp only [connection, modify, ConnectionTable.modify, update_apply]

/-- A change of the slot's configuration. -/
theorem modify_still (h : ∀ c, (f c).core = c.core) :
    (b.modify i f).still = b.still := by
  have hcores : (b.modify i f).still.cores = b.still.cores := by
    funext j
    change ((b.modify i f).connection j).core = (b.connection j).core
    rw [modify_connection]
    split
    · next hj => rw [h, hj]
    · rfl
  simp only [still] at hcores ⊢
  rw [hcores]
  rfl

theorem sendLine_still (l : SocketcandLine) :
    (b.sendLine i l).still = b.still :=
  b.emit_still ⟨rfl, rfl⟩

theorem sendConfigure_still :
    (b.sendConfigure i).1.still = b.still := by
  have hmodify := b.modify_still i (f := fun c => { c with configure := { c.configure with queued := false } })
    fun _ => rfl
  unfold sendConfigure
  dsimp only
  split
  · exact (sendLine_still _ i _).trans hmodify
  · exact (emit_still _ ⟨rfl, rfl⟩).trans hmodify

theorem sendQueued_still : ∀ (fuel : ℕ) (b : SocketcandBridge), (sendQueued fuel b).still = b.still
  | 0, _ => rfl
  | fuel + 1, b => by
    unfold sendQueued
    split
    · rfl
    · next i _ =>
      dsimp only
      split
      · exact b.sendConfigure_still i
      · exact (sendQueued_still fuel _).trans (b.sendConfigure_still i)

theorem sendNextConfigure_still : b.sendNextConfigure.still = b.still := by
  unfold sendNextConfigure
  split
  · rfl
  · exact sendQueued_still _ b

theorem queueConfigure_still (i : ConnectionSlot) (bus : Text) (settings : InterfaceSettings) :
    (b.queueConfigure i bus settings).still = b.still := by
  unfold queueConfigure
  split
  · exact b.sendLine_still i _
  split
  · exact b.sendLine_still i _
  · refine (sendNextConfigure_still _).trans ?_
    have hmodify := modify_still
      { b with connections := { b.connections with nextConfigureSeq := b.connections.nextConfigureSeq + 1 } } i
      (f := fun c =>
        { c with configure := { queued := true, seq := b.connections.nextConfigureSeq + 1, bus, settings } })
      fun _ => rfl
    exact hmodify

theorem handleConfigureReply_still (reply : ConfigureReplyMessage) :
    (b.handleConfigureReply reply).still = b.still := by
  unfold handleConfigureReply
  split
  · rfl
  · refine (sendNextConfigure_still _).trans ?_
    split
    · rfl
    · exact sendLine_still { b with configureInFlight := false } _ _

theorem deliverFrame_still (f : FrameMessage) : (b.deliverFrame f).still = b.still := by
  unfold deliverFrame
  split
  · rfl
  · split
    · rfl
    · exact b.sendLine_still _ _

theorem handleSend_still (i : ConnectionSlot) (f : FrameMessage) :
    (b.handleSend i f).still = b.still := by
  unfold handleSend
  split
  · exact b.sendLine_still i _
  split
  · exact b.sendLine_still i _
  · exact b.emit_still ⟨rfl, rfl⟩

theorem handleListReply_still (reply : Option ListReplyMessage) (nowUs : ℕ) :
    (b.handleListReply reply nowUs).still = b.still := by
  unfold handleListReply
  split
  · rfl
  · dsimp only
    split
    · exact emit_still _ ⟨rfl, rfl⟩
    · rfl

/-- A slot that is given up. -/
def Outline.vacate (o : Outline) (i : ConnectionSlot) : Outline :=
  { o with faces := update o.faces i { o.faces i with inUse := false } }

/-- A slot that is granted a channel. -/
def Outline.grant (o : Outline) (i : ConnectionSlot) (channel : UInt8) (canWrite : Bool) : Outline :=
  { o with
    faces := update o.faces i
      { o.faces i with openState := .done, channel, channelValid := true, canWrite } }

/-- A slot that asks the hub for an interface. -/
def Outline.ask (o : Outline) (i : ConnectionSlot) (state : SocketcandOpenState) (interfaceId : UInt32) (flags : UInt8) :
    Outline :=
  { o with
    faces := update o.faces i
      { o.faces i with openState := state, interfaceId, openSeq := (o.seq + 1).toNat }
    seq := o.seq + 1
    opened := o.opened ++ [((o.faces i).connectionId, ⟨interfaceId, flags⟩)] }

theorem modify_faces (i : ConnectionSlot) (f : SocketcandConnection → SocketcandConnection) :
    (b.modify i f).outline.faces = update b.outline.faces i (f (b.connection i)).face := by
  funext j
  change ((b.modify i f).connection j).face = _
  rw [modify_connection, update_apply]
  split <;> rfl

theorem outline_modify (i : ConnectionSlot) (f : SocketcandConnection → SocketcandConnection) :
    (b.modify i f).outline =
      { b.outline with faces := update b.outline.faces i (f (b.connection i)).face } := by
  rw [← b.modify_faces i f]
  rfl

/-- A change of the slot that does not show. -/
theorem modify_outline (i : ConnectionSlot)
    (h : (f (b.connection i)).face = (b.connection i).face) : (b.modify i f).outline = b.outline := by
  rw [outline_modify, h]
  exact congrArg (fun faces => { b.outline with faces }) (update_eq_self i b.outline.faces)

theorem emit_outline {o : BridgeOutput} (h : IsAside o) : (b.emit o).outline = b.outline :=
  outline_of_still (b.emit_still h)

variable {i : ConnectionSlot}

theorem remove_outline {id : UInt32}
    (hfind : b.connections.find id = some i) :
    { b with connections := b.connections.remove id }.outline = b.outline.vacate i := by
  have hremove : { b with connections := b.connections.remove id } = b.modify i fun c => { c with inUse := false } := by
    simp only [ConnectionTable.remove, hfind]
    rfl
  rw [hremove, outline_modify]
  rfl

/-- What is found depends on the faces alone. -/
theorem find_congr {b b' : SocketcandBridge} (h : b'.outline.faces = b.outline.faces) (id : UInt32) :
    b'.connections.find id = b.connections.find id := by
  refine Table.find?_congr fun j => ?_
  have hface : (b'.connection j).face = (b.connection j).face := congrFun h j
  have huse : (b'.connection j).inUse = (b.connection j).inUse := congrArg OpenFace.inUse hface
  have hid : (b'.connection j).connectionId = (b.connection j).connectionId := congrArg OpenFace.connectionId hface
  change ((b'.connection j).inUse && (b'.connection j).connectionId == id) = _
  rw [huse, hid]
  rfl

theorem closeConnection_outline (detail : SocketcandDetail)
    (hfind : b.connections.find (b.connection i).connectionId = some i) :
    (b.closeConnection i detail).outline = b.outline.vacate i := by
  have haside : ((b.sendError i detail).emit (.closeClient (b.connection i).connectionId)).outline = b.outline :=
    outline_of_still ((emit_still _ ⟨rfl, rfl⟩).trans (b.sendLine_still i _))
  rw [← haside]
  refine remove_outline _ ?_
  exact hfind

theorem awaitOpen_sendOpen_outline (i : ConnectionSlot) (state : SocketcandOpenState)
    (flags : UInt8) :
    ((b.awaitOpen i state).sendOpen i flags).outline =
      b.outline.ask i state (b.connection i).interfaceId flags := by
  have hslot : (b.awaitOpen i state).connection i =
      { b.connection i with openState := state, openSeq := b.connections.nextOpenSeq + 1 } := by
    rw [awaitOpen, modify_connection, if_pos rfl]
    rfl
  have hfaces : (b.awaitOpen i state).outline.faces = update b.outline.faces i
      { b.outline.faces i with openState := state, openSeq := (b.connections.nextOpenSeq + 1).toNat } :=
    b.nextOpenSeq.modify_faces i _
  simp only [outline, sendOpen, emit, opened_append, closed_append, hslot] at hfaces ⊢
  simp only [Outline.ask, Outline.mk.injEq]
  exact ⟨hfaces, rfl, rfl, rfl, append_nil _⟩

/-- What a chunk of commands can do to the outline: nothing, or one open that fails or asks the hub. -/
inductive Outline.Chunk (o : Outline) (i : ConnectionSlot) : Outline → Prop
  | aside : Chunk o i o
  | failed (hstate : (o.faces i).openState = .none) : Chunk o i (o.vacate i)
  | asked (interfaceId : UInt32) (hstate : (o.faces i).openState = .none) (hready : o.ready = true) :
      Chunk o i (o.ask i .pendingWrite interfaceId openFlagsReadWrite)

theorem openBus_outline (bus : Text)
    (hfind : b.connections.find (b.connection i).connectionId = some i) (hstate : (b.connection i).openState = .none) :
    Outline.Chunk b.outline i (b.openBus i bus).1.outline := by
  unfold openBus
  rw [if_neg (not_not.mpr hstate)]
  split
  · rw [closeConnection_outline b _ hfind]
    exact .failed hstate
  next hready =>
  split
  · rw [closeConnection_outline b _ hfind]
    exact .failed hstate
  · next interfaceId _ =>
    have hb := awaitOpen_sendOpen_outline (b.modify i fun c => { c with interfaceId, bus }) i .pendingWrite
      openFlagsReadWrite
    have hslot : ((b.modify i fun c => { c with interfaceId, bus }).connection i).interfaceId = interfaceId := by
      rw [modify_connection, if_pos rfl]
    have hask : (b.modify i fun c => { c with interfaceId, bus }).outline.ask i .pendingWrite interfaceId
        openFlagsReadWrite = b.outline.ask i .pendingWrite interfaceId openFlagsReadWrite := by
      rw [outline_modify]
      simp only [Outline.ask, update_idem, update_self]
      rfl
    rw [hb, hslot, hask]
    exact .asked interfaceId hstate (by simpa [outline] using hready)

variable (i)

/-- A command that is not an open. -/
theorem dispatchCommand_outline {c : SocketcandCommand}
    (h : ∀ bus, c ≠ .open bus) : (b.dispatchCommand i c).1.outline = b.outline ∧ (b.dispatchCommand i c).2 = true := by
  cases c with
  | «open» bus => exact absurd rfl (h bus)
  | unknown => exact ⟨rfl, rfl⟩
  | rawmode =>
    exact ⟨(modify_outline _ i rfl).trans (b.emit_outline ⟨rfl, rfl⟩), rfl⟩
  | bcmmode =>
    exact ⟨(modify_outline _ i rfl).trans (b.emit_outline ⟨rfl, rfl⟩), rfl⟩
  | send f => exact ⟨outline_of_still (b.handleSend_still i f), rfl⟩
  | echo => exact ⟨b.emit_outline ⟨rfl, rfl⟩, rfl⟩
  | bittiming bus settings => exact ⟨outline_of_still (b.queueConfigure_still i bus settings), rfl⟩
  | controlmode bus settings => exact ⟨outline_of_still (b.queueConfigure_still i bus settings), rfl⟩

theorem dispatchCommands_cons (c : SocketcandCommand) (cs : List SocketcandCommand)
    (b : SocketcandBridge) :
    dispatchCommands i (c :: cs) b =
      if (b.dispatchCommand i c).2 then dispatchCommands i cs (b.dispatchCommand i c).1
      else (b.dispatchCommand i c).1 := rfl

variable {cs : List SocketcandCommand}

/-- Commands without an open. -/
theorem dispatchCommands_aside (h : Session.opens cs = 0) :
    ∀ b, (dispatchCommands i cs b).outline = b.outline := by
  induction cs with
  | nil => exact fun b => rfl
  | cons c cs ih =>
    intro b
    rw [Session.opens, countP_eq_zero] at h
    have hc : ∀ bus, c ≠ .open bus := by
      rintro bus rfl
      exact h _ mem_cons_self rfl
    obtain ⟨hout, halive⟩ := b.dispatchCommand_outline i hc
    rw [dispatchCommands_cons, if_pos halive]
    refine (ih ?_ _).trans hout
    rw [Session.opens, countP_eq_zero]
    exact fun c' hc' => h c' (mem_cons_of_mem _ hc')

theorem dispatchCommands_chunk (h : Session.opens cs = 1) :
    ∀ b : SocketcandBridge, b.connections.find (b.connection i).connectionId = some i →
      (b.connection i).openState = .none → Outline.Chunk b.outline i (dispatchCommands i cs b).outline := by
  induction cs with
  | nil => cases h
  | cons c cs ih =>
    intro b hfind hstate
    by_cases hc : ∃ bus, c = .open bus
    · obtain ⟨bus, rfl⟩ := hc
      have hrest : Session.opens cs = 0 := by
        rw [Session.opens, countP_cons_of_pos rfl] at h
        exact Nat.succ.inj h
      have hopen := b.openBus_outline bus hfind hstate
      rw [dispatchCommands_cons]
      split
      · rw [dispatchCommands_aside i hrest]
        exact hopen
      · exact hopen
    · have hother : ∀ bus, c ≠ .open bus := fun bus he => hc ⟨bus, he⟩
      obtain ⟨hout, halive⟩ := b.dispatchCommand_outline i hother
      have hrest : Session.opens cs = 1 := by
        have hneg : ¬Session.isOpen c = true := by
          cases c <;> first | exact absurd rfl (hother _) | exact nofun
        rw [Session.opens, countP_cons_of_neg hneg] at h
        exact h
      have hface : ((b.dispatchCommand i c).1.connection i).face = (b.connection i).face :=
        congrFun (congrArg Outline.faces hout) i
      rw [dispatchCommands_cons, if_pos halive, ← hout]
      refine ih hrest _ ?_ ?_
      · rw [show ((b.dispatchCommand i c).1.connection i).connectionId = (b.connection i).connectionId from
          congrArg OpenFace.connectionId hface, find_congr (congrArg Outline.faces hout)]
        exact hfind
      · exact (congrArg OpenFace.openState hface).trans hstate

variable {i}

theorem onClientConnected_outline (id : UInt32) :
    (b.onClientConnected id).outline = b.outline ∨
      ∃ i, (b.outline.faces i).inUse = false ∧ (b.onClientConnected id).outline =
        { b.outline with faces := update b.outline.faces i { inUse := true, connectionId := id } } := by
  unfold onClientConnected ConnectionTable.add
  cases hfind : b.connections.connections.find? (!·.inUse) with
  | none => exact .inl (b.emit_outline ⟨rfl, rfl⟩)
  | some i =>
    have hfree : (b.connections.connections i).inUse = false := by simpa using Table.find?_some hfind
    refine .inr ⟨i, hfree, (emit_outline _ ⟨rfl, rfl⟩).trans ?_⟩
    change (b.modify i fun _ => { inUse := true, connectionId := id }).outline = _
    rw [outline_modify]
    rfl

/-- A connection with a bus that leaves gives its channel back. -/
theorem onClientDisconnected_outline {id : UInt32}
    (hfind : b.connections.find id = some i) :
    (b.onClientDisconnected id).outline =
      { b.outline.vacate i with
        closed := b.outline.closed ++
          if (b.connection i).channelValid ∧ b.hubState = .ready then [(b.connection i).channel] else [] } := by
  simp only [onClientDisconnected, hfind]
  split
  · have hemit : (b.emit (.close (b.connection i).channel)).outline =
        { b.outline with closed := b.outline.closed ++ [(b.connection i).channel] } := by
      unfold outline
      rw [Outline.mk.injEq]
      exact ⟨rfl, rfl, rfl, (opened_append _ _).trans (append_nil _), closed_append _ _⟩
    rw [remove_outline (b.emit (.close (b.connection i).channel)) hfind, hemit]
    rfl
  · rw [append_nil]
    exact remove_outline b hfind

theorem onConnected_outline :
    b.onConnected.outline = b.outline ∨ b.onConnected.outline = { b.outline with ready := true } := by
  unfold onConnected
  split
  · exact .inl rfl
  · right
    rw [outline_of_still (sendNextConfigure_still _)]
    have haside : ((b.emit .hello).startListing).outline = b.outline :=
      (emit_outline _ ⟨rfl, rfl⟩).trans (b.emit_outline (o := .hello) ⟨rfl, rfl⟩)
    rw [← haside]
    rfl

theorem tick_still (nowUs : ℕ) (connects : Bool) :
    (b.tick nowUs connects).still = b.still := by
  unfold tick
  split
  · next hstate =>
    split
    · rfl
    split
    · simp only [still, hstate]
      rfl
    · rfl
  · rfl
  · have hlisting : (if !b.listingActive ∧ b.nextListAtUs ≤ nowUs then b.startListing else b).still = b.still := by
      split
      · exact emit_still _ ⟨rfl, rfl⟩
      · rfl
    have hbeacon : ∀ b₁ : SocketcandBridge, b₁.still = b.still →
        (if b₁.beaconEnabled ∧ b₁.nextBeaconAtUs ≤ nowUs then
          { b₁.emit .beacon with nextBeaconAtUs := nowUs + beaconIntervalUs } else b₁).still = b.still := by
      intro b₁ h₁
      split
      · exact (b₁.emit_still (o := .beacon) ⟨rfl, rfl⟩).trans h₁
      · exact h₁
    exact hbeacon _ hlisting

theorem onDisconnected_outline (nowUs : ℕ) (h : b.hubState ≠ .disconnected) :
    (b.onDisconnected nowUs).outline.faces = (fun _ => {}) ∧ (b.onDisconnected nowUs).outline.ready = false ∧
      (b.onDisconnected nowUs).outline.seq = 0 := by
  unfold onDisconnected
  rw [if_neg h]
  exact ⟨rfl, rfl, rfl⟩

end SocketcandBridge

namespace Session

open SocketcandBridge

variable {s : Session}

theorem book_follow (s : Session) (b : SocketcandBridge) :
    (s.follow b).book =
      { faces := b.outline.faces
        ready := b.outline.ready
        seq := b.outline.seq.toNat
        sent := s.sent ++ b.outline.opened
        granted := s.granted.filter fun g => !b.outline.closed.contains g.1
        writers := s.writers } := rfl

/-- An event that does not show leaves the books as they are. -/
theorem book_follow_aside {b : SocketcandBridge} (h : b.outline = s.fresh.outline) : (s.follow b).book = s.book := by
  rw [book_follow, h]
  have hsent : s.sent ++ s.fresh.outline.opened = s.sent := append_nil _
  have hgranted : (s.granted.filter fun g => !s.fresh.outline.closed.contains g.1) = s.granted :=
    filter_eq_self.mpr fun g _ => by simp [fresh, outline, CanHub.closed]
  rw [hsent, hgranted]
  rfl

/-- The books stay or take a turn. -/
def Advances (k k' : Book) : Prop := k' = k ∨ Book.Turn k k'

theorem Advances.sound {k k' : Book} (h : k.Sound) (ha : Advances k k') : k'.Sound := by
  rcases ha with rfl | hturn
  · exact h
  · exact hturn.sound h

theorem seq_succ {n : UInt32} (h : n + 1 ≠ 0) : (n + 1).toNat = n.toNat + 1 := by
  have hlt := n.toNat_lt
  have hne : n.toNat ≠ 2 ^ 32 - 1 := by
    intro he
    refine h (UInt32.toNat_inj.mp ?_)
    rw [UInt32.toNat_add, he]
    rfl
  rw [UInt32.toNat_add]
  exact Nat.mod_eq_of_lt (by simp; omega)

theorem granted_kept (s : Session) : (s.granted.filter fun g => !([] : List UInt8).contains g.1) = s.granted :=
  filter_eq_self.mpr fun g _ => by simp

variable {id : UInt32}

theorem connected_advances (hp : s.Patient (.clientConnected id)) :
    Advances s.book (s.step (.clientConnected id)).book := by
  have hnew : ∀ j, (s.book.faces j).inUse → (s.book.faces j).connectionId ≠ id := fun j hj he => hp j hj he
  right
  change Book.Turn s.book ({ s with writers := s.writers.filter (· ≠ id) }.follow (s.fresh.onClientConnected id)).book
  rcases s.fresh.onClientConnected_outline id with haside | ⟨i, hfree, hout⟩
  · rw [book_follow_aside (s := { s with writers := s.writers.filter (· ≠ id) }) haside]
    exact .refused s.book id hnew
  · have hturn := Book.Turn.joined s.book i id hfree hnew
    have hsent : s.sent ++ s.fresh.outline.opened = s.sent := append_nil _
    rw [book_follow, hout]
    rw [hsent, show s.fresh.outline.closed = [] from rfl, granted_kept]
    exact hturn

variable {i : ConnectionSlot}

theorem find_live (h : s.bridge.connections.find id = some i) :
    (s.bridge.connection i).inUse = true ∧ (s.bridge.connection i).connectionId = id := by
  have hprop := Table.find?_some h
  rw [Bool.and_eq_true, beq_iff_eq] at hprop
  exact hprop

theorem vacate_left (hlive : (s.bridge.connection i).inUse)
    (hstate : (s.bridge.connection i).openState = .none) {b : SocketcandBridge}
    (hout : b.outline = s.fresh.outline.vacate i) : Book.Turn s.book (s.follow b).book := by
  have hturn := Book.Turn.left s.book i hlive hstate
  have hsent : s.sent ++ (s.fresh.outline.vacate i).opened = s.sent := append_nil _
  rw [book_follow, hout, hsent, show (s.fresh.outline.vacate i).closed = [] from rfl, granted_kept]
  exact hturn

theorem disconnected_advances (h : s.book.Sound) (hp : s.Patient (.clientDisconnected id)) :
    Advances s.book (s.step (.clientDisconnected id)).book := by
  change Advances s.book (s.follow (s.fresh.onClientDisconnected id)).book
  cases hfind : s.fresh.connections.find id with
  | none =>
    left
    refine book_follow_aside ?_
    simp only [onClientDisconnected, hfind]
  | some i =>
    right
    obtain ⟨hlive, hid⟩ := find_live hfind
    obtain ⟨hwrite, hread⟩ := hp i hlive hid
    have hout := s.fresh.onClientDisconnected_outline hfind
    have hdone := h.done i hlive
    by_cases hstate : (s.bridge.connection i).openState = .none
    · have hinvalid : ¬((s.fresh.connection i).channelValid = true ∧ s.fresh.hubState = .ready) := by
        rintro ⟨hv, -⟩
        have hs := hdone.mp hv
        rw [show (s.book.faces i).openState = .none from hstate] at hs
        cases hs
      rw [if_neg hinvalid, append_nil] at hout
      exact vacate_left hlive hstate hout
    · have hs : (s.bridge.connection i).openState = .done := by
        cases hc : (s.bridge.connection i).openState with
        | none => exact absurd hc hstate
        | pendingWrite => exact absurd hc hwrite
        | pendingRead => exact absurd hc hread
        | done => rfl
      have hready : s.book.ready = true := h.ready i hlive hstate
      have hvalid : (s.fresh.connection i).channelValid = true ∧ s.fresh.hubState = .ready :=
        ⟨hdone.mpr hs, of_decide_eq_true hready⟩
      rw [if_pos hvalid] at hout
      have hturn := Book.Turn.gave s.book i hlive hs
      have hsent : s.sent ++ s.fresh.outline.opened = s.sent := append_nil _
      have hgranted : (s.granted.filter fun g => !(s.fresh.outline.closed ++ [(s.fresh.connection i).channel]).contains g.1) =
          s.granted.filter (·.1 ≠ (s.bridge.connection i).channel) := by
        refine filter_congr fun g _ => ?_
        have hclosed : s.fresh.outline.closed = [] := rfl
        have hslot : s.fresh.connection i = s.bridge.connection i := rfl
        simp [hclosed, hslot]
      rw [book_follow, hout]
      dsimp only [Outline.vacate]
      rw [hsent, hgranted]
      exact hturn

theorem commands_advances
    (hp : s.Patient (.clientCommands id cs)) : Advances s.book (s.step (.clientCommands id cs)).book := by
  change Advances s.book (s.follow (s.fresh.onClientCommands id cs)).book
  cases hfind : s.fresh.connections.find id with
  | none =>
    left
    refine book_follow_aside ?_
    simp only [onClientCommands, hfind]
  | some i =>
    have hcommands : s.fresh.onClientCommands id cs = dispatchCommands i cs s.fresh := by
      simp only [onClientCommands, hfind]
    obtain ⟨hlive, hid⟩ := find_live hfind
    rw [hcommands]
    rcases hp with hnone | ⟨hone, hseq, hstate⟩
    · exact .inl (book_follow_aside (dispatchCommands_aside i hnone s.fresh))
    · have writes : (openFlagsReadWrite &&& openFlagWantWrite != 0) = true := by decide
      have hchunk := dispatchCommands_chunk i hone s.fresh (hid ▸ hfind) (hstate i hlive hid)
      generalize hb : dispatchCommands i cs s.fresh = b at hchunk ⊢
      generalize hout : b.outline = o at hchunk
      cases hchunk with
      | aside => exact .inl (book_follow_aside hout)
      | failed _ => exact .inr (vacate_left hlive (hstate i hlive hid) hout)
      | asked interfaceId _ hready =>
        right
        have hturn := Book.Turn.opened s.book i interfaceId openFlagsReadWrite hlive (hstate i hlive hid) hready writes
        have hgranted : (s.granted.filter fun g => !s.fresh.outline.closed.contains g.1) = s.granted := s.granted_kept
        have hnext : (s.fresh.outline.seq + 1).toNat = s.book.seq + 1 := seq_succ hseq
        rw [book_follow, hout]
        dsimp only [Outline.ask]
        rw [hgranted, hnext]
        exact hturn

/-- The outline behind an answer that has found its slot. -/
theorem handleOpenAck_outline (b : SocketcandBridge) (ack : OpenAckMessage)
    (hpending : b.connections.findPendingOpen ack.interfaceId = some i)
    (hfind : b.connections.find (b.connection i).connectionId = some i) :
    (b.handleOpenAck ack).outline =
      if ack.status = .ok then b.outline.grant i ack.channel ((b.connection i).openState == .pendingWrite)
      else if (b.connection i).openState = .pendingWrite ∧ ack.status = .writeDenied then
        b.outline.ask i .pendingRead (b.connection i).interfaceId openFlagsReadOnly
      else b.outline.vacate i := by
  simp only [handleOpenAck, hpending]
  split
  · rw [sendLine, emit_outline _ ⟨rfl, rfl⟩, outline_modify]
    rfl
  split
  · exact b.awaitOpen_sendOpen_outline i .pendingRead openFlagsReadOnly
  · exact b.closeConnection_outline _ hfind

theorem answer_advances (h : s.book.Sound) {status : OpenStatus} {channel : UInt8}
    (hp : s.Patient (.answer status channel)) : Advances s.book (s.step (.answer status channel)).book := by
  change Advances s.book (s.answer status channel).book
  unfold answer
  split
  · exact .inl rfl
  next id m rest hsent =>
  right
  obtain ⟨i, hwaits, hpending, hfind⟩ := attributed h hsent
  have hid : (s.bridge.connection i).connectionId = id := hwaits.connectionId
  have hinterface : (s.bridge.connection i).interfaceId = m.interfaceId := hwaits.interfaceId
  have hout := handleOpenAck_outline s.fresh { status, channel, interfaceId := m.interfaceId } hpending
    (by rw [show (s.fresh.connection i).connectionId = id from hid]; exact hfind)
  have hkind : ((s.fresh.connection i).openState == .pendingWrite) = wantsWrite m := by
    have hstate : (s.fresh.connection i).openState = if wantsWrite m then .pendingWrite else .pendingRead := hwaits.state
    rw [hstate]
    cases wantsWrite m <;> rfl
  rw [book_follow, hout]
  by_cases hok : status = .ok
  · have hturn := Book.Turn.granted s.book i (id, m) rest channel hsent hwaits (hp.1 hok)
    have hgranted : (((channel, m.interfaceId) :: s.granted).filter fun g => !s.fresh.outline.closed.contains g.1) =
        (channel, m.interfaceId) :: s.granted := filter_eq_self.mpr fun g _ => rfl
    rw [if_pos hok, if_pos hok, hkind]
    dsimp only [Outline.grant]
    rw [hgranted, show rest ++ s.fresh.outline.opened = rest from append_nil _]
    simp only [hok, true_and]
    exact hturn
  have hgranted : (s.granted.filter fun g => !s.fresh.outline.closed.contains g.1) = s.granted := s.granted_kept
  have hsilent : ¬(status = .ok ∧ wantsWrite m = true) := fun hboth => hok hboth.1
  rw [if_neg hok, if_neg hok, if_neg hsilent]
  by_cases hagain : (s.fresh.connection i).openState = .pendingWrite ∧ status = .writeDenied
  · have hturn := Book.Turn.reopened s.book i (id, m) rest openFlagsReadOnly hsent hwaits
      (show (openFlagsReadOnly &&& openFlagWantWrite != 0) = false by decide)
    have hnext : (s.fresh.outline.seq + 1).toNat = s.book.seq + 1 := seq_succ (hp.2 hagain.2)
    rw [if_pos hagain]
    dsimp only [Outline.ask]
    have hlist : rest ++ (s.fresh.outline.opened ++ [((s.fresh.outline.faces i).connectionId,
        (⟨(s.fresh.connection i).interfaceId, openFlagsReadOnly⟩ : OpenMessage))]) =
          rest ++ [(id, ⟨m.interfaceId, openFlagsReadOnly⟩)] := by
      rw [← hid, ← hinterface]
      rfl
    rw [hgranted, hnext, hlist]
    exact hturn
  · have hturn := Book.Turn.denied s.book i (id, m) rest hsent hwaits
    rw [if_neg hagain]
    dsimp only [Outline.vacate]
    rw [hgranted, show rest ++ s.fresh.outline.opened = rest from append_nil _]
    exact hturn

theorem hubDisconnected_advances (nowUs : ℕ) :
    Advances s.book (s.step (.hubDisconnected nowUs)).book := by
  right
  by_cases hstate : s.bridge.hubState = .disconnected
  · have hready : s.book.ready = false := by simp [book, hstate]
    have hturn := Book.Turn.idle s.book hready
    have hsame : s.fresh.onDisconnected nowUs = s.fresh := if_pos hstate
    change Book.Turn s.book ({ bridge := s.fresh.onDisconnected nowUs } : Session).book
    rw [hsame]
    exact hturn
  · obtain ⟨hfaces, hready, hseq⟩ := s.fresh.onDisconnected_outline nowUs hstate
    have hturn := Book.Turn.lost s.book
    have hbook : (s.step (.hubDisconnected nowUs)).book =
        { faces := (s.fresh.onDisconnected nowUs).outline.faces
          ready := (s.fresh.onDisconnected nowUs).outline.ready
          seq := (s.fresh.onDisconnected nowUs).outline.seq.toNat
          sent := [], granted := [], writers := [] } := rfl
    rw [hbook, hfaces, hready, hseq]
    exact hturn

/-- **One event**, under the condition. -/
theorem step_advances (h : s.book.Sound) {e : SessionEvent} (hp : s.Patient e) :
    Advances s.book (s.step e).book := by
  cases e with
  | clientConnected id => exact connected_advances hp
  | clientCommands id cs => exact commands_advances hp
  | clientDisconnected id => exact disconnected_advances h hp
  | answer status channel => exact answer_advances h hp
  | listReply reply nowUs => exact .inl (book_follow_aside (outline_of_still (s.fresh.handleListReply_still reply nowUs)))
  | configureReply reply => exact .inl (book_follow_aside (outline_of_still (s.fresh.handleConfigureReply_still reply)))
  | frame f => exact .inl (book_follow_aside (outline_of_still (s.fresh.deliverFrame_still f)))
  | hubConnected =>
    change Advances s.book (s.follow s.fresh.onConnected).book
    rcases s.fresh.onConnected_outline with hsame | hready
    · exact .inl (book_follow_aside hsame)
    · have hturn := Book.Turn.ready s.book
      have hgranted : (s.granted.filter fun g => !s.fresh.outline.closed.contains g.1) = s.granted := s.granted_kept
      right
      rw [book_follow, hready]
      rw [hgranted, show s.sent ++ s.fresh.outline.opened = s.sent from append_nil _]
      exact hturn
  | hubDisconnected nowUs => exact hubDisconnected_advances nowUs
  | tick nowUs connects => exact .inl (book_follow_aside (outline_of_still (s.fresh.tick_still nowUs connects)))

theorem init_sound (beaconEnabled : Bool) : (init beaconEnabled).book.Sound :=
  ⟨nofun, nofun, nofun, List.Pairwise.nil, nofun, nofun, nofun, nofun, nofun, nofun, nofun⟩

/-- **Channels have their owners, unless a connection leaves too early.** In every run in which no connection leaves
while its OPEN waits and none opens a second time, the next answer is applied to the connection whose OPEN it answers,
every channel granted and not given back is owned by exactly one live connection, which asked for the interface, once
all answers have come, and whoever may write was granted a write OPEN of its own. -/
theorem channel_ownership (beaconEnabled : Bool) (es : List SessionEvent)
    (h : Run.Along step Patient (init beaconEnabled) es) :
    ((init beaconEnabled).run es).Attributed ∧ ((init beaconEnabled).run es).Owned ∧
      ((init beaconEnabled).run es).WriteRights := by
  have hsound : ((init beaconEnabled).run es).book.Sound :=
    Run.Along.invariant (I := fun s => s.book.Sound) (fun s e hs hp => (step_advances hs hp).sound hs) h
      (init_sound beaconEnabled)
  generalize (init beaconEnabled).run es = s at hsound
  refine ⟨?_, ?_, fun i hlive hw => (hsound.write i hlive hw).2⟩
  · intro a ha
    obtain ⟨rest, hsent⟩ : ∃ rest, s.sent = a :: rest := by
      cases hs : s.sent with
      | nil =>
        rw [hs] at ha
        cases ha
      | cons a' rest =>
        rw [hs] at ha
        exact ⟨rest, by rw [Option.mem_some_iff.mp ha]⟩
    obtain ⟨i, hwaits, hpending, hfind⟩ := attributed hsound hsent
    refine ⟨hpending.trans hfind.symm, fun j hj => ?_⟩
    obtain rfl := Option.some.inj (hfind.symm.trans hj)
    have hstate : (s.bridge.connection i).openState = if wantsWrite a.2 then .pendingWrite else .pendingRead :=
      hwaits.state
    rw [hstate]
    cases wantsWrite a.2 <;> simp
  · intro _ g hg
    obtain ⟨i, hlive, hv, hc, hi⟩ := hsound.owned g hg
    exact ⟨i, ⟨hlive, hv, hc⟩, hi, fun j hj => hsound.single j i hj.1 hj.2.1 hlive hv (hj.2.2.trans hc.symm)⟩

/-- The hub is reached and lists one bus, `a/c` with the id 7; two clients connect. -/
def twoClients : List SessionEvent :=
  [.tick 0 true, .hubConnected, .listReply (some ⟨[⟨7, [0x61], [0x63]⟩], false⟩) 0, .clientConnected 1,
    .clientConnected 2]

/-- Two clients open the same bus, the second is granted only reading, and the first leaves. -/
theorem channel_ownership_two_clients :
    ((init false).run (twoClients ++
      [.clientCommands 1 [.open [0x61, 0x2F, 0x63]], .clientCommands 2 [.open [0x61, 0x2F, 0x63]], .answer .ok 1,
        .answer .writeDenied 0, .answer .ok 2, .clientDisconnected 1])).Owned :=
  (channel_ownership false _ (by decide +kernel)).2.1

/-- A client leaves while its OPEN waits, and another opens the same bus: the answer to the one is applied to the
other, and the channel of the second answer is nobody's. -/
theorem channel_ownership_fails :
    ¬((init false).run (twoClients ++
      [.clientCommands 1 [.open [0x61, 0x2F, 0x63]], .clientDisconnected 1,
        .clientCommands 2 [.open [0x61, 0x2F, 0x63]]])).Attributed ∧
    ¬((init false).run (twoClients ++
      [.clientCommands 1 [.open [0x61, 0x2F, 0x63]], .clientDisconnected 1,
        .clientCommands 2 [.open [0x61, 0x2F, 0x63]], .answer .ok 1, .answer .ok 2])).Owned := by
  decide +kernel

end Session
end CanHub
