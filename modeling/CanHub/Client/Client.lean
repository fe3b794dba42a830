/-
# The client

The part of `Client` that transactions go through: they begin on the channel of
the interface the client has open, and the messages of the hub reach the
`TransactionSender`. Listing, opening and frames are left out.

Aborting before the acknowledgement was read forgets the transaction at once;
the hub is told with the identifier the sender has then, which is none.
-/
import CanHub.Client.Sender
import CanHub.Hub.Broker

namespace CanHub

inductive ClientState | disconnected | ready | listing | resolving | opening | isOpen
deriving DecidableEq

structure Client where
  state : ClientState := .disconnected
  channel : UInt8 := 0
  transaction : TransactionSender := {}
deriving DecidableEq

namespace Client

def isTransactionRunning (c : Client) : Bool := c.transaction.state = .running

/-- `Client_BeginTransaction`: the client and the message sent, `none` where the
code returns false; `taken` is the transport's answer. -/
def beginTransaction (c : Client) (b : TxnBeginMessage) (taken : Bool) : Option (Client × TxnBeginMessage) :=
  if c.state ≠ .isOpen then none
  else if c.transaction.state = .beginning ∨ c.transaction.state = .running then none
  else if !taken then none
  else some ({ c with transaction := .beginOn c.channel }, { b with channel := c.channel })

/-- `Client_AbortTransaction`: the client and the message sent. -/
def abortTransaction (c : Client) : Client × Option TxnAbortMessage :=
  if !c.isTransactionRunning ∧ c.transaction.state ≠ .beginning then (c, none)
  else
    (if c.transaction.state = .beginning then { c with transaction := .reset } else c,
      some ⟨c.channel, c.transaction.txnId⟩)

/-- What the client does with the hub's messages about its transaction. -/
def onControl (c : Client) : HubMessage → Client
  | .txnBeginAck ack => { c with transaction := c.transaction.onBeginAck ack }
  | .txnProgress p => { c with transaction := c.transaction.onProgress p }
  | .txnStatus m => { c with transaction := c.transaction.onStatus m }
  | _ => c

end Client
end CanHub
