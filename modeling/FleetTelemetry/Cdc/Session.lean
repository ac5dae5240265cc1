import FleetTelemetry.Cdc.Decoding
import Mathlib.Logic.Relation

/-!
# Replication sessions

The server with its WAL, one run of the consumer after the other, and the feedback on its
way back. A session starts with a new `CdcConsumer`, may stop at any message, and forces
a last feedback on the way out; the feedback that is still on its way when the connection
closes is lost. What the server sends is received in the same step: the connection keeps
the order, and what the server promises of a message speaks of what it has sent before.

The clock only decides when a feedback is due, so a feedback may be sent at any time.
-/

namespace FleetTelemetry.Cdc

open Foundations Foundations.Wire

inductive CopyData where
  | xlogData (walStart walEnd clock : WireInt 8) (payload : List UInt8)
  | keepalive (walEnd clock : WireInt 8) (reply : UInt8)

def CopyData.encode : CopyData → List UInt8
  | xlogData walStart walEnd clock payload =>
    119 :: walStart.encode ++ (walEnd.encode ++ (clock.encode ++ payload))
  | keepalive walEnd clock reply => [107] ++ (walEnd.encode ++ (clock.encode ++ [reply]))

/-- A committed insert or update, with its relation as it was then. -/
structure Row where
  message : PgMessage
  table : Relation
  old : Option Tuple
  new : Tuple
  shape : message.row? = some (table.oid, old, new)
  new_fits : new.data.length ≤ table.columns.length
  old_fits : ∀ t, old = some t → t.data.length ≤ table.columns.length

/-- A committed transaction with its inserts and updates in order. -/
structure Transaction where
  commitLsn : Nat
  endLsn : Nat
  rows : List Row
  ends : commitLsn < endLsn
  fits : 2 * endLsn < 256 ^ 8

/-- An XLogData message of the stream. -/
structure Packet where
  walEnd : WireInt 8
  message : PgMessage

/-- The packets a transaction is streamed as, from the messages already sent and the rows
still to come on: its rows in order among other messages, then its commit. A row comes
under its own relation, if any was sent. -/
inductive Streams (t : Transaction) : List PgMessage → List Row → List Packet → Prop
  | commit (sent : List PgMessage) (body : List UInt8) :
      Streams t sent [] [⟨count 8 t.endLsn t.fits, .silent .commit body⟩]
  | row {sent : List PgMessage} {row : Row} {rows : List Row} {walEnd : WireInt 8}
      {rest : List Packet} (early : walEnd.val ≤ t.commitLsn)
      (described : ∀ r, latestRelation sent row.table.oid.val = some r →
        r.cached = row.table.cached)
      (later : Streams t (sent ++ [row.message]) rows rest) :
      Streams t sent (row :: rows) (⟨walEnd, row.message⟩ :: rest)
  | other {sent : List PgMessage} {m : PgMessage} {rows : List Row} {walEnd : WireInt 8}
      {rest : List Packet} (early : walEnd.val ≤ t.commitLsn) (silent : m.row? = none)
      (later : Streams t (sent ++ [m]) rows rest) : Streams t sent rows (⟨walEnd, m⟩ :: rest)

/-- The transaction being sent: its rows sent so far, and its packets still to come. -/
structure Sending where
  txn : Transaction
  done : Nat
  packets : List Packet

structure Session where
  running : Bool
  sent : List PgMessage
  consumer : Consumer
  sending : Option Sending
  queue : List Transaction
  feedback : List Int

/-- A message on the channel, with the row of the transaction it was published for. -/
structure Publication where
  commitLsn : Nat
  row : Nat
  message : Message

structure Replication where
  wal : List Transaction
  position : Nat
  confirmed : Option Int
  session : Option Session
  log : List Publication

/-- The slot as it is created: nothing is confirmed, and what is committed from now on is
kept. -/
def Replication.slot (position : Nat) : Replication := ⟨[], position, none, none, []⟩

/-- The server streams what committed at or after the confirmed position. -/
def Restreamed (confirmed : Option Int) (t : Transaction) : Prop :=
  ∀ lsn, confirmed = some lsn → lsn ≤ t.commitLsn

instance (confirmed : Option Int) (t : Transaction) : Decidable (Restreamed confirmed t) :=
  match confirmed with
  | none => .isTrue nofun
  | some lsn => decidable_of_iff (lsn ≤ t.commitLsn)
      ⟨fun below _ same => Option.some.inj same ▸ below, fun all => all lsn rfl⟩

namespace Session

def new (queue : List Transaction) : Session := ⟨true, [], .new, none, queue, []⟩

/-- The transactions not completely sent. -/
def unsent (o : Session) : List Transaction := (o.sending.map Sending.txn).toList ++ o.queue

/-- The session once a packet of the transaction is delivered. -/
def delivered (o : Session) (g : Sending) (p : Packet) (rest : List Packet) (c : Consumer) :
    Session :=
  { o with
    sent := o.sent ++ [p.message]
    consumer := c
    sending := match rest with
      | [] => none
      | _ => some ⟨g.txn, if p.message.row?.isSome then g.done + 1 else g.done, rest⟩ }

/-- What the consumer has published with this packet. -/
def publications (o : Session) (g : Sending) (c : Consumer) : List Publication :=
  (c.published.drop o.consumer.published.length).map fun message =>
    ⟨g.txn.commitLsn, g.done, message⟩

end Session

namespace Replication

/-- One step of the server, the consumer or the connection. -/
inductive Step (num : Numerals) : Replication → Replication → Prop
  | advance (s : Replication) (position : Nat) (later : s.position ≤ position) :
      Step num s { s with position := position }
  | commit (s : Replication) (t : Transaction) (later : s.position ≤ t.commitLsn) :
      Step num s { s with
        wal := s.wal ++ [t]
        position := t.endLsn
        session := s.session.map fun o => { o with queue := o.queue ++ [t] } }
  | start (s : Replication) (idle : s.session = none) :
      Step num s { s with
        session := some (.new (s.wal.filter fun t => decide (Restreamed s.confirmed t))) }
  | begin (s : Replication) (o : Session) (t : Transaction) (queue : List Transaction)
      (packets : List Packet) (current : s.session = some o) (idle : o.sending = none)
      (next : o.queue = t :: queue) (streams : Streams t o.sent t.rows packets) :
      Step num s { s with
        session := some { o with sending := some ⟨t, 0, packets⟩, queue := queue } }
  | deliver (s : Replication) (o : Session) (g : Sending) (p : Packet) (rest : List Packet)
      (publish : Message → Except PyError Unit) (walStart clock : WireInt 8) (c : Consumer)
      (reply : Bool) (current : s.session = some o) (running : o.running = true)
      (sending : o.sending = some g) (packets : g.packets = p :: rest)
      (received : onCopyMessage num publish o.consumer
        (CopyData.xlogData walStart p.walEnd clock p.message.encode).encode = (c, .ok reply)) :
      Step num s { s with
        session := some (o.delivered g p rest c)
        log := s.log ++ o.publications g c }
  | fail (s : Replication) (o : Session) (g : Sending) (p : Packet) (rest : List Packet)
      (publish : Message → Except PyError Unit) (walStart clock : WireInt 8) (c : Consumer)
      (e : PyError) (current : s.session = some o) (running : o.running = true)
      (sending : o.sending = some g) (packets : g.packets = p :: rest)
      (received : onCopyMessage num publish o.consumer
        (CopyData.xlogData walStart p.walEnd clock p.message.encode).encode = (c, .error e)) :
      Step num s { s with session := some { o with consumer := c, running := false } }
  | keepalive (s : Replication) (o : Session) (walEnd clock : WireInt 8) (reply : UInt8)
      (publish : Message → Except PyError Unit) (c : Consumer) (asked : Bool)
      (current : s.session = some o) (running : o.running = true)
      (reached : walEnd.val ≤ s.position) (promised : ∀ t ∈ o.unsent, walEnd.val ≤ t.commitLsn)
      (received : onCopyMessage num publish o.consumer
        (CopyData.keepalive walEnd clock reply).encode = (c, .ok asked)) :
      Step num s { s with
        session := some { o with
          consumer := c
          feedback := if asked then o.feedback ++ [c.lastLsn] else o.feedback } }
  | feedback (s : Replication) (o : Session) (current : s.session = some o) :
      Step num s { s with
        session := some { o with feedback := o.feedback ++ [o.consumer.lastLsn] } }
  -- the server takes a reported position of zero as no report
  | confirm (s : Replication) (o : Session) (lsn : Int) (rest : List Int)
      (current : s.session = some o) (next : o.feedback = lsn :: rest) :
      Step num s { s with
        confirmed := if lsn = 0 then s.confirmed else some lsn
        session := some { o with feedback := rest } }
  | stop (s : Replication) (o : Session) (current : s.session = some o) :
      Step num s { s with session := some { o with running := false } }
  -- feedback still on its way is lost with the connection, and so is the consumer
  | close (s : Replication) (o : Session) (current : s.session = some o)
      (stopped : o.running = false) : Step num s { s with session := none }

/-- The states from the creation of the slot on. -/
def Reachable (num : Numerals) (position : Nat) (s : Replication) : Prop :=
  Relation.ReflTransGen (Step num) (slot position) s

end Replication

end FleetTelemetry.Cdc
