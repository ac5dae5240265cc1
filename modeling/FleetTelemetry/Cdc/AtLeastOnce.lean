import FleetTelemetry.Cdc.Receiving

/-!
# At-least-once publication

The consumer takes a position as processed before it decodes the message. What keeps that
safe is that the position of a transaction's own messages never passes its commit: it does
so with the Commit message, after the last row.
-/

namespace FleetTelemetry.Cdc

open Foundations Foundations.Wire

section Safety

variable {num : Numerals}

/-- Row `i` of the transaction is published, if its table is watched. -/
def Published (num : Numerals) (log : List Publication) (t : Transaction) (i : Nat) : Prop :=
  ∀ row, t.rows[i]? = some row → row.watched →
    ∃ message, row.translation num = .ok (some message) ∧ ⟨t.commitLsn, i, message⟩ ∈ log

def Transaction.Published (num : Numerals) (log : List Publication) (t : Transaction) : Prop :=
  ∀ i, Cdc.Published num log t i

theorem Published.mono {log : List Publication} {t : Transaction} {i : Nat}
    (published : Published num log t i) (more : List Publication) :
    Published num (log ++ more) t i := by
  intro row present watched
  obtain ⟨message, translated, member⟩ := published row present watched
  exact ⟨message, translated, List.mem_append_left _ member⟩

/-- What holds of a session next to the server's WAL and the messages published. -/
structure Session.Sound (num : Numerals) (wal : List Transaction) (position : Nat)
    (log : List Publication) (o : Session) : Prop where
  cached : Cached o.consumer o.sent
  kept : ∀ t ∈ wal, t ∈ o.unsent ∨ t.Published num log
  ordered : o.unsent.Pairwise fun a b => a.endLsn ≤ b.commitLsn
  bounded : ∀ t ∈ o.unsent, t.endLsn ≤ position
  ahead : ∀ t ∈ o.unsent, o.consumer.lastLsn ≤ t.commitLsn
  reached : o.consumer.lastLsn ≤ position
  streams : ∀ g, o.sending = some g → Streams g.txn o.sent (g.txn.rows.drop g.done) g.packets
  begun : ∀ g, o.sending = some g → ∀ i < g.done, Published num log g.txn i
  acknowledged : ∀ lsn ∈ o.feedback, lsn ≤ o.consumer.lastLsn

structure Replication.Sound (num : Numerals) (s : Replication) : Prop where
  ordered : s.wal.Pairwise fun a b => a.endLsn ≤ b.commitLsn
  bounded : ∀ t ∈ s.wal, t.endLsn ≤ s.position
  safe : ∀ t ∈ s.wal, Restreamed s.confirmed t ∨ t.Published num s.log
  confirmed : ∀ lsn, s.confirmed = some lsn → lsn ≤ s.position
  session : ∀ o, s.session = some o → o.Sound num s.wal s.position s.log

theorem Replication.sound_slot (position : Nat) : (slot position).Sound num where
  ordered := .nil
  bounded := nofun
  safe := nofun
  confirmed := nofun
  session := nofun

namespace Session

variable {wal : List Transaction} {position : Nat} {log : List Publication} {o : Session}

theorem sound_new (confirmed : Option Int)
    (ordered : wal.Pairwise fun a b => a.endLsn ≤ b.commitLsn)
    (bounded : ∀ t ∈ wal, t.endLsn ≤ position)
    (safe : ∀ t ∈ wal, Restreamed confirmed t ∨ t.Published num log) :
    (new (wal.filter fun t => decide (Restreamed confirmed t))).Sound num wal position log where
  cached := cached_new
  kept := by
    intro t member
    -- a new session starts with all that is streamed again in its queue
    refine (safe t member).imp_left fun restreamed => ?_
    simpa [new, unsent] using ⟨member, restreamed⟩
  ordered := ordered.sublist List.filter_sublist
  bounded := fun t member => bounded t (List.mem_filter.mp member).1
  ahead := fun t _ => Int.natCast_nonneg t.commitLsn
  reached := Int.natCast_nonneg position
  streams := nofun
  begun := nofun
  acknowledged := nofun

/-- The consumer may move its position up to what the transactions to come allow. -/
theorem Sound.advance (sound : o.Sound num wal position log) {lsn : Int}
    (ahead : ∀ t ∈ o.unsent, lsn ≤ t.commitLsn) (reached : lsn ≤ position) :
    Sound num wal position log
      { o with consumer := { o.consumer with lastLsn := max o.consumer.lastLsn lsn } } where
  cached := sound.cached
  kept := sound.kept
  ordered := sound.ordered
  bounded := sound.bounded
  ahead := fun t member => max_le (sound.ahead t member) (ahead t member)
  reached := max_le sound.reached reached
  streams := sound.streams
  begun := sound.begun
  acknowledged := fun l member => (sound.acknowledged l member).trans (le_max_left _ _)

theorem Sound.enqueue (sound : o.Sound num wal position log) (t : Transaction)
    (later : position ≤ t.commitLsn) :
    Sound num (wal ++ [t]) t.endLsn log { o with queue := o.queue ++ [t] } := by
  have unsent : ∀ u, u ∈ unsent { o with queue := o.queue ++ [t] } ↔ u ∈ o.unsent ∨ u = t := by
    intro u
    simp [Session.unsent, or_assoc]
  have ends := t.ends
  -- the new transaction commits after everything that has been sent or confirmed
  refine ⟨sound.cached, ?_, ?_, ?_, ?_, ?_, sound.streams, sound.begun, sound.acknowledged⟩
  · intro u member
    rw [unsent]
    rcases List.mem_append.mp member with old | new
    · exact (sound.kept u old).imp_left .inl
    · exact .inl (.inr (List.mem_singleton.mp new))
  · have appended : Session.unsent { o with queue := o.queue ++ [t] } = o.unsent ++ [t] := by
      simp [Session.unsent]
    rw [appended]
    refine List.pairwise_append.mpr ⟨sound.ordered, List.pairwise_singleton _ _, ?_⟩
    intro u member v last
    rw [List.mem_singleton.mp last]
    exact (sound.bounded u member).trans later
  · intro u member
    rcases (unsent u).mp member with old | rfl
    · have bound := sound.bounded u old
      omega
    · exact le_rfl
  · intro u member
    rcases (unsent u).mp member with old | rfl
    · exact sound.ahead u old
    · have bound := sound.reached
      change o.consumer.lastLsn ≤ _
      omega
  · have bound := sound.reached
    change o.consumer.lastLsn ≤ _
    omega

theorem Sound.begin (sound : o.Sound num wal position log) {t : Transaction}
    {queue : List Transaction} {packets : List Packet} (idle : o.sending = none)
    (next : o.queue = t :: queue) (streams : Streams t o.sent t.rows packets) :
    Sound num wal position log { o with sending := some ⟨t, 0, packets⟩, queue := queue } := by
  have unsent : Session.unsent { o with sending := some ⟨t, 0, packets⟩, queue := queue } =
      o.unsent := by
    simp [Session.unsent, idle, next]
  refine ⟨sound.cached, ?_, ?_, ?_, ?_, sound.reached, ?_, ?_, sound.acknowledged⟩
  -- a transaction moves from the queue to the front, still unsent
  · rw [unsent]; exact sound.kept
  · rw [unsent]; exact sound.ordered
  · rw [unsent]; exact sound.bounded
  · rw [unsent]; exact sound.ahead
  · rintro g ⟨⟩
    exact streams
  · rintro g ⟨⟩ i before
    exact (Nat.not_lt_zero i before).elim

theorem unsent_sending {g : Sending} (sending : o.sending = some g) :
    o.unsent = g.txn :: o.queue := by
  rw [unsent, sending]
  rfl

theorem Sound.queued (sound : o.Sound num wal position log) {g : Sending}
    (sending : o.sending = some g) : ∀ t ∈ o.queue, g.txn.endLsn ≤ t.commitLsn := by
  have ordered := sound.ordered
  rw [unsent_sending sending] at ordered
  exact (List.pairwise_cons.mp ordered).1

/-- What the transaction being sent allows, those after it allow too. -/
theorem Sound.early (sound : o.Sound num wal position log) {g : Sending}
    (sending : o.sending = some g) {lsn : Int} (early : lsn ≤ g.txn.commitLsn) :
    (∀ t ∈ o.unsent, lsn ≤ t.commitLsn) ∧ lsn ≤ position := by
  have ends := g.txn.ends
  have queued := sound.queued sending
  have bounded := sound.bounded
  rw [unsent_sending sending] at bounded ⊢
  constructor
  · intro t present
    rcases List.mem_cons.mp present with rfl | waiting
    · exact early
    · have after := queued t waiting
      omega
  · have inside := bounded g.txn List.mem_cons_self
    omega

/-- A message of a transaction before its commit. -/
theorem Sound.progress (sound : o.Sound num wal position log) {g : Sending} {p : Packet}
    {rest : List Packet} {rows : List Row} {c : Consumer} (more : List Publication)
    (sending : o.sending = some g) (early : p.walEnd.val ≤ g.txn.commitLsn)
    (cached : Cached c (o.sent ++ [p.message]))
    (lastLsn : c.lastLsn = max o.consumer.lastLsn p.walEnd.val)
    (later : Streams g.txn (o.sent ++ [p.message]) rows rest)
    (remaining : rows = g.txn.rows.drop
      (if p.message.row?.isSome then g.done + 1 else g.done))
    (begun : ∀ i < if p.message.row?.isSome then g.done + 1 else g.done,
      Published num (log ++ more) g.txn i) :
    (o.delivered g p rest c).Sound num wal position (log ++ more) := by
  -- the commit packet is still to come, so the transaction stays the one being sent
  obtain ⟨first, others, rfl⟩ : ∃ first others, rest = first :: others := by
    cases later <;> exact ⟨_, _, rfl⟩
  have unsent : (o.delivered g p (first :: others) c).unsent = o.unsent := by
    rw [unsent_sending sending]
    rfl
  obtain ⟨allowed, inside⟩ := sound.early sending early
  refine ⟨cached, ?_, ?_, ?_, ?_, ?_, ?_, ?_, ?_⟩
  · rw [unsent]
    exact fun t kept => (sound.kept t kept).imp_right fun all i => (all i).mono more
  · rw [unsent]; exact sound.ordered
  · rw [unsent]; exact sound.bounded
  · rw [unsent]
    intro t present
    change c.lastLsn ≤ _
    exact lastLsn ▸ max_le (sound.ahead t present) (allowed t present)
  · change c.lastLsn ≤ _
    exact lastLsn ▸ max_le sound.reached inside
  · rintro g' ⟨⟩
    exact remaining ▸ later
  · rintro g' ⟨⟩
    exact begun
  · intro lsn acknowledged
    change lsn ≤ c.lastLsn
    rw [lastLsn]
    exact (sound.acknowledged lsn acknowledged).trans (le_max_left _ _)

/-- The Commit message of a transaction, whose rows have all been published. -/
theorem Sound.finish (sound : o.Sound num wal position log) {g : Sending} {p : Packet}
    {c : Consumer} (sending : o.sending = some g) (commits : p.walEnd.val = g.txn.endLsn)
    (cached : Cached c (o.sent ++ [p.message]))
    (lastLsn : c.lastLsn = max o.consumer.lastLsn p.walEnd.val)
    (sent : g.txn.rows.drop g.done = []) :
    (o.delivered g p [] c).Sound num wal position log := by
  have unsent : (o.delivered g p [] c).unsent = o.queue := rfl
  have queued : ∀ t ∈ o.queue, t ∈ o.unsent := by
    intro t member
    rw [unsent_sending sending]
    exact List.mem_cons_of_mem _ member
  have inside : g.txn.endLsn ≤ position := by
    apply sound.bounded
    rw [unsent_sending sending]
    exact List.mem_cons_self
  -- every row was published when it was sent, and none is left to send
  have complete : g.txn.Published num log := by
    intro i
    by_cases before : i < g.done
    · exact sound.begun g sending i before
    · intro row present
      have past : g.txn.rows[i]? = none := by
        rw [List.getElem?_eq_none]
        have short := List.drop_eq_nil_iff.mp sent
        omega
      rw [past] at present
      cases present
  have reached := sound.reached
  refine ⟨cached, ?_, ?_, ?_, ?_, ?_, nofun, nofun, ?_⟩
  · intro t kept
    rw [unsent]
    rcases sound.kept t kept with open_ | published
    · rw [unsent_sending sending] at open_
      rcases List.mem_cons.mp open_ with rfl | waiting
      · exact .inr complete
      · exact .inl waiting
    · exact .inr published
  · have ordered := sound.ordered
    rw [unsent_sending sending] at ordered
    exact (List.pairwise_cons.mp ordered).2
  · exact fun t member => sound.bounded t (queued t member)
  · intro t member
    change c.lastLsn ≤ _
    have before := sound.ahead t (queued t member)
    have after := sound.queued sending t member
    omega
  · change c.lastLsn ≤ _
    omega
  · intro lsn acknowledged
    change lsn ≤ c.lastLsn
    rw [lastLsn]
    exact (sound.acknowledged lsn acknowledged).trans (le_max_left _ _)

theorem publications_eq {g : Sending} {c : Consumer} (new : List Message)
    (published : c.published = o.consumer.published ++ new) :
    o.publications g c = new.map fun message => ⟨g.txn.commitLsn, g.done, message⟩ := by
  rw [publications, published, List.drop_left' rfl]

/-- A delivered packet: the rows already sent are published, this one included. -/
theorem Sound.deliver (sound : o.Sound num wal position log) {g : Sending} {p : Packet}
    {rest : List Packet} {publish : Message → Except PyError Unit}
    {walStart clock : WireInt 8} {c : Consumer} {reply : Bool} (sending : o.sending = some g)
    (packets : g.packets = p :: rest)
    (received : onCopyMessage num publish o.consumer
      (CopyData.xlogData walStart p.walEnd clock p.message.encode).encode = (c, .ok reply)) :
    (o.delivered g p rest c).Sound num wal position (log ++ o.publications g c) := by
  have decoded := received_ok received
  have streams := sound.streams g sending
  have before : Cached { o.consumer with lastLsn := max o.consumer.lastLsn p.walEnd.val } o.sent :=
    sound.cached
  have begun := sound.begun g sending
  rw [packets] at streams
  -- by what the packet is in the stream of its transaction
  generalize left : g.txn.rows.drop g.done = rows at streams
  cases streams with
  | commit _ body =>
    rw [decodePgoutput_other _ _ rfl] at decoded
    have same := Except.ok.inj decoded
    have none : o.publications g c = [] := publications_eq [] (by simp [← same])
    rw [none, List.append_nil]
    exact sound.finish sending rfl (same ▸ before.remember _) (by rw [← same]; rfl) left
  | @other _ m _ _ _ early silent later =>
    rw [decodePgoutput_other _ _ silent] at decoded
    have same := Except.ok.inj decoded
    have none : o.publications g c = [] := publications_eq [] (by simp [← same])
    rw [none]
    refine sound.progress [] sending early (same ▸ before.remember m) ?_ later ?_ ?_
    · rw [← same, remember_lastLsn]
    · simp [silent, left]
    · rw [List.append_nil]
      simpa [silent] using begun
  | @row _ row rows _ _ early described later =>
    obtain ⟨e, translated, rfl⟩ := decodePgoutput_row_ok before described decoded
    have isRow : row.message.row?.isSome = true := by rw [row.shape]; rfl
    have here : g.txn.rows[g.done]? = some row := by
      rw [← List.head?_drop, left]
      rfl
    rw [publications_eq e.toList rfl]
    refine sound.progress _ sending early ?_ rfl later ?_ ?_
    · have kept := before.remember row.message
      have shape := row.shape
      generalize row.message = m at kept shape
      cases m with
      | relation | silent => cases shape
      | insert | update => exact kept
    · rw [if_pos isRow, ← List.tail_drop, left, List.tail_cons]
    · intro i bound
      rw [if_pos isRow] at bound
      -- an earlier row stays published; row `done` is published with this packet
      by_cases old : i < g.done
      · exact (begun i old).mono _
      · have same : i = g.done := by omega
        subst i
        intro row' present watched
        rw [here] at present
        cases present
        obtain ⟨message, rfl⟩ := translation_watched watched translated
        exact ⟨message, translated, by simp⟩

/-- A packet that fails is one before the commit, so its transaction comes again. -/
theorem Sound.fail (sound : o.Sound num wal position log) {g : Sending} {p : Packet}
    {rest : List Packet} {publish : Message → Except PyError Unit}
    {walStart clock : WireInt 8} {c : Consumer} {e : PyError} (sending : o.sending = some g)
    (packets : g.packets = p :: rest)
    (received : onCopyMessage num publish o.consumer
      (CopyData.xlogData walStart p.walEnd clock p.message.encode).encode = (c, .error e)) :
    Sound num wal position log { o with consumer := c, running := false } := by
  -- the Commit message publishes nothing and cannot fail
  have early : p.walEnd.val ≤ g.txn.commitLsn := by
    have streams := sound.streams g sending
    rw [packets] at streams
    generalize g.txn.rows.drop g.done = rows at streams
    cases streams with
    | commit =>
      rw [onCopyMessage_xlogData, decodePgoutput_other _ _ rfl] at received
      cases (Prod.mk.inj received).2
    | row early => exact early
    | other early => exact early
  obtain ⟨allowed, inside⟩ := sound.early sending early
  rw [received_error received]
  exact { sound.advance allowed inside with }

end Session

namespace Replication

theorem Sound.advance {s : Replication} (sound : s.Sound num) {position : Nat}
    (later : s.position ≤ position) : Sound num { s with position := position } := by
  refine ⟨sound.ordered, ?_, sound.safe, ?_, ?_⟩
  · exact fun t member => (sound.bounded t member).trans later
  · intro lsn same
    have bound := sound.confirmed lsn same
    change lsn ≤ (position : Int)
    omega
  · intro o current
    have session := sound.session o current
    have reached := session.reached
    refine { session with bounded := ?_, reached := ?_ }
    · exact fun t member => (session.bounded t member).trans later
    · change o.consumer.lastLsn ≤ (position : Int)
      omega

/-- A new transaction commits after everything that is confirmed, so it is still streamed. -/
theorem Sound.commit {s : Replication} (sound : s.Sound num) (t : Transaction)
    (later : s.position ≤ t.commitLsn) : Sound num { s with
      wal := s.wal ++ [t]
      position := t.endLsn
      session := s.session.map fun o => { o with queue := o.queue ++ [t] } } := by
  have ends := t.ends
  refine ⟨?_, ?_, ?_, ?_, ?_⟩
  · refine List.pairwise_append.mpr ⟨sound.ordered, List.pairwise_singleton _ _, ?_⟩
    intro u member v last
    rw [List.mem_singleton.mp last]
    exact (sound.bounded u member).trans later
  · intro u member
    change u.endLsn ≤ t.endLsn
    rcases List.mem_append.mp member with old | new
    · have bound := sound.bounded u old
      omega
    · rw [List.mem_singleton.mp new]
  · intro u member
    rcases List.mem_append.mp member with old | new
    · exact sound.safe u old
    -- whatever is confirmed lies before the new commit, so the next session streams it
    · left
      rw [List.mem_singleton.mp new]
      intro lsn same
      have bound := sound.confirmed lsn same
      omega
  · intro lsn same
    have bound := sound.confirmed lsn same
    change lsn ≤ (t.endLsn : Int)
    omega
  · intro o current
    obtain ⟨o', present, rfl⟩ := Option.map_eq_some_iff.mp current
    exact (sound.session o' present).enqueue t later

/-- A reported position came from the consumer, which is behind all that is unsent. -/
theorem Sound.confirm {s : Replication} (sound : s.Sound num) {o : Session} {lsn : Int}
    {rest : List Int} (current : s.session = some o) (next : o.feedback = lsn :: rest) :
    Sound num { s with
      confirmed := if lsn = 0 then s.confirmed else some lsn
      session := some { o with feedback := rest } } := by
  have session := sound.session o current
  have acknowledged : lsn ≤ o.consumer.lastLsn :=
    session.acknowledged lsn (next ▸ List.mem_cons_self)
  refine { sound with safe := ?_, confirmed := ?_, session := ?_ }
  · intro t member
    change Restreamed (if lsn = 0 then s.confirmed else some lsn) t ∨ _
    -- position zero confirms nothing; any other is behind what has not been sent
    split
    · exact sound.safe t member
    · refine (session.kept t member).imp_left fun unsent => ?_
      rintro l ⟨⟩
      exact acknowledged.trans (session.ahead t unsent)
  · intro l same
    change (if lsn = 0 then s.confirmed else some lsn) = some l at same
    split at same
    · exact sound.confirmed l same
    · cases same
      exact acknowledged.trans session.reached
  · rintro o' ⟨⟩
    exact { session with
      acknowledged := fun l later =>
        session.acknowledged l (next ▸ List.mem_cons_of_mem _ later) }

theorem Sound.step {s s' : Replication} (sound : s.Sound num) (step : Step num s s') :
    s'.Sound num := by
  cases step with
  | advance position later => exact sound.advance later
  | commit t later => exact sound.commit t later
  | start idle =>
    refine { sound with session := ?_ }
    rintro o ⟨⟩
    exact Session.sound_new s.confirmed sound.ordered sound.bounded sound.safe
  | begin o t queue packets current idle next streams =>
    refine { sound with session := ?_ }
    rintro o' ⟨⟩
    exact (sound.session o current).begin idle next streams
  | deliver o g p rest publish walStart clock c reply current running sending packets received =>
    refine { sound with safe := ?_, session := ?_ }
    · exact fun t member => (sound.safe t member).imp_right fun all i => (all i).mono _
    · rintro o' ⟨⟩
      exact (sound.session o current).deliver sending packets received
  | fail o g p rest publish walStart clock c e current running sending packets received =>
    refine { sound with session := ?_ }
    rintro o' ⟨⟩
    exact (sound.session o current).fail sending packets received
  | keepalive o walEnd clock reply publish c asked current running reached promised received =>
    refine { sound with session := ?_ }
    rintro o' ⟨⟩
    rw [onCopyMessage_keepalive] at received
    cases received
    have advanced := (sound.session o current).advance promised (by omega)
    -- a keepalive that asks for a reply is answered with the position it has brought
    refine { advanced with acknowledged := ?_ }
    intro lsn member
    change lsn ∈ (if _ then _ else _) at member
    split at member
    · rcases List.mem_append.mp member with old | new
      · exact advanced.acknowledged lsn old
      · rw [List.mem_singleton.mp new]
    · exact advanced.acknowledged lsn member
  | feedback o current =>
    refine { sound with session := ?_ }
    rintro o' ⟨⟩
    have session := sound.session o current
    refine { session with acknowledged := ?_ }
    intro lsn member
    rcases List.mem_append.mp member with old | new
    · exact session.acknowledged lsn old
    · rw [List.mem_singleton.mp new]
  | confirm o lsn rest current next => exact sound.confirm current next
  | stop o current =>
    refine { sound with session := ?_ }
    rintro o' ⟨⟩
    exact { sound.session o current with }
  | close o current stopped => exact { sound with session := nofun }

theorem Reachable.sound {position : Nat} {s : Replication}
    (reachable : Reachable num position s) : s.Sound num := by
  induction reachable with
  | refl => exact sound_slot position
  | tail _ step ih => exact ih.step step

/-- Every row of a watched table that committed since the slot was created is published, or
its transaction commits at or after the confirmed position and is streamed again. A
session that is open still has to send what is not published. -/
theorem reachable_published_or_restreamed (num : Numerals) (position : Nat) (s : Replication)
    (reachable : Reachable num position s) (t : Transaction) (committed : t ∈ s.wal) :
    (Restreamed s.confirmed t ∨ t.Published num s.log) ∧
      ∀ o, s.session = some o → t ∈ o.unsent ∨ t.Published num s.log :=
  ⟨reachable.sound.safe t committed,
    fun o current => (reachable.sound.session o current).kept t committed⟩

end Replication

def chargingTuple : Tuple :=
  ⟨[.text "charging_1", .text "1"], firstCount_fits, firstCount_texts_fit⟩

def chargingRow : Row where
  message := .insert zoneCountsRelation.oid chargingTuple
  table := zoneCountsRelation
  old := none
  new := chargingTuple
  shape := rfl
  new_fits := by decide
  old_fits := nofun

def chargingTransaction : Transaction := ⟨500, 540, [chargingRow], by decide, by decide⟩

def at500 : WireInt 8 := ⟨500, by decide⟩

def chargingPackets : List Packet :=
  [⟨at500, .relation zoneCountsRelation⟩, ⟨at500, chargingRow.message⟩,
    ⟨count 8 540 (by decide), .silent .commit []⟩]

theorem chargingPackets_streams :
    Streams chargingTransaction [] [chargingRow] chargingPackets := by
  refine .other (by decide) rfl (.row (by decide) ?_ (.commit _ []))
  intro r latest
  have same : some zoneCountsRelation = some r := latest
  cases same
  rfl

/-- A session that fails on the row and confirms its position, and the next one that
publishes it. -/
theorem chargingTransaction_retried :
    ∃ s, Replication.Reachable digit 100 s ∧ chargingTransaction ∈ s.wal ∧
      s.confirmed = some 500 ∧ s.log.map Publication.message =
        [⟨zoneCountChanged, [("zone_id", .string "charging_1"), ("entry_count", .integer 1)]⟩] := by
  refine ⟨?state, ?run, ?_, ?_, ?_⟩
  case run =>
    refine .head (.commit _ chargingTransaction (by decide)) ?_
    refine .head (.start _ rfl) ?_
    refine .head (.begin _ _ _ _ chargingPackets rfl rfl rfl chargingPackets_streams) ?_
    refine .head (.deliver _ _ _ _ _ (fun _ => .ok ()) at500 at500 _ _ rfl rfl rfl rfl
      (by rw [onCopyMessage_xlogData]; rfl)) ?_
    refine .head (.fail _ _ _ _ _ (fun _ => .error .typeError) at500 at500 _ _ rfl rfl rfl rfl
      (by rw [onCopyMessage_xlogData]; rfl)) ?_
    refine .head (.feedback _ _ rfl) ?_
    refine .head (.confirm _ _ _ _ rfl rfl) ?_
    refine .head (.close _ _ rfl rfl) ?_
    -- the second session starts over, with an empty cache and its position at zero
    refine .head (.start _ rfl) ?_
    refine .head (.begin _ _ _ _ chargingPackets rfl rfl rfl chargingPackets_streams) ?_
    refine .head (.deliver _ _ _ _ _ (fun _ => .ok ()) at500 at500 _ _ rfl rfl rfl rfl
      (by rw [onCopyMessage_xlogData]; rfl)) ?_
    refine .head (.deliver _ _ _ _ _ (fun _ => .ok ()) at500 at500 _ _ rfl rfl rfl rfl
      (by rw [onCopyMessage_xlogData]; rfl)) ?_
    refine .head (.deliver _ _ _ _ _ (fun _ => .ok ()) at500 at500 _ _ rfl rfl rfl rfl
      (by rw [onCopyMessage_xlogData]; rfl)) ?_
    exact .refl
  · exact List.mem_singleton_self _
  · decide +kernel
  · decide +kernel

/-- After the retry the row is published, though its transaction may be streamed again. -/
theorem reachable_published_or_restreamed_retry :
    ∃ s, Replication.Reachable digit 100 s ∧ chargingTransaction ∈ s.wal ∧
      s.confirmed = some 500 ∧ s.log.map Publication.message =
        [⟨zoneCountChanged, [("zone_id", .string "charging_1"), ("entry_count", .integer 1)]⟩] ∧
      (Restreamed s.confirmed chargingTransaction ∨ chargingTransaction.Published digit s.log) ∧
      ∀ o, s.session = some o →
        chargingTransaction ∈ o.unsent ∨ chargingTransaction.Published digit s.log := by
  obtain ⟨s, reachable, committed, confirmed, log⟩ := chargingTransaction_retried
  have kept := Replication.reachable_published_or_restreamed digit 100 s reachable
    chargingTransaction committed
  exact ⟨s, reachable, committed, confirmed, log, kept⟩

end Safety

end FleetTelemetry.Cdc
