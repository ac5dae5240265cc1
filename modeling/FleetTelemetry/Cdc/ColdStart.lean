import FleetTelemetry.Cdc.Supervisor
import Mathlib.Logic.Function.Basic
import Mathlib.Logic.Relation

/-!
# A cold start

Any number of `cdc` services next to the primary they stream from, which is migrated while
they already run. What the probe, the slot and the stream of a supervisor come to is now what
the catalog holds at that moment, or that the primary was not reached.
-/

namespace FleetTelemetry.Cdc

open Foundations

/-- The logical slot: where it starts to decode, and the connection that reads it. -/
structure Slot (C : Type) where
  anchor : Nat
  reader : Option C

/-- The primary: the end of its WAL, where the publication was committed, and the slot. -/
structure Primary (C : Type) where
  position : Nat
  publication : Option Nat
  slot : Option (Slot C)

/-- Where a stream attempt is. `ensure_slot` is called by `run_forever`, and again by `run`. -/
inductive Attempt where
  | outside
  | looking (nested : Bool)
  | creating (nested : Bool)
  | starting
  | streaming
  deriving DecidableEq, Repr

structure Service where
  loop : Supervisor
  attempt : Attempt

structure Cluster (C : Type) where
  primary : Primary C
  service : C → Service

inductive Event (C : Type) where
  | commit
  /-- Migration `0009`. -/
  | migrate
  /-- The server ends the connection that reads the slot. -/
  | terminate
  /-- `drop_slot`. -/
  | drop
  /-- An action of the supervisor that asks nothing of the primary. -/
  | loop (i : C) (a : Act)
  | probe (i : C) (reached : Bool)
  | look (i : C) (reached : Bool)
  | create (i : C) (reached : Bool) (ahead : Nat)
  | start (i : C) (reached : Bool)
  | leave (i : C) (raised : Bool)
  | crash (i : C)

/-- The supervisor does it by itself. -/
def Act.alone : Act → Bool
  | .setStop | .test | .waitReady _ | .checkStop | .waitStream _ | .woken => true
  | .probe _ | .ensureSlot _ | .run _ _ => false

namespace Cluster

variable {C : Type} [DecidableEq C]

def put (s : Cluster C) (i : C) (v : Service) : Cluster C :=
  { s with service := Function.update s.service i v }

/-- The supervisor goes on, with the attempt at the given point. -/
def go (s : Cluster C) (i : C) (a : Act) (attempt : Attempt) : Option (Cluster C) :=
  ((s.service i).loop.step a).map fun loop => s.put i ⟨loop, attempt⟩

/-- `ensure_slot` returns. -/
def ensured (s : Cluster C) (i : C) (nested : Bool) : Option (Cluster C) :=
  if nested then some (s.put i { s.service i with attempt := .starting })
  else s.go i (.ensureSlot false) (.looking true)

/-- The attempt raises before it streams. -/
def raise (s : Cluster C) (i : C) (nested : Bool) : Option (Cluster C) :=
  s.go i (if nested then .run true false else .ensureSlot true) .outside

def release (p : Primary C) : Primary C :=
  { p with slot := p.slot.map fun slot => { slot with reader := none } }

/-- The connection of a consumer is closed. -/
def finish (p : Primary C) (i : C) : Primary C :=
  if p.slot.bind Slot.reader = some i then release p else p

def step (s : Cluster C) : Event C → Option (Cluster C)
  | .commit => some { s with primary := { s.primary with position := s.primary.position + 1 } }
  | .migrate =>
    match s.primary.publication with
    | some _ => some s
    | none => some { s with primary := { s.primary with
        publication := some s.primary.position
        position := s.primary.position + 1 } }
  | .terminate => some { s with primary := release s.primary }
  | .drop =>
    match s.primary.slot with
    -- an active slot cannot be dropped
    | some ⟨_, some _⟩ => some s
    | _ => some { s with primary := { s.primary with slot := none } }
  | .loop i a => if a.alone then s.go i a (s.service i).attempt else none
  | .probe i reached =>
    if reached = false then s.go i (.probe .raised) .outside
    else if s.primary.publication.isSome then s.go i (.probe .present) (.looking false)
    else s.go i (.probe .absent) .outside
  | .look i reached =>
    match (s.service i).attempt with
    | .looking nested =>
      if reached = false then s.raise i nested
      else match s.primary.slot with
        | some _ => s.ensured i nested
        | none => some (s.put i { s.service i with attempt := .creating nested })
    | _ => none
  | .create i reached ahead =>
    match (s.service i).attempt with
    | .creating nested =>
      if reached = false then s.raise i nested
      else match s.primary.slot with
        -- another service created it since
        | some _ => s.raise i nested
        -- the slot decodes from a point where no transaction is open any more
        | none => ensured { s with primary := { s.primary with
            position := s.primary.position + ahead
            slot := some ⟨s.primary.position + ahead, none⟩ } } i nested
    | _ => none
  | .start i reached =>
    match (s.service i).attempt with
    | .starting =>
      if reached = false then s.raise i true
      else match s.primary.slot with
        | some ⟨anchor, none⟩ => some (put
            { s with primary := { s.primary with slot := some ⟨anchor, some i⟩ } } i
            { s.service i with attempt := .streaming })
        | _ => s.raise i true
    | _ => none
  | .leave i raised =>
    match (s.service i).attempt with
    | .streaming => go { s with primary := finish s.primary i } i (.run raised true) .outside
    | _ => none
  -- the process is killed and started again; the server still has its connection
  | .crash i => some (s.put i ⟨.start false, .outside⟩)

/-- The services are started, on a primary that is not migrated yet. -/
def start (position : Nat) : Cluster C :=
  ⟨⟨position, none, none⟩, fun _ => ⟨.start false, .outside⟩⟩

end Cluster

/-- The points of an attempt that go with a point of the supervisor. -/
def Inside : Pc → Attempt → Prop
  | .attempting, at_ => at_ = .looking false ∨ at_ = .creating false
  | .running, at_ =>
    at_ = .looking true ∨ at_ = .creating true ∨ at_ = .starting ∨ at_ = .streaming
  | _, at_ => at_ = .outside

/-- What holds of the primary: the publication is in its past, and a slot decodes from behind
the publication only. -/
structure Primary.Anchored {C : Type} (p : Primary C) : Prop where
  past : ∀ lsn, p.publication = some lsn → lsn < p.position
  slot : ∀ slot, p.slot = some slot → ∃ lsn, p.publication = some lsn ∧ lsn < slot.anchor

namespace Cluster

variable {C : Type} [DecidableEq C]

@[simp] theorem service_put (s : Cluster C) (i : C) (v : Service) :
    (s.put i v).service i = v := by
  simp only [put, Function.update_self]

@[simp] theorem service_put_of_ne (s : Cluster C) {i j : C} (v : Service) (other : j ≠ i) :
    (s.put i v).service j = s.service j := by
  simp only [put, Function.update_of_ne other]

@[simp] theorem primary_put (s : Cluster C) (i : C) (v : Service) :
    (s.put i v).primary = s.primary := rfl

omit [DecidableEq C] in
theorem anchored_release {p : Primary C} (anchored : p.Anchored) : (release p).Anchored := by
  refine ⟨anchored.past, ?_⟩
  intro slot found
  obtain ⟨slot', found', rfl⟩ := Option.map_eq_some_iff.mp found
  exact anchored.slot slot' found'

/-- What every event preserves. -/
structure Safe (s : Cluster C) : Prop where
  anchored : s.primary.Anchored
  attempts : ∀ i, (s.service i).attempt ≠ .outside → s.primary.publication.isSome = true
  inside : ∀ i, Inside (s.service i).loop.pc (s.service i).attempt
  returned : ∀ i, (s.service i).loop.pc = .returned → (s.service i).loop.stop = true

namespace Safe

variable {s s' : Cluster C} {i : C}

omit [DecidableEq C] in
theorem withPrimary (safe : s.Safe) {p : Primary C} (anchored : p.Anchored)
    (kept : s.primary.publication.isSome = true → p.publication.isSome = true) :
    Safe { s with primary := p } :=
  ⟨anchored, fun i inside => kept (safe.attempts i inside), safe.inside, safe.returned⟩

theorem put (safe : s.Safe) {v : Service} (inside : Inside v.loop.pc v.attempt)
    (ready : v.attempt ≠ .outside → s.primary.publication.isSome = true)
    (returned : v.loop.pc = .returned → v.loop.stop = true) : Safe (s.put i v) := by
  refine ⟨safe.anchored, ?_, ?_, ?_⟩
  -- only the written service can be inside an attempt it was not inside before
  · intro j attempting
    by_cases same : j = i
    · subst same
      rw [service_put] at attempting
      exact ready attempting
    · rw [service_put_of_ne s v same] at attempting
      exact safe.attempts j attempting
  · intro j
    by_cases same : j = i
    · subst same
      rw [service_put]
      exact inside
    · rw [service_put_of_ne s v same]
      exact safe.inside j
  · intro j
    by_cases same : j = i
    · subst same
      rw [service_put]
      exact returned
    · rw [service_put_of_ne s v same]
      exact safe.returned j

theorem go (safe : s.Safe) {a : Act} {at_ : Attempt} (performed : s.go i a at_ = some s')
    (inside : ∀ loop, (s.service i).loop.step a = some loop → Inside loop.pc at_)
    (ready : at_ ≠ .outside → s.primary.publication.isSome = true) : s'.Safe := by
  obtain ⟨loop, step, rfl⟩ := Option.map_eq_some_iff.mp performed
  -- the flag of a returned service is its own: no other act clears it
  refine safe.put (inside loop step) ready fun returned => ?_
  obtain ⟨flag, before⟩ := Supervisor.step_flag step
  rcases before returned with before | stopped
  · exact flag.mpr (.inl (safe.returned i before))
  · exact stopped

theorem alone (safe : s.Safe) {a : Act} (own : a.alone = true)
    (performed : s.go i a (s.service i).attempt = some s') : s'.Safe := by
  refine safe.go performed ?_ (safe.attempts i)
  intro loop step
  have inside := safe.inside i
  have effect := Supervisor.step_cases step
  cases a with
  -- the flag does not move the loop, so it is inside what it was inside
  | setStop =>
    obtain rfl : loop = _ := effect
    exact inside
  | test =>
    obtain ⟨pc, rfl⟩ := effect
    rw [pc] at inside
    dsimp only
    split <;> exact inside
  | waitReady | waitStream =>
    obtain ⟨pc, _, rfl⟩ := effect
    rw [pc] at inside
    exact inside
  | checkStop =>
    obtain ⟨streaming, pc, rfl⟩ := effect
    rw [pc] at inside
    split <;> exact inside
  -- a wait ends at the top or in the return, neither inside an attempt
  | woken =>
    rcases effect with ⟨pc, rfl⟩ | ⟨pc, rfl⟩
    · rw [pc] at inside
      split <;> exact inside
    · rw [pc] at inside
      split <;> exact inside
  -- these three are acts of the attempt, not of the loop alone
  | probe | ensureSlot | run => cases own

theorem raise (safe : s.Safe) {nested : Bool} (performed : s.raise i nested = some s') :
    s'.Safe := by
  refine safe.go performed ?_ (fun inside => (inside rfl).elim)
  intro loop step
  have effect := Supervisor.step_cases step
  cases nested with
  | true =>
    obtain ⟨_, rfl⟩ := effect
    rfl
  | false =>
    obtain ⟨_, rfl⟩ := effect
    rfl

theorem ensured (safe : s.Safe) {nested : Bool} (performed : s.ensured i nested = some s')
    (called : (s.service i).loop.pc = if nested then .running else .attempting)
    (ready : s.primary.publication.isSome = true) : s'.Safe := by
  cases nested with
  | true =>
    cases performed
    refine safe.put ?_ (fun _ => ready) (safe.returned i)
    rw [called]
    exact .inr (.inr (.inl rfl))
  | false =>
    refine safe.go performed ?_ fun _ => ready
    intro loop step
    obtain ⟨_, rfl⟩ := Supervisor.step_cases step
    exact .inl rfl

omit [DecidableEq C] in
/-- Where `ensure_slot` was called. -/
theorem called (safe : s.Safe) {nested : Bool}
    (at_ : (s.service i).attempt = .looking nested ∨ (s.service i).attempt = .creating nested) :
    (s.service i).loop.pc = (if nested then .running else .attempting) ∧
      s.primary.publication.isSome = true := by
  have inside := safe.inside i
  constructor
  · cases pc : (s.service i).loop.pc <;> rw [pc] at inside <;>
      rcases at_ with at_ | at_ <;> cases nested <;> simp [Inside, at_] at inside ⊢
  · refine safe.attempts i ?_
    rcases at_ with at_ | at_ <;> rw [at_] <;> nofun

theorem step (safe : s.Safe) {e : Event C} (performed : s.step e = some s') : s'.Safe := by
  cases e with
  | commit =>
    cases performed
    refine safe.withPrimary ⟨?_, safe.anchored.slot⟩ id
    intro lsn found
    exact (safe.anchored.past lsn found).trans (Nat.lt_succ_self _)
  | migrate =>
    unfold Cluster.step at performed
    dsimp only at performed
    split at performed
    · cases performed
      exact safe
    next absent =>
      cases performed
      refine safe.withPrimary ⟨?_, ?_⟩ fun _ => rfl
      · rintro lsn ⟨⟩
        exact Nat.lt_succ_self _
      -- without a publication there is no slot yet
      · intro slot found
        obtain ⟨lsn, present, _⟩ := safe.anchored.slot slot found
        rw [absent] at present
        cases present
  | terminate =>
    cases performed
    exact safe.withPrimary (anchored_release safe.anchored) id
  | drop =>
    unfold Cluster.step at performed
    dsimp only at performed
    split at performed
    · cases performed
      exact safe
    · cases performed
      exact safe.withPrimary ⟨safe.anchored.past, nofun⟩ id
  | loop i a =>
    unfold Cluster.step at performed
    dsimp only at performed
    split at performed
    next own => exact safe.alone own performed
    · cases performed
  | probe i reached =>
    unfold Cluster.step at performed
    dsimp only at performed
    split at performed
    · refine safe.go performed ?_ fun inside => (inside rfl).elim
      intro loop step
      obtain ⟨_, rfl⟩ := Supervisor.step_cases step
      rfl
    · split at performed
      next present =>
        refine safe.go performed ?_ fun _ => present
        intro loop step
        obtain ⟨_, rfl⟩ := Supervisor.step_cases step
        exact .inl rfl
      · refine safe.go performed ?_ fun inside => (inside rfl).elim
        intro loop step
        obtain ⟨_, rfl⟩ := Supervisor.step_cases step
        rfl
  | look i reached =>
    unfold Cluster.step at performed
    dsimp only at performed
    split at performed
    next nested at_ =>
      obtain ⟨called, ready⟩ := safe.called (.inl at_)
      split at performed
      · exact safe.raise performed
      · split at performed
        · exact safe.ensured performed called ready
        · cases performed
          refine safe.put ?_ (fun _ => ready) (safe.returned i)
          rw [called]
          cases nested with
          | true => exact .inr (.inl rfl)
          | false => exact .inr rfl
    · cases performed
  | create i reached ahead =>
    unfold Cluster.step at performed
    dsimp only at performed
    split at performed
    next nested at_ =>
      obtain ⟨called, ready⟩ := safe.called (.inr at_)
      split at performed
      · exact safe.raise performed
      · split at performed
        · exact safe.raise performed
        · obtain ⟨lsn, found⟩ := Option.isSome_iff_exists.mp ready
          have past := safe.anchored.past lsn found
          -- the slot is created behind the publication its service has seen
          have created : Safe { s with primary := { s.primary with
              position := s.primary.position + ahead
              slot := some ⟨s.primary.position + ahead, none⟩ } } := by
            refine safe.withPrimary ⟨?_, ?_⟩ id
            · intro lsn' found'
              exact Nat.lt_add_right ahead (safe.anchored.past lsn' found')
            · rintro slot ⟨⟩
              exact ⟨lsn, found, Nat.lt_add_right ahead past⟩
          exact created.ensured performed called ready
    · cases performed
  | start i reached =>
    unfold Cluster.step at performed
    dsimp only at performed
    split at performed
    next at_ =>
      split at performed
      · exact safe.raise performed
      · split at performed
        next anchor found =>
          cases performed
          have ready := safe.attempts i (by rw [at_]; nofun)
          have active : Safe { s with primary := { s.primary with
              slot := some ⟨anchor, some i⟩ } } := by
            refine safe.withPrimary ⟨safe.anchored.past, ?_⟩ id
            rintro slot ⟨⟩
            exact safe.anchored.slot ⟨anchor, none⟩ found
          refine active.put ?_ (fun _ => ready) (safe.returned i)
          have inside := safe.inside i
          rw [at_] at inside
          cases pc : (s.service i).loop.pc <;> rw [pc] at inside <;> simp_all [Inside]
        · exact safe.raise performed
    · cases performed
  | leave i raised =>
    unfold Cluster.step at performed
    dsimp only at performed
    split at performed
    · have freed : Safe { s with primary := finish s.primary i } := by
        unfold finish
        split
        · exact safe.withPrimary (anchored_release safe.anchored) id
        · exact safe
      refine freed.go performed ?_ fun inside => (inside rfl).elim
      intro loop step
      obtain ⟨_, rfl⟩ := Supervisor.step_cases step
      rfl
    · cases performed
  | crash i =>
    cases performed
    exact safe.put rfl (fun inside => (inside rfl).elim) nofun

end Safe

omit [DecidableEq C] in
theorem safe_start (position : Nat) : (start position : Cluster C).Safe :=
  ⟨⟨nofun, nofun⟩, fun _ inside => (inside rfl).elim, fun _ => rfl, nofun⟩

theorem safe_run {position : Nat} {events : List (Event C)} {s : Cluster C}
    (reached : Machine.run step (start position) events = some s) : s.Safe :=
  Machine.run_invariant (P := fun _ s => s.Safe) (safe_start position)
    (fun _ _ _ _ safe performed => safe.step performed) reached

/-- However the services, the migration, the traffic and the failures interleave, the slot
decodes from behind the publication only, and no service is in an attempt before that. -/
theorem coldStart_anchored (position : Nat) (events : List (Event C)) (s : Cluster C)
    (reached : Machine.run step (start position) events = some s) :
    (∀ slot, s.primary.slot = some slot →
      ∃ lsn, s.primary.publication = some lsn ∧ lsn < slot.anchor) ∧
    ∀ i, (s.service i).attempt ≠ .outside → s.primary.publication.isSome = true := by
  have safe := safe_run reached
  exact ⟨safe.anchored.slot, safe.attempts⟩

/-- Two services that wait for the migration, and then both find no slot. -/
def race : List (Event Bool) :=
  let both (event : Bool → List (Event Bool)) := event false ++ event true
  both (fun i => [.loop i .test, .probe i true, .loop i (.waitReady (1 / 2))]) ++
    [.commit, .migrate, .commit] ++
    both (fun i => [.loop i .woken, .loop i .test, .probe i true, .look i true]) ++
    [.create false true 3, .create true true 0, .look false true, .start false true, .commit]

/-- The second service's creation is refused, and the slot is the one of the first. -/
theorem coldStart_anchored_race :
    ∃ s, Machine.run step (start 7) race = some s ∧
      (s.service true).attempt = .outside ∧
      ∃ slot lsn, s.primary.slot = some slot ∧ s.primary.publication = some lsn ∧
        lsn < slot.anchor := by
  obtain ⟨s, reached, found⟩ := Machine.exists_run (S := Cluster Bool)
    (show (Machine.run step (start 7) race).any (fun s =>
      s.primary.slot.isSome && decide ((s.service true).attempt = .outside)) = true by
        decide +kernel)
  rw [Bool.and_eq_true, decide_eq_true_eq] at found
  obtain ⟨slot, present⟩ := Option.isSome_iff_exists.mp found.1
  obtain ⟨lsn, published, behind⟩ := (coldStart_anchored 7 race s reached).1 slot present
  exact ⟨s, reached, found.2, slot, lsn, present, published, behind⟩

end Cluster

namespace Event

variable {C : Type}

/-- What a service does next when the primary is reached. -/
def undisturbed (s : Cluster C) (i : C) : Event C :=
  match (s.service i).attempt with
  | .looking _ => .look i true
  | .creating _ => .create i true 0
  | .starting => .start i true
  | .streaming => .leave i true
  | .outside =>
    match (s.service i).loop.pc with
    | .probing => .probe i true
    | .notReady => .loop i (.waitReady (s.service i).loop.readyBackoff)
    | .resting => .loop i (.waitStream (s.service i).loop.streamBackoff)
    | .waitingReady | .waitingStream => .loop i .woken
    | .attempted _ => .loop i .checkStop
    | _ => .loop i .test

end Event

namespace Cluster

variable {C : Type} [DecidableEq C]

/-- The service is on its way, and the slot is free. -/
structure Free (s : Cluster C) (i : C) : Prop where
  safe : s.Safe
  stop : (s.service i).loop.stop = false
  published : s.primary.publication.isSome = true
  reader : s.primary.slot.bind Slot.reader = none

def Streams (s : Cluster C) (i : C) : Prop :=
  (s.service i).attempt = .streaming ∧ s.primary.slot.bind Slot.reader = some i

/-- The steps a service has before it, with or without a slot, until it streams. -/
def rank (slot : Bool) (v : Service) : Nat :=
  match v.attempt with
  | .streaming => 15
  | .starting => if slot then 6 else 15
  | .creating _ => if slot then 15 else 8
  | .looking true => if slot then 7 else 9
  | .looking false => 9
  | .outside =>
    match v.loop.pc with
    | .attempted _ => 14
    | .notReady | .resting => 13
    | .waitingReady | .waitingStream => 12
    | .top => 11
    | _ => 10

theorem rank_le (slot : Bool) (v : Service) : rank slot v ≤ 15 := by
  obtain ⟨⟨_, _, _, pc⟩, attempt⟩ := v
  cases attempt with
  | streaming => simp [rank]
  | starting | creating => cases slot <;> simp [rank]
  | looking nested => cases nested <;> cases slot <;> simp [rank]
  | outside => cases pc <;> simp [rank]

theorem Free.put {s : Cluster C} {i : C} {e : Event C} {v : Service} (free : s.Free i)
    (performed : s.step e = some (s.put i v)) (stop : v.loop.stop = false) :
    (s.put i v).Free i :=
  ⟨free.safe.step performed, by rw [service_put]; exact stop, free.published, free.reader⟩

/-- An undisturbed step leads on: the service streams, or has fewer steps before it. -/
def Progress (s : Cluster C) (i : C) : Prop :=
  ∃ s', s.step (Event.undisturbed s i) = some s' ∧ (s'.Streams i ∨ s'.Free i ∧
    rank s'.primary.slot.isSome (s'.service i) < rank s.primary.slot.isSome (s.service i))

namespace Free

variable {s : Cluster C} {i : C} {readyBackoff streamBackoff : ℚ} {attempt : Attempt}

theorem progress (free : s.Free i) (v : Service)
    (performed : s.step (Event.undisturbed s i) = some (s.put i v)) (stop : v.loop.stop = false)
    (less : rank s.primary.slot.isSome v < rank s.primary.slot.isSome (s.service i)) :
    s.Progress i := by
  refine ⟨_, performed, .inr ⟨free.put performed stop, ?_⟩⟩
  rw [service_put]
  exact less

/-- `ensure_slot` creates the slot. -/
theorem create (free : s.Free i) (slot : s.primary.slot = none) {v : Service}
    (performed : s.step (Event.undisturbed s i) = some (Cluster.put
      { s with primary := { s.primary with slot := some ⟨s.primary.position, none⟩ } } i v))
    (stop : v.loop.stop = false) (less : rank true v < rank false (s.service i)) :
    s.Progress i := by
  refine ⟨_, performed, .inr ⟨⟨free.safe.step performed, ?_, free.published, rfl⟩, ?_⟩⟩
  · rw [service_put]
    exact stop
  · rw [service_put, slot]
    exact less

theorem step_outside {pc : Pc} (free : s.Free i)
    (at_ : s.service i = ⟨⟨false, readyBackoff, streamBackoff, pc⟩, .outside⟩)
    (open_ : pc ≠ .returned) (out : pc ≠ .attempting ∧ pc ≠ .running) : s.Progress i := by
  cases pc with
  -- the three places that are excluded
  | returned => exact (open_ rfl).elim
  | attempting => exact (out.1 rfl).elim
  | running => exact (out.2 rfl).elim
  | top =>
    refine free.progress ⟨⟨false, readyBackoff, streamBackoff, .probing⟩, .outside⟩ ?_ rfl
      (by simp [rank, at_])
    simp [Event.undisturbed, Cluster.step, Act.alone, go, at_, Supervisor.step]
  -- the publication is there, so the probe finds it and an attempt begins
  | probing =>
    refine free.progress ⟨⟨false, Supervisor.backoffInitial, streamBackoff, .attempting⟩,
      .looking false⟩ ?_ rfl (by simp [rank, at_])
    simp [Event.undisturbed, Cluster.step, go, at_, Supervisor.step, free.published]
  | notReady =>
    refine free.progress ⟨⟨false, readyBackoff, streamBackoff, .waitingReady⟩, .outside⟩ ?_ rfl
      (by simp [rank, at_])
    simp [Event.undisturbed, Cluster.step, Act.alone, go, at_, Supervisor.step]
  -- both waits end by themselves; the rank counts what is left of the turn
  | waitingReady =>
    refine free.progress
      ⟨⟨false, min (readyBackoff * 2) Supervisor.backoffMax, streamBackoff, .top⟩, .outside⟩ ?_ rfl
      (by simp [rank, at_])
    simp [Event.undisturbed, Cluster.step, Act.alone, go, at_, Supervisor.step]
  | attempted streaming =>
    refine free.progress ⟨⟨false, readyBackoff,
      if streaming then Supervisor.backoffInitial else streamBackoff, .resting⟩, .outside⟩ ?_ rfl
      (by simp [rank, at_])
    simp [Event.undisturbed, Cluster.step, Act.alone, go, at_, Supervisor.step]
  | resting =>
    refine free.progress ⟨⟨false, readyBackoff, streamBackoff, .waitingStream⟩, .outside⟩ ?_ rfl
      (by simp [rank, at_])
    simp [Event.undisturbed, Cluster.step, Act.alone, go, at_, Supervisor.step]
  | waitingStream =>
    refine free.progress
      ⟨⟨false, readyBackoff, min (streamBackoff * 2) Supervisor.backoffMax, .top⟩, .outside⟩ ?_ rfl
      (by simp [rank, at_])
    simp [Event.undisturbed, Cluster.step, Act.alone, go, at_, Supervisor.step]

theorem step_attempting (free : s.Free i)
    (at_ : s.service i = ⟨⟨false, readyBackoff, streamBackoff, .attempting⟩, attempt⟩)
    (inside : attempt = .looking false ∨ attempt = .creating false) : s.Progress i := by
  obtain slot | ⟨found, slot⟩ := s.primary.slot.eq_none_or_eq_some
  · rcases inside with rfl | rfl
    · refine free.progress ⟨⟨false, readyBackoff, streamBackoff, .attempting⟩,
        .creating false⟩ ?_ rfl (by simp [rank, at_, slot])
      simp [Event.undisturbed, Cluster.step, at_, slot]
    · refine free.create slot (v := ⟨⟨false, readyBackoff, streamBackoff, .running⟩,
        .looking true⟩) ?_ rfl (by simp [rank, at_])
      simp [Event.undisturbed, Cluster.step, ensured, go, at_, slot, Supervisor.step]
  · rcases inside with rfl | rfl
    · refine free.progress ⟨⟨false, readyBackoff, streamBackoff, .running⟩,
        .looking true⟩ ?_ rfl (by simp [rank, at_, slot])
      simp [Event.undisturbed, Cluster.step, ensured, go, at_, slot, Supervisor.step]
    -- someone else has created it
    · refine free.progress ⟨⟨false, readyBackoff, streamBackoff, .attempted false⟩,
        .outside⟩ ?_ rfl (by simp [rank, at_, slot])
      simp [Event.undisturbed, Cluster.step, raise, go, at_, slot, Supervisor.step]

theorem step_running (free : s.Free i)
    (at_ : s.service i = ⟨⟨false, readyBackoff, streamBackoff, .running⟩, attempt⟩)
    (inside : attempt = .looking true ∨ attempt = .creating true) : s.Progress i := by
  -- without a slot one is created, and one that appeared meanwhile makes creating it fail
  obtain slot | ⟨found, slot⟩ := s.primary.slot.eq_none_or_eq_some
  · rcases inside with rfl | rfl
    · refine free.progress ⟨⟨false, readyBackoff, streamBackoff, .running⟩,
        .creating true⟩ ?_ rfl (by simp [rank, at_, slot])
      simp [Event.undisturbed, Cluster.step, at_, slot]
    · refine free.create slot (v := ⟨⟨false, readyBackoff, streamBackoff, .running⟩,
        .starting⟩) ?_ rfl (by simp [rank, at_])
      simp [Event.undisturbed, Cluster.step, ensured, at_, slot]
  · rcases inside with rfl | rfl
    · refine free.progress ⟨⟨false, readyBackoff, streamBackoff, .running⟩,
        .starting⟩ ?_ rfl (by simp [rank, at_, slot])
      simp [Event.undisturbed, Cluster.step, ensured, at_, slot]
    · refine free.progress ⟨⟨false, readyBackoff, streamBackoff, .attempted false⟩,
        .outside⟩ ?_ rfl (by simp [rank, at_, slot])
      simp [Event.undisturbed, Cluster.step, raise, go, at_, slot, Supervisor.step]

theorem step_starting (free : s.Free i)
    (at_ : s.service i = ⟨⟨false, readyBackoff, streamBackoff, .running⟩, .starting⟩) :
    s.Progress i := by
  obtain slot | ⟨⟨anchor, _ | other⟩, slot⟩ := s.primary.slot.eq_none_or_eq_some
  · refine free.progress ⟨⟨false, readyBackoff, streamBackoff, .attempted false⟩,
      .outside⟩ ?_ rfl (by simp [rank, at_, slot])
    simp [Event.undisturbed, Cluster.step, raise, go, at_, slot, Supervisor.step]
  · refine ⟨_, by simp [Event.undisturbed, Cluster.step, at_, slot]; rfl, .inl ?_⟩
    exact ⟨by simp, rfl⟩
  · have reader := free.reader
    rw [slot] at reader
    cases reader

/-- The server has ended the connection, and the service notices. -/
theorem step_streaming (free : s.Free i)
    (at_ : s.service i = ⟨⟨false, readyBackoff, streamBackoff, .running⟩, .streaming⟩) :
    s.Progress i := by
  refine free.progress ⟨⟨false, readyBackoff, streamBackoff, .attempted true⟩, .outside⟩ ?_ rfl
    (by simp [rank, at_])
  simp [Event.undisturbed, Cluster.step, finish, go, at_, free.reader, Supervisor.step]

/-- One undisturbed step, by where the service is. -/
theorem step (free : s.Free i) : s.Progress i := by
  have inside := free.safe.inside i
  have returned := free.safe.returned i
  have stop := free.stop
  rcases at_ : s.service i with ⟨⟨stopped, readyBackoff, streamBackoff, pc⟩, attempt⟩
  rw [at_] at stop inside returned
  dsimp only at stop inside returned
  subst stop
  cases pc with
  | returned => cases returned rfl
  | attempting => exact free.step_attempting at_ inside
  | running =>
    -- a running iteration is in one of the four stages of its attempt
    rcases inside with looking | creating | rfl | rfl
    · exact free.step_running at_ (.inl looking)
    · exact free.step_running at_ (.inr creating)
    · exact free.step_starting at_
    · exact free.step_streaming at_
  | top | probing | notReady | waitingReady | attempted | resting | waitingStream =>
    obtain rfl : attempt = .outside := inside
    exact free.step_outside at_ nofun ⟨nofun, nofun⟩

end Free

/-- The events of a service that goes on by itself with the primary reached. -/
inductive Undisturbed (i : C) : Cluster C → List (Event C) → Cluster C → Prop
  | done (s : Cluster C) : Undisturbed i s [] s
  | step {s s' s'' : Cluster C} {events : List (Event C)}
      (performed : s.step (Event.undisturbed s i) = some s') (rest : Undisturbed i s' events s'') :
      Undisturbed i s (Event.undisturbed s i :: events) s''

/-- From every reachable state in which the publication is there and nothing reads the slot, a
service that is not stopped comes to stream by itself, wherever it is. -/
theorem coldStart_recovers (position : Nat) (events : List (Event C)) (s : Cluster C)
    (reached : Machine.run step (start position) events = some s) (i : C)
    (going : (s.service i).loop.stop = false)
    (published : s.primary.publication.isSome = true)
    (free : s.primary.slot.bind Slot.reader = none) :
    ∃ later s', later.length ≤ 16 ∧ Undisturbed i s later s' ∧ s'.Streams i := by
  -- on the rank, which each step of the service lowers until it streams
  have along : ∀ n (s : Cluster C), s.Free i →
      rank s.primary.slot.isSome (s.service i) ≤ n →
      ∃ later s', later.length ≤ n + 1 ∧ Undisturbed i s later s' ∧ s'.Streams i := by
    intro n
    induction n with
    | zero =>
      intro s free bound
      obtain ⟨s', performed, streams | ⟨_, less⟩⟩ := free.step
      · exact ⟨_, s', Nat.le_refl _, .step performed (.done s'), streams⟩
      · omega
    | succ n ih =>
      intro s free bound
      obtain ⟨s', performed, streams | ⟨free', less⟩⟩ := free.step
      · exact ⟨_, s', by simp, .step performed (.done s'), streams⟩
      · obtain ⟨later, s'', length, undisturbed, streams⟩ := ih s' free' (by omega)
        exact ⟨_, s'', by simpa using length, .step performed undisturbed, streams⟩
  exact along 15 s ⟨safe_run reached, going, published, free⟩ (rank_le _ _)

/-- The service that lost the race takes over once the first one is gone. -/
theorem coldStart_recovers_race :
    ∃ s later s', Machine.run step (start 7) (race ++ [.crash false, .terminate]) = some s ∧
      Undisturbed true s later s' ∧ s'.Streams true := by
  obtain ⟨s, reached, found⟩ := Machine.exists_run (S := Cluster Bool)
    (show (Machine.run step (start 7) (race ++ [.crash false, .terminate])).any (fun s =>
      !(s.service true).loop.stop && s.primary.publication.isSome &&
        (s.primary.slot.bind Slot.reader).isNone) = true by decide +kernel)
  simp only [Bool.and_eq_true, Bool.not_eq_true', Option.isNone_iff_eq_none] at found
  obtain ⟨later, s', _, undisturbed, streams⟩ :=
    coldStart_recovers 7 _ s reached true found.1.1 found.1.2 found.2
  exact ⟨s, later, s', reached, undisturbed, streams⟩

end Cluster

end FleetTelemetry.Cdc
