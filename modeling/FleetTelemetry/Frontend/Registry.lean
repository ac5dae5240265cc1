import FleetTelemetry.Foundations.Machine
import Mathlib.Data.Finset.Basic

/-!
# The connection registry

`ConnectionRegistry` under one event loop. Its lock is never held across an await, so each
body under the lock is one step; everything else may run between two sends of a broadcast.
The subscriber awaits each broadcast before it takes the next message.
-/

namespace FleetTelemetry.Frontend

open Foundations

/-- A running `broadcast`: the targets still to be sent to, and those whose send raised. -/
structure Broadcast (C M : Type) where
  message : M
  targets : List C
  dead : List C

/-- The set of connections, the broadcast in progress and what each client has been sent. -/
structure Registry (C M : Type) where
  connections : Finset C
  current : Option (Broadcast C M)
  received : C → List M

inductive Action (C M : Type) where
  | add (ws : C)
  | remove (ws : C)
  | broadcast (message : M) (targets : List C)
  | sent (ws : C)
  | raised (ws : C)
  | ended

namespace Registry

variable {C M : Type} [DecidableEq C]

def empty : Registry C M := ⟨∅, none, fun _ => []⟩

def deliver (r : Registry C M) (ws : C) (message : M) : Registry C M :=
  { r with received := Function.update r.received ws (r.received ws ++ [message]) }

def step (r : Registry C M) : Action C M → Option (Registry C M)
  | .add ws => some { r with connections := insert ws r.connections }
  | .remove ws => some { r with connections := r.connections.erase ws }
  | .broadcast message targets =>
    match r.current with
    | none =>
      -- the copy lists the set in any order
      if targets.Nodup ∧ targets.toFinset = r.connections then
        some { r with current := some ⟨message, targets, []⟩ }
      else none
    | some _ => none
  | .sent ws =>
    match r.current with
    | some ⟨message, target :: rest, dead⟩ =>
      if target = ws then some { r.deliver ws message with current := some ⟨message, rest, dead⟩ }
      else none
    | _ => none
  | .raised ws =>
    match r.current with
    | some ⟨message, target :: rest, dead⟩ =>
      if target = ws then some { r with current := some ⟨message, rest, dead ++ [ws]⟩ }
      else none
    | _ => none
  | .ended =>
    match r.current with
    | some ⟨_, [], dead⟩ =>
      some { r with connections := r.connections \ dead.toFinset, current := none }
    | _ => none

/-- What a performed action was performed on and left. -/
theorem step_cases {r r' : Registry C M} {a : Action C M} (performed : r.step a = some r') :
    match a with
    | .add ws => r' = { r with connections := insert ws r.connections }
    | .remove ws => r' = { r with connections := r.connections.erase ws }
    | .broadcast message targets => r.current = none ∧ targets.Nodup ∧
        targets.toFinset = r.connections ∧ r' = { r with current := some ⟨message, targets, []⟩ }
    | .sent ws => ∃ message rest dead, r.current = some ⟨message, ws :: rest, dead⟩ ∧
        r' = { r.deliver ws message with current := some ⟨message, rest, dead⟩ }
    | .raised ws => ∃ message rest dead, r.current = some ⟨message, ws :: rest, dead⟩ ∧
        r' = { r with current := some ⟨message, rest, dead ++ [ws]⟩ }
    | .ended => ∃ message dead, r.current = some ⟨message, [], dead⟩ ∧
        r' = { r with connections := r.connections \ dead.toFinset, current := none } := by
  -- adding and removing are performed in any state
  cases a with
  | add ws => exact (Option.some.inj performed).symm
  | remove ws => exact (Option.some.inj performed).symm
  | broadcast message targets =>
    simp only [step] at performed
    split at performed
    next idle =>
      split at performed
      next copy => exact ⟨idle, copy.1, copy.2, (Option.some.inj performed).symm⟩
      · cases performed
    · cases performed
  | sent ws =>
    simp only [step] at performed
    split at performed
    next message target rest dead running =>
      split at performed
      next same =>
        subst same
        exact ⟨message, rest, dead, running, (Option.some.inj performed).symm⟩
      · cases performed
    · cases performed
  | raised ws =>
    simp only [step] at performed
    split at performed
    next message target rest dead running =>
      split at performed
      next same =>
        subst same
        exact ⟨message, rest, dead, running, (Option.some.inj performed).symm⟩
      · cases performed
    · cases performed
  | ended =>
    simp only [step] at performed
    split at performed
    next message dead running => exact ⟨message, dead, running, (Option.some.inj performed).symm⟩
    · cases performed

/-- What the running broadcast has still to send to a client. -/
def owed (r : Registry C M) (ws : C) : List M :=
  match r.current with
  | some b => if ws ∈ b.targets then [b.message] else []
  | none => []

/-- The client's send in the running broadcast has raised. -/
def Failing (r : Registry C M) (ws : C) : Prop := ∃ b, r.current = some b ∧ ws ∈ b.dead

/-- No target is listed twice. -/
def Proper (r : Registry C M) : Prop := ∀ b, r.current = some b → b.targets.Nodup

omit [DecidableEq C] in
theorem proper_idle {r : Registry C M} (idle : r.current = none) : r.Proper := by
  intro b running
  rw [idle] at running
  cases running

theorem received_deliver (r : Registry C M) (ws c : C) (message : M) :
    (r.deliver ws message).received c =
      if c = ws then r.received ws ++ [message] else r.received c := by
  by_cases same : c = ws
  · subst same
    simp [deliver]
  · simp [deliver, same]

end Registry

/-- The messages whose broadcast began, in order. -/
def published {C M : Type} (actions : List (Action C M)) : List M :=
  actions.filterMap fun
    | .broadcast message _ => some message
    | _ => none

namespace Registry

variable {C M : Type} [DecidableEq C]

theorem step_proper {r r' : Registry C M} {a : Action C M} (performed : r.step a = some r')
    (proper : r.Proper) : r'.Proper := by
  have effect := step_cases performed
  cases a with
  | add ws =>
    obtain rfl : r' = { r with connections := insert ws r.connections } := effect
    exact proper
  | remove ws =>
    obtain rfl : r' = { r with connections := r.connections.erase ws } := effect
    exact proper
  | broadcast message targets =>
    obtain ⟨_, nodup, _, rfl⟩ := effect
    -- the targets are a copy of a set, so none is listed twice
    rintro b ⟨rfl⟩
    exact nodup
  | sent ws =>
    obtain ⟨message, rest, dead, running, rfl⟩ := effect
    rintro b ⟨rfl⟩
    exact (List.nodup_cons.mp (proper _ running)).2
  | raised ws =>
    obtain ⟨message, rest, dead, running, rfl⟩ := effect
    rintro b ⟨rfl⟩
    exact (List.nodup_cons.mp (proper _ running)).2
  | ended =>
    obtain ⟨message, dead, running, rfl⟩ := effect
    exact proper_idle rfl

/-- Only its own raise makes a client's send fail, registered or not. -/
theorem step_alive {r r' : Registry C M} {a : Action C M} (performed : r.step a = some r') {c : C}
    (alive : ¬r.Failing c) (sends : a ≠ .raised c) : ¬r'.Failing c := by
  have effect := step_cases performed
  rintro ⟨b, running', member⟩
  cases a with
  | add ws =>
    obtain rfl : r' = { r with connections := insert ws r.connections } := effect
    exact alive ⟨b, running', member⟩
  | remove ws =>
    obtain rfl : r' = { r with connections := r.connections.erase ws } := effect
    exact alive ⟨b, running', member⟩
  | broadcast message targets =>
    obtain ⟨_, _, _, rfl⟩ := effect
    -- a new broadcast has no dead clients yet
    cases running'
    cases member
  | sent ws =>
    obtain ⟨message, rest, dead, running, rfl⟩ := effect
    cases running'
    exact alive ⟨_, running, member⟩
  | raised ws =>
    obtain ⟨message, rest, dead, running, rfl⟩ := effect
    cases running'
    rcases List.mem_append.mp member with earlier | now
    · exact alive ⟨_, running, earlier⟩
    · obtain rfl := List.mem_singleton.mp now
      exact sends rfl
  | ended =>
    obtain ⟨message, dead, running, rfl⟩ := effect
    cases running'

/-- One step for a client that stays: what it has been sent and is still owed grows by
exactly the message of a broadcast that begins. -/
theorem step_owed {r r' : Registry C M} {a : Action C M} (performed : r.step a = some r')
    (proper : r.Proper) {c : C} (registered : c ∈ r.connections) (alive : ¬r.Failing c)
    (stays : a ≠ .remove c) (sends : a ≠ .raised c) :
    r'.received c ++ r'.owed c = r.received c ++ r.owed c ++ published [a] ∧
      c ∈ r'.connections := by
  have effect := step_cases performed
  cases a with
  | add ws =>
    obtain rfl : r' = { r with connections := insert ws r.connections } := effect
    exact ⟨by simp [owed, published], by simp [registered]⟩
  | remove ws =>
    obtain rfl : r' = { r with connections := r.connections.erase ws } := effect
    have apart : c ≠ ws := by
      rintro rfl
      exact stays rfl
    exact ⟨by simp [owed, published], by simp [registered, apart]⟩
  | broadcast message targets =>
    obtain ⟨idle, _, copy, rfl⟩ := effect
    have target : c ∈ targets := by
      rw [← copy] at registered
      exact List.mem_toFinset.mp registered
    exact ⟨by simp [owed, published, idle, target], registered⟩
  | sent ws =>
    obtain ⟨message, rest, dead, running, rfl⟩ := effect
    have once := (List.nodup_cons.mp (proper _ running)).1
    refine ⟨?_, registered⟩
    -- what is owed becomes received: a client is a target once, so it is owed nothing after
    by_cases same : c = ws
    · subst same
      simp [owed, published, running, received_deliver, once]
    · simp [owed, published, running, received_deliver, same]
  | raised ws =>
    obtain ⟨message, rest, dead, running, rfl⟩ := effect
    have apart : c ≠ ws := by
      rintro rfl
      exact sends rfl
    exact ⟨by simp [owed, published, running, apart], registered⟩
  | ended =>
    obtain ⟨message, dead, running, rfl⟩ := effect
    -- the end of a broadcast removes the clients whose sends have raised, and no other
    have notDead : c ∉ dead := fun member => alive ⟨_, running, member⟩
    exact ⟨by simp [owed, published, running], by simp [registered, notDead]⟩

theorem run_proper {r s : Registry C M} {actions : List (Action C M)}
    (reached : Machine.run step r actions = some s) (proper : r.Proper) : s.Proper :=
  Machine.run_invariant (P := fun _ s => s.Proper) proper
    (fun _ _ _ _ proper performed => step_proper performed proper) reached

theorem run_alive {r s : Registry C M} {later : List (Action C M)}
    (continued : Machine.run step r later = some s) {c : C} (alive : ¬r.Failing c) :
    .raised c ∉ later → ¬s.Failing c := by
  refine Machine.run_invariant (P := fun later s => .raised c ∉ later → ¬s.Failing c)
    (fun _ => alive) ?_ continued
  intro as a mid s' kept performed sends
  simp only [List.mem_append, List.mem_singleton, not_or] at sends
  exact step_alive performed (kept sends.1) fun equal => sends.2 equal.symm

theorem run_owed {r s : Registry C M} {later : List (Action C M)}
    (continued : Machine.run step r later = some s) (proper : r.Proper) {c : C}
    (registered : c ∈ r.connections) (alive : ¬r.Failing c) :
    .remove c ∉ later → .raised c ∉ later →
      s.received c ++ s.owed c = r.received c ++ r.owed c ++ published later ∧
        c ∈ s.connections := by
  -- a client that stays and does not fail is carried along with its balance
  refine (Machine.run_invariant (P := fun later s => s.Proper ∧
    (.raised c ∉ later → ¬s.Failing c) ∧ (.remove c ∉ later → .raised c ∉ later →
      s.received c ++ s.owed c = r.received c ++ r.owed c ++ published later ∧
        c ∈ s.connections)) ?_ ?_ continued).2.2
  · exact ⟨proper, fun _ => alive, fun _ _ => ⟨by simp [published], registered⟩⟩
  · rintro as a mid s' ⟨proper, living, kept⟩ performed
    refine ⟨step_proper performed proper, fun sends => ?_, fun stays sends => ?_⟩
    · simp only [List.mem_append, List.mem_singleton, not_or] at sends
      exact step_alive performed (living sends.1) fun equal => sends.2 equal.symm
    simp only [List.mem_append, List.mem_singleton, not_or] at stays sends
    obtain ⟨balance, registered⟩ := kept stays.1 sends.1
    obtain ⟨balance', next⟩ := step_owed performed proper registered (living sends.1)
      (fun equal => stays.2 equal.symm) (fun equal => sends.2 equal.symm)
    refine ⟨?_, next⟩
    rw [balance', balance, published, published, published, List.filterMap_append,
      List.append_assoc]

/-- From the moment it is added a client is registered, and gets what is broadcast from then
on behind what it had. -/
theorem run_joined {r s : Registry C M} {before after : List (Action C M)} {c : C}
    (continued : Machine.run step r (before ++ .add c :: after) = some s) (proper : r.Proper)
    (alive : ¬r.Failing c) (sends : .raised c ∉ before ++ .add c :: after)
    (stays : .remove c ∉ after) :
    c ∈ s.connections ∧ ∃ mid, Machine.run step r before = some mid ∧
      s.received c ++ s.owed c = mid.received c ++ mid.owed c ++ published after := by
  rw [Machine.run_append] at continued
  obtain ⟨mid, reached, rest⟩ := Option.bind_eq_some_iff.mp continued
  obtain ⟨added, performed, later⟩ := Option.bind_eq_some_iff.mp rest
  simp only [List.mem_append, List.mem_cons, not_or] at sends
  -- from here on it is a client that was registered all along
  have joined : added = { mid with connections := insert c mid.connections } :=
    step_cases performed
  have living : ¬added.Failing c := step_alive performed (run_alive reached alive sends.1) nofun
  obtain ⟨balance, registered⟩ := run_owed later
    (step_proper performed (run_proper reached proper)) (by simp [joined]) living stays sends.2.2
  refine ⟨registered, mid, reached, ?_⟩
  rw [balance, joined]
  rfl

/-- Another broadcast can begin as soon as none runs, and one that runs can go on whatever its
next send does, up to its end. -/
theorem goesOn (r : Registry C M) :
    (r.current = none → ∀ message, ∃ targets r', r.step (.broadcast message targets) = some r') ∧
    ∀ b, r.current = some b → match b.targets with
      | [] => ∃ r', r.step .ended = some r'
      | ws :: _ => (∃ r', r.step (.sent ws) = some r') ∧ ∃ r', r.step (.raised ws) = some r' := by
  constructor
  · intro idle message
    -- any order of the members is a copy that a broadcast may go through
    have copy : r.connections.toList.Nodup ∧ r.connections.toList.toFinset = r.connections :=
      ⟨Finset.nodup_toList _, Finset.toList_toFinset _⟩
    exact ⟨r.connections.toList, _, by simp only [step, idle, copy, and_self, if_true]; rfl⟩
  · rintro ⟨message, targets, dead⟩ running
    cases targets with
    | nil => exact ⟨_, by rw [step, running]⟩
    | cons ws rest =>
      exact ⟨⟨_, by simp only [step, running, if_true]; rfl⟩,
        _, by simp only [step, running, if_true]; rfl⟩

/-- The broadcast of the message, begun on `r`, after some actions: the targets still to be
sent to, and those whose send raised. -/
structure Delivering (r : Registry C M) (message : M) (targets : List C)
    (during : List (Action C M)) (s : Registry C M) (rest dead : List C) : Prop where
  running : s.current = some ⟨message, rest, dead⟩
  nodup : rest.Nodup
  failed : ∀ c, c ∈ dead ↔ .raised c ∈ during
  balance : ∀ c ∈ targets, .raised c ∉ during →
    s.received c ++ (if c ∈ rest then [message] else []) = r.received c ++ [message]

theorem Delivering.step {r s s' : Registry C M} {message : M} {targets rest dead : List C}
    {during : List (Action C M)} (delivering : Delivering r message targets during s rest dead)
    {a : Action C M} (performed : s.step a = some s') (unfinished : a ≠ .ended) :
    ∃ rest' dead', Delivering r message targets (during ++ [a]) s' rest' dead' := by
  obtain ⟨running, nodup, failed, balance⟩ := delivering
  have effect := step_cases performed
  cases a with
  | add ws =>
    obtain rfl : s' = { s with connections := insert ws s.connections } := effect
    exact ⟨rest, dead, running, nodup, by simpa using failed, by simpa using balance⟩
  | remove ws =>
    obtain rfl : s' = { s with connections := s.connections.erase ws } := effect
    exact ⟨rest, dead, running, nodup, by simpa using failed, by simpa using balance⟩
  -- a second broadcast does not begin before the first one has ended
  | broadcast message' targets' =>
    rw [running] at effect
    cases effect.1
  | sent ws =>
    obtain ⟨message', rest', dead', running', rfl⟩ := effect
    rw [running] at running'
    cases running'
    obtain ⟨once, nodup'⟩ := List.nodup_cons.mp nodup
    refine ⟨rest', dead, rfl, nodup', by simpa using failed, ?_⟩
    intro c target alive
    have before := balance c target (by simpa using alive)
    by_cases same : c = ws
    · subst same
      simpa [received_deliver, once] using before
    · simpa [received_deliver, same] using before
  | raised ws =>
    obtain ⟨message', rest', dead', running', rfl⟩ := effect
    rw [running] at running'
    cases running'
    refine ⟨rest', dead ++ [ws], rfl, (List.nodup_cons.mp nodup).2, by simp [failed], ?_⟩
    intro c target alive
    simp only [List.mem_append, List.mem_singleton, Action.raised.injEq, not_or] at alive
    have before := balance c target alive.1
    simpa [alive.2] using before
  | ended => exact (unfinished rfl).elim

/-- While one broadcast runs, its failed sends are recorded and every other target is sent
the message once, whatever happens to the membership meanwhile. -/
theorem run_broadcast {r s : Registry C M} {message : M} {targets : List C}
    {during : List (Action C M)} (nodup : targets.Nodup)
    (continued : Machine.run step { r with current := some ⟨message, targets, []⟩ } during =
      some s) :
    .ended ∉ during → ∃ rest dead, Delivering r message targets during s rest dead := by
  refine Machine.run_invariant (P := fun during s => .ended ∉ during →
    ∃ rest dead, Delivering r message targets during s rest dead) ?_ ?_ continued
  · intro _
    exact ⟨targets, [], rfl, nodup, by simp, fun c target _ => by simp [target]⟩
  · intro as a mid s' kept performed unfinished
    simp only [List.mem_append, List.mem_singleton, not_or] at unfinished
    obtain ⟨rest, dead, delivering⟩ := kept unfinished.1
    exact delivering.step performed fun same => unfinished.2 same.symm

/-- What a run from `r` to `s` makes of the clients. -/
structure FanOut (r : Registry C M) (later : List (Action C M)) (s : Registry C M) : Prop where
  /-- A client that stays gets every broadcast once and in order. -/
  receives : ∀ c ∈ r.connections, ¬r.Failing c → .remove c ∉ later → .raised c ∉ later →
    c ∈ s.connections ∧
      s.received c ++ s.owed c = r.received c ++ r.owed c ++ published later
  /-- So does one that is added, from then on. -/
  joins : ∀ c before after, later = before ++ .add c :: after → ¬r.Failing c →
    .raised c ∉ later → .remove c ∉ after →
    c ∈ s.connections ∧ ∃ mid, Machine.run step r before = some mid ∧
      s.received c ++ s.owed c = mid.received c ++ mid.owed c ++ published after
  /-- A raising send keeps the message from no other target, and costs the client its place. -/
  delivers : ∀ message targets during, later = .broadcast message targets :: during ++ [.ended] →
    .ended ∉ during →
    (∀ c ∈ r.connections, .raised c ∉ during → s.received c = r.received c ++ [message]) ∧
    ∀ c, .raised c ∈ during → c ∉ s.connections
  /-- Nothing else unregisters a client. -/
  keeps : ∀ c ∈ r.connections, c ∉ s.connections →
    .remove c ∈ later ∨ .raised c ∈ later ∨ r.Failing c

/-- From any point of any run each broadcast reaches, once and in order, the clients that are
registered when it begins, and dead ones hold up neither it nor anyone else. -/
theorem fanOut_exactlyOnce (earlier later : List (Action C M)) (r s : Registry C M)
    (reached : Machine.run step .empty earlier = some r)
    (continued : Machine.run step r later = some s) :
    FanOut r later s ∧
      (s.current = none →
        ∀ message, ∃ targets s', s.step (.broadcast message targets) = some s') ∧
      ∀ b, s.current = some b → match b.targets with
        | [] => ∃ s', s.step .ended = some s'
        | ws :: _ => (∃ s', s.step (.sent ws) = some s') ∧ ∃ s', s.step (.raised ws) = some s' := by
  have proper : r.Proper := run_proper reached (proper_idle rfl)
  refine ⟨⟨?_, ?_, ?_, ?_⟩, s.goesOn⟩
  · intro c registered alive stays sends
    exact (run_owed continued proper registered alive stays sends).symm
  · rintro c before after rfl alive sends stays
    exact run_joined continued proper alive sends stays
  · rintro message targets during rfl unfinished
    -- the run is the start of the broadcast, what happens during it, and its end
    rw [List.cons_append, Machine.run] at continued
    obtain ⟨started, begun, rest⟩ := Option.bind_eq_some_iff.mp continued
    obtain ⟨_, nodup, copy, rfl⟩ := step_cases begun
    rw [Machine.run_append] at rest
    obtain ⟨last, through, finish⟩ := Option.bind_eq_some_iff.mp rest
    rw [Machine.run_singleton] at finish
    obtain ⟨pending, dead, running, _, failed, balance⟩ := run_broadcast nodup through unfinished
    obtain ⟨_, _, running', rfl⟩ := step_cases finish
    rw [running] at running'
    cases running'
    constructor
    · intro c registered sends
      have target : c ∈ targets := by
        rw [← copy] at registered
        exact List.mem_toFinset.mp registered
      simpa using balance c target sends
    · intro c raised
      simp [(failed c).mpr raised]
  · intro c registered gone
    by_contra kept
    simp only [not_or] at kept
    exact gone (run_owed continued proper registered kept.2.2 kept.1 kept.2.1).2

/-- The second client's send raises before the first one's turn, and a third one joins
meanwhile and gets the next message. -/
theorem fanOut_exactlyOnce_deadClient : ∃ r s s' : Registry Nat String,
    Machine.run step .empty [.add 1, .add 2] = some r ∧
    Machine.run step r [.broadcast "patch" [2, 1], .raised 2, .add 3, .sent 1, .ended] = some s ∧
    Machine.run step r ([.broadcast "patch" [2, 1], .raised 2] ++ .add 3 ::
      [.sent 1, .ended, .broadcast "next" [1, 3], .sent 1, .sent 3, .ended]) = some s' ∧
    s.received 1 = ["patch"] ∧ 2 ∉ s.connections ∧
    3 ∈ s'.connections ∧ s'.received 3 = ["next"] ∧ s'.received 1 = ["patch", "next"] := by
  let r : Registry Nat String := ⟨{2, 1}, none, fun _ => []⟩
  have reached : Machine.run step .empty [.add 1, .add 2] = some r := rfl
  have ⟨s, continued⟩ : ∃ s, Machine.run step r
      [.broadcast "patch" [2, 1], .raised 2, .add 3, .sent 1, .ended] = some s := ⟨_, rfl⟩
  have ⟨s', continued', idle⟩ : ∃ s', Machine.run step r
      ([.broadcast "patch" [2, 1], .raised 2] ++ .add 3 ::
        [.sent 1, .ended, .broadcast "next" [1, 3], .sent 1, .sent 3, .ended]) = some s' ∧
      s'.current = none := ⟨_, rfl, rfl⟩
  -- no broadcast runs when the first one begins, so no send has failed
  have alive : ∀ c, ¬r.Failing c := by
    rintro c ⟨b, running, _⟩
    cases running
  have ⟨first, _⟩ := fanOut_exactlyOnce _ _ r s reached continued
  have ⟨both, _⟩ := fanOut_exactlyOnce _ _ r s' reached continued'
  have ⟨delivers, drops⟩ := first.delivers "patch" [2, 1] [.raised 2, .add 3, .sent 1] rfl
    (by simp)
  have ⟨joined, mid, before, next⟩ := both.joins 3 _ _ rfl (alive 3) (by simp) (by simp)
  have ⟨_, stayed⟩ := both.receives 1 (by decide) (alive 1) (by simp) (by simp)
  cases before
  exact ⟨r, s, s', reached, continued, continued', delivers 1 (by decide) (by simp),
    drops 2 (by simp), joined, by simpa [owed, idle, published, r] using next,
    by simpa [owed, idle, published, r] using stayed⟩

end Registry

end FleetTelemetry.Frontend
