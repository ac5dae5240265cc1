import FleetTelemetry.Foundations.Machine
import Mathlib.Algebra.Order.Field.Rat
import Mathlib.Tactic.Linarith
import Mathlib.Tactic.NormNum
import Mathlib.Tactic.Positivity
import Mathlib.Tactic.Ring

/-!
# The supervisor of the consumer

`run_forever` with everything it meets as an action: what the publication probe, the slot
and the stream come to, the waits with their seconds, and the stop flag, which another
thread may set at any time.
-/

namespace FleetTelemetry.Cdc

open Foundations

inductive Probe where
  | raised
  | absent
  | present
  deriving DecidableEq, Repr

/-- Where `run_forever` is. -/
inductive Pc where
  | top
  | probing
  | notReady
  | waitingReady
  | attempting
  | running
  | attempted (streaming : Bool)
  | resting
  | waitingStream
  | returned
  deriving DecidableEq, Repr

inductive Act where
  | setStop
  | test
  | probe (outcome : Probe)
  | waitReady (seconds : ℚ)
  | ensureSlot (raised : Bool)
  | run (raised streaming : Bool)
  | checkStop
  | waitStream (seconds : ℚ)
  | woken
  deriving DecidableEq

structure Supervisor where
  stop : Bool
  readyBackoff : ℚ
  streamBackoff : ℚ
  pc : Pc
  deriving DecidableEq

namespace Supervisor

def backoffInitial : ℚ := 1 / 2
def backoffMax : ℚ := 10

def start (stop : Bool) : Supervisor := ⟨stop, backoffInitial, backoffInitial, .top⟩

def step (s : Supervisor) : Act → Option Supervisor
  | .setStop => some { s with stop := true }
  | .test =>
    match s.pc with
    | .top => some { s with pc := if s.stop then .returned else .probing }
    | _ => none
  | .probe outcome =>
    match s.pc with
    -- a probe that raised counts as not ready
    | .probing => some (
        if outcome = .present then { s with readyBackoff := backoffInitial, pc := .attempting }
        else { s with pc := .notReady })
    | _ => none
  | .waitReady seconds =>
    match s.pc with
    | .notReady => if seconds = s.readyBackoff then some { s with pc := .waitingReady } else none
    | _ => none
  | .ensureSlot raised =>
    match s.pc with
    -- a consumer that was never run is not streaming
    | .attempting => some { s with pc := if raised then .attempted false else .running }
    | _ => none
  | .run _ streaming =>
    match s.pc with
    -- an exception is logged, and both ways on lead past the `else`
    | .running => some { s with pc := .attempted streaming }
    | _ => none
  | .checkStop =>
    match s.pc with
    | .attempted streaming =>
      if s.stop then some { s with pc := .returned }
      else some { s with
        streamBackoff := if streaming then backoffInitial else s.streamBackoff
        pc := .resting }
    | _ => none
  | .waitStream seconds =>
    match s.pc with
    | .resting => if seconds = s.streamBackoff then some { s with pc := .waitingStream } else none
    | _ => none
  -- `stop.wait` returns the flag, after its timeout or because it was set
  | .woken =>
    match s.pc with
    | .waitingReady =>
      if s.stop then some { s with pc := .returned }
      else some { s with readyBackoff := min (s.readyBackoff * 2) backoffMax, pc := .top }
    | .waitingStream =>
      if s.stop then some { s with pc := .returned }
      else some { s with streamBackoff := min (s.streamBackoff * 2) backoffMax, pc := .top }
    | _ => none

end Supervisor

section History

/-- The delay after `k` doublings. -/
def backoff (k : Nat) : ℚ := min (1 / 2 * 2 ^ k) 10

def Act.probed? : Act → Option Probe
  | .probe outcome => some outcome
  | _ => none

/-- A stream attempt, by whether it started streaming. -/
def Act.attempt? : Act → Option Bool
  | .ensureSlot true => some false
  | .run _ streaming => some streaming
  | _ => none

/-- The probes that were not ready since the last one that was. -/
def notReadyStreak (acts : List Act) : Nat :=
  ((acts.filterMap Act.probed?).reverse.takeWhile fun outcome => outcome ≠ .present).length

/-- The stream attempts, the latest first. -/
def attempts (acts : List Act) : List Bool := (acts.filterMap Act.attempt?).reverse

/-- The attempts from the most recent one that started streaming on, or all of them. -/
def sinceStreaming : List Bool → Nat
  | [] => 0
  | true :: _ => 1
  | false :: earlier => sinceStreaming earlier + 1

/-- The doublings that the wait after the latest attempt has behind it. -/
def doublings : List Bool → Nat
  | [] => 0
  | streaming :: earlier => if streaming then 0 else sinceStreaming earlier

/-- The actions since the loop condition was last tested. -/
def iteration (acts : List Act) : List Act := (acts.reverse.takeWhile fun a => a ≠ .test).reverse

/-- The action is in the body of a stream attempt. -/
def Act.inAttempt : Act → Bool
  | .ensureSlot _ => true
  | .run _ _ => true
  | _ => false

theorem backoff_zero : backoff 0 = Supervisor.backoffInitial := by
  norm_num [backoff, Supervisor.backoffInitial]

theorem backoff_succ (k : Nat) :
    min (backoff k * 2) Supervisor.backoffMax = backoff (k + 1) := by
  unfold backoff Supervisor.backoffMax
  rw [pow_succ]
  rcases le_total ((1 : ℚ) / 2 * 2 ^ k) 10 with below | above
  · rw [min_eq_left below]
    congr 1
    ring
  · rw [min_eq_right above, min_eq_right (by norm_num), min_eq_right (by linarith)]

theorem backoff_bounds (k : Nat) : 1 / 2 ≤ backoff k ∧ backoff k ≤ 10 := by
  have grows : (1 : ℚ) ≤ 2 ^ k := one_le_pow₀ (by norm_num)
  constructor
  · exact le_min (by linarith) (by norm_num)
  · exact min_le_right _ _

theorem notReadyStreak_snoc (acts : List Act) (a : Act) :
    notReadyStreak (acts ++ [a]) =
      match a.probed? with
      | none => notReadyStreak acts
      | some outcome => if outcome = .present then 0 else notReadyStreak acts + 1 := by
  unfold notReadyStreak
  rw [List.filterMap_append]
  cases probed : a.probed? with
  | none => simp [probed]
  | some outcome => cases outcome <;> simp [probed]

theorem attempts_snoc (acts : List Act) (a : Act) :
    attempts (acts ++ [a]) = a.attempt?.toList ++ attempts acts := by
  unfold attempts
  rw [List.filterMap_append, List.reverse_append]
  cases attempted : a.attempt? <;> simp [attempted]

theorem iteration_snoc (acts : List Act) (a : Act) :
    iteration (acts ++ [a]) = if a = .test then [] else iteration acts ++ [a] := by
  unfold iteration
  rw [List.reverse_append, List.reverse_singleton, List.singleton_append, List.takeWhile_cons]
  by_cases tested : a = .test <;> simp [tested]

end History

namespace Supervisor

theorem eq_ite_of_some {c : Prop} [Decidable c] {a b s' : Supervisor}
    (performed : (if c then some a else some b) = some s') : s' = if c then a else b := by
  rw [← apply_ite some] at performed
  exact (Option.some.inj performed).symm

/-- What a performed action was performed on and left. -/
theorem step_cases {s s' : Supervisor} {a : Act} (performed : s.step a = some s') :
    match a with
    | .setStop => s' = { s with stop := true }
    | .test => s.pc = .top ∧ s' = { s with pc := if s.stop then .returned else .probing }
    | .probe outcome => s.pc = .probing ∧
        s' = if outcome = .present then { s with readyBackoff := backoffInitial, pc := .attempting }
          else { s with pc := .notReady }
    | .waitReady seconds => s.pc = .notReady ∧ seconds = s.readyBackoff ∧
        s' = { s with pc := .waitingReady }
    | .ensureSlot raised => s.pc = .attempting ∧
        s' = { s with pc := if raised then .attempted false else .running }
    | .run _ streaming => s.pc = .running ∧ s' = { s with pc := .attempted streaming }
    | .checkStop => ∃ streaming, s.pc = .attempted streaming ∧
        s' = if s.stop then { s with pc := .returned } else { s with
          streamBackoff := if streaming then backoffInitial else s.streamBackoff, pc := .resting }
    | .waitStream seconds => s.pc = .resting ∧ seconds = s.streamBackoff ∧
        s' = { s with pc := .waitingStream }
    | .woken => s.pc = .waitingReady ∧
          s' = (if s.stop then { s with pc := .returned } else { s with
            readyBackoff := min (s.readyBackoff * 2) backoffMax, pc := .top }) ∨
        s.pc = .waitingStream ∧
          s' = (if s.stop then { s with pc := .returned } else { s with
            streamBackoff := min (s.streamBackoff * 2) backoffMax, pc := .top }) := by
  cases a with
  | setStop => exact (Option.some.inj performed).symm
  -- one place each; the acts with a delay are performed at no other delay
  | test | probe | ensureSlot | run =>
    simp only [step] at performed
    split at performed
    next at_ => exact ⟨at_, (Option.some.inj performed).symm⟩
    · cases performed
  | waitReady seconds | waitStream seconds =>
    simp only [step] at performed
    split at performed
    next at_ =>
      split at performed
      next same => exact ⟨at_, same, (Option.some.inj performed).symm⟩
      · cases performed
    · cases performed
  | checkStop =>
    simp only [step] at performed
    split at performed
    next streaming at_ => exact ⟨streaming, at_, eq_ite_of_some performed⟩
    · cases performed
  -- both waits are woken the same way, and go back to the top unless stop is set
  | woken =>
    simp only [step] at performed
    split at performed
    next at_ =>
      left
      exact ⟨at_, eq_ite_of_some performed⟩
    next at_ =>
      right
      exact ⟨at_, eq_ite_of_some performed⟩
    · cases performed

/-- The loop's own next action, for what the probe, the slot and the stream come to. -/
def next (s : Supervisor) (outcome : Probe) (slotRaised raised streaming : Bool) : Act :=
  match s.pc with
  | .top | .returned => .test
  | .probing => .probe outcome
  | .notReady => .waitReady s.readyBackoff
  | .attempting => .ensureSlot slotRaised
  | .running => .run raised streaming
  | .attempted _ => .checkStop
  | .resting => .waitStream s.streamBackoff
  | .waitingReady | .waitingStream => .woken

/-- Until it has returned the loop goes on, whatever it meets. -/
theorem step_next (s : Supervisor) (open_ : s.pc ≠ .returned) (outcome : Probe)
    (slotRaised raised streaming : Bool) :
    ∃ s', s.step (s.next outcome slotRaised raised streaming) = some s' := by
  obtain ⟨stop, readyBackoff, streamBackoff, pc⟩ := s
  cases pc with
  | returned => exact (open_ rfl).elim
  | top | probing | attempting | running => exact ⟨_, rfl⟩
  | notReady | resting => exact ⟨_, if_pos rfl⟩
  | attempted | waitingReady | waitingStream => cases stop <;> exact ⟨_, rfl⟩

/-- The readiness delay in terms of the probes, at each point of the loop. -/
def ReadyDelay (acts : List Act) (delay : ℚ) : Pc → Prop
  | .top | .probing => delay = backoff (notReadyStreak acts)
  | .notReady | .waitingReady =>
    0 < notReadyStreak acts ∧ delay = backoff (notReadyStreak acts - 1)
  | .returned => True
  | _ => notReadyStreak acts = 0 ∧ delay = backoff 0

/-- The stream delay in terms of the attempts. -/
def StreamDelay (acts : List Act) (delay : ℚ) : Pc → Prop
  | .attempted streaming => ∃ earlier, attempts acts = streaming :: earlier ∧
      delay = backoff (sinceStreaming earlier)
  | .resting | .waitingStream => ∃ streaming earlier, attempts acts = streaming :: earlier ∧
      delay = backoff (doublings (attempts acts))
  | .returned => True
  | _ => delay = backoff (sinceStreaming (attempts acts))

structure Sound (stop : Bool) (acts : List Act) (s : Supervisor) : Prop where
  flag : s.stop = true ↔ stop = true ∨ .setStop ∈ acts
  returned : s.pc = .returned → s.stop = true
  probed : s.pc = .attempting ∨ s.pc = .running → .probe .present ∈ iteration acts
  ready : ReadyDelay acts s.readyBackoff s.pc
  stream : StreamDelay acts s.streamBackoff s.pc

theorem sound_start (stop : Bool) : Sound stop [] (start stop) where
  flag := by simp [start]
  returned := nofun
  probed := nofun
  ready := backoff_zero.symm
  stream := backoff_zero.symm

section Steps

variable {stop : Bool} {acts : List Act} {s s' : Supervisor} {delay : ℚ} {pc : Pc}

/-- An action that does not probe leaves what the delay is measured by. -/
theorem ReadyDelay.quiet (ready : ReadyDelay acts delay pc) {a : Act} (quiet : a.probed? = none) :
    ReadyDelay (acts ++ [a]) delay pc := by
  have same : notReadyStreak (acts ++ [a]) = notReadyStreak acts := by
    rw [notReadyStreak_snoc, quiet]
  unfold ReadyDelay at ready ⊢
  rw [same]
  exact ready

theorem StreamDelay.quiet (stream : StreamDelay acts delay pc) {a : Act}
    (quiet : a.attempt? = none) : StreamDelay (acts ++ [a]) delay pc := by
  have same : attempts (acts ++ [a]) = attempts acts := by
    rw [attempts_snoc, quiet]
    rfl
  unfold StreamDelay at stream ⊢
  rw [same]
  exact stream

theorem Sound.readyStep (sound : Sound stop acts s) {a : Act} (performed : s.step a = some s') :
    ReadyDelay (acts ++ [a]) s'.readyBackoff s'.pc := by
  have effect := step_cases performed
  have ready := sound.ready
  cases a with
  | setStop =>
    obtain rfl : s' = { s with stop := true } := effect
    exact ready.quiet rfl
  | test =>
    obtain ⟨at_, rfl⟩ := effect
    rw [at_] at ready
    dsimp only
    split
    · trivial
    · exact ready.quiet rfl
  | probe outcome =>
    obtain ⟨at_, rfl⟩ := effect
    rw [at_] at ready
    have streak := notReadyStreak_snoc acts (.probe outcome)
    split
    next present =>
      subst present
      exact ⟨streak, backoff_zero.symm⟩
    next other =>
      have longer : notReadyStreak (acts ++ [.probe outcome]) = notReadyStreak acts + 1 :=
        streak.trans (if_neg other)
      refine ⟨by omega, ?_⟩
      rw [longer, Nat.add_sub_cancel]
      exact ready
  | waitReady seconds =>
    obtain ⟨at_, _, rfl⟩ := effect
    rw [at_] at ready
    exact ready.quiet rfl
  | ensureSlot raised =>
    obtain ⟨at_, rfl⟩ := effect
    rw [at_] at ready
    dsimp only
    cases raised <;> exact ready.quiet rfl
  | run raised streaming =>
    obtain ⟨at_, rfl⟩ := effect
    rw [at_] at ready
    exact ready.quiet rfl
  | checkStop =>
    obtain ⟨streaming, at_, rfl⟩ := effect
    rw [at_] at ready
    split
    · trivial
    · exact ready.quiet rfl
  | waitStream seconds =>
    obtain ⟨at_, _, rfl⟩ := effect
    rw [at_] at ready
    exact ready.quiet rfl
  | woken =>
    rcases effect with ⟨at_, rfl⟩ | ⟨at_, rfl⟩
    · rw [at_] at ready
      obtain ⟨some, delay⟩ := ready.quiet (a := .woken) rfl
      split
      · trivial
      -- one more doubling for the probe that was not ready
      · have doubled : min (s.readyBackoff * 2) backoffMax =
            backoff (notReadyStreak (acts ++ [.woken])) := by
          rw [delay, backoff_succ, Nat.sub_add_cancel some]
        exact doubled
    · rw [at_] at ready
      obtain ⟨none, delay⟩ := ready.quiet (a := .woken) rfl
      split
      · trivial
      · have kept : s.readyBackoff = backoff (notReadyStreak (acts ++ [.woken])) := by
          rw [none]
          exact delay
        exact kept

theorem Sound.streamStep (sound : Sound stop acts s) {a : Act} (performed : s.step a = some s') :
    StreamDelay (acts ++ [a]) s'.streamBackoff s'.pc := by
  have effect := step_cases performed
  have stream := sound.stream
  cases a with
  | setStop =>
    obtain rfl : s' = { s with stop := true } := effect
    exact stream.quiet rfl
  | test =>
    obtain ⟨at_, rfl⟩ := effect
    rw [at_] at stream
    dsimp only
    split
    · trivial
    · exact stream.quiet rfl
  | probe outcome =>
    obtain ⟨at_, rfl⟩ := effect
    rw [at_] at stream
    split <;> exact stream.quiet rfl
  | waitReady seconds =>
    obtain ⟨at_, _, rfl⟩ := effect
    rw [at_] at stream
    exact stream.quiet rfl
  | ensureSlot raised =>
    obtain ⟨at_, rfl⟩ := effect
    rw [at_] at stream
    cases raised with
    | true => exact ⟨attempts acts, attempts_snoc acts _, stream⟩
    | false => exact stream.quiet rfl
  | run raised streaming =>
    obtain ⟨at_, rfl⟩ := effect
    rw [at_] at stream
    exact ⟨attempts acts, attempts_snoc acts _, stream⟩
  | checkStop =>
    obtain ⟨streaming, at_, rfl⟩ := effect
    rw [at_] at stream
    obtain ⟨earlier, latest, delay⟩ := stream.quiet (a := .checkStop) rfl
    split
    · trivial
    · refine ⟨streaming, earlier, latest, ?_⟩
      rw [latest]
      cases streaming with
      | true => exact backoff_zero.symm
      | false => exact delay
  | waitStream seconds =>
    obtain ⟨at_, _, rfl⟩ := effect
    rw [at_] at stream
    exact stream.quiet rfl
  | woken =>
    rcases effect with ⟨at_, rfl⟩ | ⟨at_, rfl⟩
    · rw [at_] at stream
      split
      · trivial
      · exact stream.quiet rfl
    · rw [at_] at stream
      obtain ⟨streaming, earlier, latest, delay⟩ := stream.quiet (a := .woken) rfl
      split
      · trivial
      -- the doubling comes after the wait, also for an attempt that reset the delay
      · have next : doublings (streaming :: earlier) + 1 =
            sinceStreaming (streaming :: earlier) := by
          cases streaming <;> rfl
        have doubled : min (s.streamBackoff * 2) backoffMax =
            backoff (sinceStreaming (attempts (acts ++ [.woken]))) := by
          rw [delay, backoff_succ, latest, next]
        exact doubled

theorem step_flag {a : Act} (performed : s.step a = some s') :
    (s'.stop = true ↔ s.stop = true ∨ a = .setStop) ∧
      (s'.pc = .returned → s.pc = .returned ∨ s'.stop = true) := by
  have effect := step_cases performed
  cases a with
  | setStop =>
    obtain rfl : s' = { s with stop := true } := effect
    simp
  -- of the acts at one place, only the test of the flag can return
  | test | ensureSlot =>
    obtain ⟨_, rfl⟩ := effect
    refine ⟨by simp, ?_⟩
    dsimp only
    split <;> simp_all
  | run =>
    obtain ⟨_, rfl⟩ := effect
    simp
  | probe outcome =>
    obtain ⟨_, rfl⟩ := effect
    split <;> simp
  | waitReady | waitStream =>
    obtain ⟨_, _, rfl⟩ := effect
    simp
  | checkStop =>
    obtain ⟨_, _, rfl⟩ := effect
    split <;> simp_all
  | woken =>
    rcases effect with ⟨_, rfl⟩ | ⟨_, rfl⟩
    · split <;> simp_all
    · split <;> simp_all

/-- An attempt is entered by a probe that was ready, and left with its iteration. -/
theorem Sound.probedStep (sound : Sound stop acts s) {a : Act} (performed : s.step a = some s')
    (inside : s'.pc = .attempting ∨ s'.pc = .running) :
    .probe .present ∈ iteration (acts ++ [a]) := by
  have effect := step_cases performed
  -- within one iteration the probe is not forgotten
  have carried : a ≠ .test → (s.pc = .attempting ∨ s.pc = .running) →
      .probe .present ∈ iteration (acts ++ [a]) := by
    intro other before
    rw [iteration_snoc, if_neg other]
    exact List.mem_append_left _ (sound.probed before)
  cases a with
  | setStop =>
    obtain rfl : s' = { s with stop := true } := effect
    exact carried nofun inside
  | test =>
    obtain ⟨_, rfl⟩ := effect
    dsimp only at inside
    split at inside <;> simp at inside
  | probe outcome =>
    obtain ⟨_, rfl⟩ := effect
    split at inside
    next present =>
      subst present
      rw [iteration_snoc, if_neg nofun]
      exact List.mem_append_right _ List.mem_cons_self
    · simp at inside
  | ensureSlot raised =>
    obtain ⟨at_, rfl⟩ := effect
    exact carried nofun (Or.inl at_)
  | waitReady | waitStream =>
    obtain ⟨_, _, rfl⟩ := effect
    simp at inside
  | run =>
    obtain ⟨_, rfl⟩ := effect
    simp at inside
  | checkStop =>
    obtain ⟨_, _, rfl⟩ := effect
    split at inside
    · simp at inside
    · simp at inside
  | woken =>
    rcases effect with ⟨_, rfl⟩ | ⟨_, rfl⟩
    · split at inside <;> simp at inside
    · split at inside <;> simp at inside

theorem Sound.step (sound : Sound stop acts s) {a : Act} (performed : s.step a = some s') :
    Sound stop (acts ++ [a]) s' where
  flag := by
    rw [(step_flag performed).1, sound.flag, List.mem_append, List.mem_singleton, or_assoc]
    simp only [eq_comm]
  returned returned := by
    obtain ⟨flag, either⟩ := step_flag performed
    rcases either returned with before | now
    · exact flag.mpr (Or.inl (sound.returned before))
    · exact now
  probed := sound.probedStep performed
  ready := sound.readyStep performed
  stream := sound.streamStep performed

end Steps

/-- The run rule. -/
theorem sound_run {stop : Bool} {acts : List Act} {s : Supervisor}
    (ran : Machine.run step (start stop) acts = some s) : Sound stop acts s :=
  Machine.run_invariant (sound_start stop) (fun _ _ _ _ sound performed => sound.step performed)
    ran

/-- An action of a run was performed in a state reached by the actions before it. -/
theorem performed_at {stop : Bool} {earlier later : List Act} {a : Act} {s : Supervisor}
    (ran : Machine.run step (start stop) (earlier ++ a :: later) = some s) :
    ∃ mid after, Sound stop earlier mid ∧ mid.step a = some after := by
  rw [Machine.run_append] at ran
  obtain ⟨mid, before, rest⟩ := Option.bind_eq_some_iff.mp ran
  obtain ⟨after, performed, _⟩ := Option.bind_eq_some_iff.mp rest
  exact ⟨mid, after, sound_run before, performed⟩

/-- The supervisor, whatever it meets: it returns only once the stop flag is set, attempts
to stream only after a probe of the same iteration that was ready, and waits as long as
the attempts and the probes before the wait say. Until it returns nothing ends it. -/
theorem runForever_supervises (stop : Bool) (acts : List Act) (s : Supervisor)
    (ran : Machine.run step (start stop) acts = some s) :
    (s.pc = .returned → s.stop = true ∧ (stop = true ∨ .setStop ∈ acts)) ∧
    (∀ earlier a later, acts = earlier ++ a :: later → a.inAttempt = true →
      .probe .present ∈ iteration earlier) ∧
    (∀ seconds, .waitReady seconds ∈ acts ∨ .waitStream seconds ∈ acts →
      1 / 2 ≤ seconds ∧ seconds ≤ 10) ∧
    (∀ earlier seconds later, acts = earlier ++ .waitStream seconds :: later →
      seconds = min (1 / 2 * 2 ^ doublings (attempts earlier)) 10) ∧
    (∀ earlier seconds later, acts = earlier ++ .waitReady seconds :: later →
      0 < notReadyStreak earlier ∧
        seconds = min (1 / 2 * 2 ^ (notReadyStreak earlier - 1)) 10) ∧
    (s.pc ≠ .returned → ∀ outcome slotRaised raised streaming, ∃ s',
      s.step (s.next outcome slotRaised raised streaming) = some s') := by
  -- a wait is performed with the delay the state before it holds
  have stream : ∀ earlier seconds later, acts = earlier ++ .waitStream seconds :: later →
      seconds = backoff (doublings (attempts earlier)) := by
    rintro earlier seconds later rfl
    obtain ⟨mid, after, sound, performed⟩ := performed_at ran
    obtain ⟨at_, same, _⟩ := step_cases performed
    have delay := sound.stream
    rw [at_] at delay
    obtain ⟨_, _, _, value⟩ := delay
    exact same.trans value
  have ready : ∀ earlier seconds later, acts = earlier ++ .waitReady seconds :: later →
      0 < notReadyStreak earlier ∧ seconds = backoff (notReadyStreak earlier - 1) := by
    rintro earlier seconds later rfl
    obtain ⟨mid, after, sound, performed⟩ := performed_at ran
    obtain ⟨at_, same, _⟩ := step_cases performed
    have delay := sound.ready
    rw [at_] at delay
    exact ⟨delay.1, same.trans delay.2⟩
  refine ⟨?_, ?_, ?_, stream, ready, s.step_next⟩
  · intro returned
    have sound := sound_run ran
    have flag := sound.returned returned
    exact ⟨flag, sound.flag.mp flag⟩
  · rintro earlier a later rfl attempting
    obtain ⟨mid, after, sound, performed⟩ := performed_at ran
    have effect := step_cases performed
    cases a with
    | ensureSlot raised => exact sound.probed (Or.inl effect.1)
    | run raised streaming => exact sound.probed (Or.inr effect.1)
    | setStop | test | probe | waitReady | checkStop | waitStream | woken => cases attempting
  · rintro seconds (waited | waited)
    · obtain ⟨earlier, later, split⟩ := List.append_of_mem waited
      rw [(ready earlier seconds later split).2]
      exact backoff_bounds _
    · obtain ⟨earlier, later, split⟩ := List.append_of_mem waited
      rw [stream earlier seconds later split]
      exact backoff_bounds _

/-- A cold start: the publication is late, the first attempt fails before it streams, the
second one streams, and the stop comes while the supervisor waits. -/
def coldStart : List Act :=
  [.test, .probe .raised, .waitReady (1 / 2), .woken,
    .test, .probe .absent, .waitReady 1, .woken,
    .test, .probe .present, .ensureSlot true, .checkStop, .waitStream (1 / 2), .woken,
    .test, .probe .present, .ensureSlot false, .run true true, .checkStop, .waitStream (1 / 2),
    .setStop, .woken]

theorem runForever_supervises_coldStart :
    Machine.run step (start false) coldStart = some ⟨true, 1 / 2, 1 / 2, .returned⟩ ∧
      .setStop ∈ coldStart := by
  have ran : Machine.run step (start false) coldStart = some ⟨true, 1 / 2, 1 / 2, .returned⟩ := by
    decide +kernel
  have stopped := ((runForever_supervises false coldStart _ ran).1 rfl).2
  exact ⟨ran, stopped.resolve_left nofun⟩

end Supervisor

end FleetTelemetry.Cdc
