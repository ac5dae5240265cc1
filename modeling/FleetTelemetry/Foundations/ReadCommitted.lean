import Mathlib.Logic.Relation
import Mathlib.Data.List.Basic

/-!
# Read-committed transactions with row locks

A transaction body is a tree of statements. Each statement is evaluated on the latest
committed state overlaid with the transaction's own pending writes, takes its locks
before it writes, and keeps them until the transaction ends. Pending writes become
visible to the other transactions in one step, at commit; a rollback drops them.

The writes are values, not increments: a statement computes them once, under its locks,
and commit installs exactly those values. That the committed state did not move under a
held lock is therefore something to prove, not something the model assumes.

A change from outside is any other writer of the database. It sees which keys are locked,
and what it may do about them is a parameter.
-/

namespace Foundations

/-- A transaction body: the statements it sends and what it does with each answer. -/
inductive Txn (S : Type) (R : S → Type) (E A : Type) : Type
  | ret (a : A)
  | raise (e : E)
  | exec (s : S) (next : R s → Txn S R E A)

namespace Txn

variable {S : Type} {R : S → Type} {E A B : Type}

def bind : Txn S R E A → (A → Txn S R E B) → Txn S R E B
  | ret a, f => f a
  | raise e, _ => raise e
  | exec s next, f => exec s fun r => (next r).bind f

instance : Monad (Txn S R E) where
  pure := ret
  bind := bind

/-- One statement on its own. -/
def stmt (s : S) : Txn S R E (R s) := exec s ret

@[simp] theorem pure_eq (a : A) : (pure a : Txn S R E A) = ret a := rfl

@[simp] theorem ret_bind (a : A) (f : A → Txn S R E B) : (ret a >>= f) = f a := rfl

@[simp] theorem raise_bind (e : E) (f : A → Txn S R E B) : (raise e >>= f) = raise e := rfl

@[simp] theorem exec_bind (s : S) (next : R s → Txn S R E A) (f : A → Txn S R E B) :
    (exec s next >>= f) = exec s fun r => next r >>= f := rfl

@[simp] theorem stmt_bind (s : S) (f : R s → Txn S R E B) : (stmt s >>= f) = exec s f := rfl

end Txn

/-- What the database contributes: how a write changes a state, what a statement answers
and writes when evaluated on a state, and which keys it locks there. -/
structure Engine (D S : Type) (R : S → Type) (W K E : Type) where
  write : D → W → D
  exec : (s : S) → D → Except E (R s × List W)
  locks : S → D → List K

/-- An open transaction. `answered` records its statements so far with their answers. -/
structure Session (C S : Type) (R : S → Type) (W K E A : Type) where
  call : C
  rest : Txn S R E A
  answered : List (Sigma R)
  pending : List W
  held : List K

inductive Event (C S : Type) (R : S → Type) (D E A : Type) where
  | returned (call : C) (answered : List (Sigma R)) (result : A) (before after : D)
  | raised (call : C) (error : E) (state : D)
  | outside (before after : D)

structure State (C D S : Type) (R : S → Type) (W K E A : Type) where
  db : D
  sessions : Nat → Option (Session C S R W K E A)
  log : List (Event C S R D E A)

variable {C D S W K E A : Type} {R : S → Type}

namespace Event

def before : Event C S R D E A → D
  | returned _ _ _ b _ => b
  | raised _ _ d => d
  | outside b _ => b

def after : Event C S R D E A → D
  | returned _ _ _ _ d => d
  | raised _ _ d => d
  | outside _ d => d

end Event

namespace Engine

variable (eng : Engine D S R W K E)

def writeAll (ws : List W) (d : D) : D := ws.foldl eng.write d

theorem writeAll_append (xs ys : List W) (d : D) :
    eng.writeAll (xs ++ ys) d = eng.writeAll ys (eng.writeAll xs d) :=
  List.foldl_append

@[simp] theorem writeAll_nil (d : D) : eng.writeAll [] d = d := rfl

@[simp] theorem writeAll_cons (w : W) (ws : List W) (d : D) :
    eng.writeAll (w :: ws) d = eng.writeAll ws (eng.write d w) := rfl

/-- The state as an open transaction sees it. -/
def view (o : Session C S R W K E A) (d : D) : D := eng.writeAll o.pending d

/-- The body run alone: the serial meaning of a transaction. -/
def run : Txn S R E A → D → Except E (A × D)
  | .ret a, d => .ok (a, d)
  | .raise e, _ => .error e
  | .exec s next, d =>
    match eng.exec s d with
    | .error e => .error e
    | .ok (r, ws) => run (next r) (eng.writeAll ws d)

theorem run_bind {B : Type} (t : Txn S R E A) (f : A → Txn S R E B) (d : D) :
    eng.run (t >>= f) d =
      match eng.run t d with
      | .error e => .error e
      | .ok (a, d') => eng.run (f a) d' := by
  induction t generalizing d with
  | ret a => rfl
  | raise e => rfl
  | exec q next ih =>
    simp only [Txn.exec_bind, run]
    cases eng.exec q d with
    | error e => rfl
    | ok answer => exact ih answer.1 (eng.writeAll answer.2 d)

/-- The body run alone gets to its end. -/
def Returns (t : Txn S R E A) (d : D) : Prop := ∃ a d', eng.run t d = .ok (a, d')

theorem returns_ret (a : A) (d : D) : eng.Returns (.ret a : Txn S R E A) d := ⟨a, d, rfl⟩

theorem not_returns_raise (e : E) (d : D) : ¬eng.Returns (.raise e : Txn S R E A) d := by
  rintro ⟨a, d', done⟩
  cases done

theorem returns_exec (q : S) (next : R q → Txn S R E A) (d : D) :
    eng.Returns (.exec q next) d ↔
      ∃ r ws, eng.exec q d = .ok (r, ws) ∧ eng.Returns (next r) (eng.writeAll ws d) := by
  constructor
  · rintro ⟨a, d', done⟩
    simp only [run] at done
    split at done
    · cases done
    next r ws answered => exact ⟨r, ws, answered, a, d', done⟩
  · rintro ⟨r, ws, answered, a, d', done⟩
    exact ⟨a, d', by simp only [run, answered, done]⟩

end Engine

namespace Session

def fresh (body : C → Txn S R E A) (c : C) : Session C S R W K E A := ⟨c, body c, [], [], []⟩

def advance (o : Session C S R W K E A) (q : S) (r : R q) (next : R q → Txn S R E A)
    (ws : List W) (ks : List K) : Session C S R W K E A :=
  { o with
    rest := next r
    answered := o.answered ++ [⟨q, r⟩]
    pending := o.pending ++ ws
    held := o.held ++ ks }

end Session

namespace State

def start (d : D) : State C D S R W K E A := ⟨d, fun _ => none, []⟩

def put (s : State C D S R W K E A) (t : Nat) (o : Option (Session C S R W K E A)) :
    State C D S R W K E A :=
  { s with sessions := fun u => if u = t then o else s.sessions u }

@[simp] theorem put_db (s : State C D S R W K E A) (t : Nat)
    (o : Option (Session C S R W K E A)) : (s.put t o).db = s.db := rfl

@[simp] theorem put_log (s : State C D S R W K E A) (t : Nat)
    (o : Option (Session C S R W K E A)) : (s.put t o).log = s.log := rfl

@[simp] theorem put_self (s : State C D S R W K E A) (t : Nat)
    (o : Option (Session C S R W K E A)) : (s.put t o).sessions t = o := by
  simp [put]

theorem put_other (s : State C D S R W K E A) (t u : Nat)
    (o : Option (Session C S R W K E A)) (apart : u ≠ t) :
    (s.put t o).sessions u = s.sessions u := by
  simp [put, apart]

/-- Some open transaction other than `t` holds the key. -/
def HeldByOther (s : State C D S R W K E A) (t : Nat) (k : K) : Prop :=
  ∃ u o, u ≠ t ∧ s.sessions u = some o ∧ k ∈ o.held

def Held (s : State C D S R W K E A) (k : K) : Prop :=
  ∃ u o, s.sessions u = some o ∧ k ∈ o.held

end State

section Steps

variable (eng : Engine D S R W K E) (body : C → Txn S R E A)
  (env : (K → Prop) → D → D → Prop)

/-- One step of the system. A statement waits while another transaction holds a lock it
needs; `abort` covers a crash, a lost connection and a deadlock victim at any point. -/
inductive Step : State C D S R W K E A → State C D S R W K E A → Prop
  | begin {s} (t : Nat) (c : C) (idle : s.sessions t = none) :
      Step s (s.put t (some (.fresh body c)))
  | statement {s} (t : Nat) {o} {q : S} {next} {r : R q} {ws}
      (running : s.sessions t = some o) (point : o.rest = .exec q next)
      -- the locks are those the statement takes on the state it sees, not on an earlier one
      (free : ∀ k ∈ eng.locks q (eng.view o s.db), ¬s.HeldByOther t k)
      (done : eng.exec q (eng.view o s.db) = .ok (r, ws)) :
      Step s (s.put t (some (o.advance q r next ws (eng.locks q (eng.view o s.db)))))
  | fail {s} (t : Nat) {o} {q : S} {next} {e : E}
      (running : s.sessions t = some o) (point : o.rest = .exec q next)
      (free : ∀ k ∈ eng.locks q (eng.view o s.db), ¬s.HeldByOther t k)
      (failed : eng.exec q (eng.view o s.db) = .error e) :
      Step s { s.put t none with log := s.log ++ [.raised o.call e s.db] }
  | raise {s} (t : Nat) {o} {e : E}
      (running : s.sessions t = some o) (point : o.rest = .raise e) :
      Step s { s.put t none with log := s.log ++ [.raised o.call e s.db] }
  | commit {s} (t : Nat) {o} {a : A}
      (running : s.sessions t = some o) (point : o.rest = .ret a) :
      Step s { s.put t none with
        db := eng.view o s.db
        log := s.log ++ [.returned o.call o.answered a s.db (eng.view o s.db)] }
  | abort {s} (t : Nat) {o} (running : s.sessions t = some o) : Step s (s.put t none)
  | outside {s} {d : D} (allowed : env s.Held s.db d) :
      Step s { s with db := d, log := s.log ++ [.outside s.db d] }

/-- The states some run reaches from a database with no transaction open. -/
def Reachable (d : D) (s : State C D S R W K E A) : Prop :=
  Relation.ReflTransGen (Step eng body env) (.start d) s

end Steps

end Foundations
