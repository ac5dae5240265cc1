import FleetTelemetry.Foundations.Objects

/-!
# Memoised rendering

A memoised component keeps the props it last ran with and what it gave for them, and runs
again only for props that compare differently. Its memo shows if nothing it read has
changed behind props that compare the same. A memoised list renders such components under
keys, each of which finds its own memo again by its key.
-/

namespace Foundations

/-- `Object.is` on references. -/
def Obj.is {A : Type} (o o' : Obj A) : Bool := decide (o.address = o'.address)

/-- `Object.is` where either side may be `undefined`. -/
def Obj.isOptional {A : Type} : Option (Obj A) → Option (Obj A) → Bool
  | some o, some o' => o.is o'
  | none, none => true
  | some _, none | none, some _ => false

section Addresses

variable {A : Type}

/-- The reference is the one before, or to an object made since. -/
def Since (n n' : Nat) (before after : Option (Obj A)) : Prop :=
  ∀ o, after = some o → before = some o ∨ n ≤ o.address ∧ o.address < n'

/-- A reference held from before has the address of no other object than itself. -/
structure Held (n : Nat) (held : Obj A) (now : Option (Obj A)) : Prop where
  made : held.address < n
  alike : ∀ o, now = some o → held.address = o.address → held = o

theorem Since.unchanged {n n' : Nat} (now : Option (Obj A)) : Since n n' now now :=
  fun _ found => Or.inl found

theorem Since.alloc {n n' : Nat} (before : Option (Obj A)) (contents : A) (order : n < n') :
    Since n n' before (some ⟨n, contents⟩) := by
  rintro o ⟨rfl⟩
  exact Or.inr ⟨Nat.le_refl n, order⟩

theorem Held.self {n : Nat} {o : Obj A} (made : o.address < n) : Held n o (some o) :=
  ⟨made, fun _ same _ => Option.some.inj same⟩

theorem Held.since {n n' : Nat} {held : Obj A} {before after : Option (Obj A)}
    (h : Held n held before) (since : Since n n' before after) (order : n ≤ n') :
    Held n' held after := by
  refine ⟨Nat.lt_of_lt_of_le h.made order, fun o found same => ?_⟩
  rcases since o found with old | new
  · exact h.alike o old same
  -- an object made since has an address the held one cannot have
  · have := h.made
    omega

/-- A held reference that compares the same is to the same object. -/
theorem Held.eq_of_is {n : Nat} {held now : Obj A} (h : Held n held (some now))
    (same : held.is now = true) : held = now :=
  h.alike now rfl (of_decide_eq_true same)

theorem Held.eq_of_isOptional {n : Nat} {held now : Option (Obj A)}
    (h : ∀ o, held = some o → Held n o now) (same : Obj.isOptional held now = true) :
    held = now := by
  cases held with
  | none =>
    cases now with
    | none => rfl
    | some o => cases same
  | some o =>
    cases now with
    | none => cases same
    | some o' => rw [(h o rfl).eq_of_is same]

/-- Where something was made, a reference to it, and elsewhere the reference of before. -/
def Remade (n : Nat) (before after : Option (Obj A)) (touched : Bool) : Prop :=
  if touched then ∃ o, after = some o ∧ n ≤ o.address else after = before

theorem Remade.trans {n n' : Nat} {before mid after : Option (Obj A)} {first second : Bool}
    (h : Remade n before mid first) (h' : Remade n' mid after second) (order : n ≤ n') :
    Remade n before after (first || second) := by
  cases second with
  | true =>
    obtain ⟨o, made, address⟩ := h'
    rw [Bool.or_true]
    exact ⟨o, made, Nat.le_trans order address⟩
  | false =>
    obtain rfl : after = mid := h'
    rwa [Bool.or_false]

/-- An object that was there before compares differently just where one was made. -/
theorem Remade.is_optional {n : Nat} {before after : Option (Obj A)} {touched : Bool}
    (h : Remade n before after touched) (made : ∀ o, before = some o → o.address < n) :
    Obj.isOptional before after = !touched := by
  -- a value made anew is at an address that no earlier one has
  cases touched with
  | true =>
    obtain ⟨o, rfl, address⟩ := h
    cases before with
    | none => rfl
    | some old =>
      have below := made old rfl
      simp only [Obj.isOptional, Obj.is, Bool.not_true, decide_eq_false_iff_not]
      omega
  | false =>
    obtain rfl : after = before := h
    cases after with
    | none => rfl
    | some o => simp [Obj.isOptional, Obj.is]

variable {K V : Type} [DecidableEq K]

/-- A map of objects after some of them have been made anew. -/
structure Grown (n n' : Nat) (before after : Obj (OrdMap K (Obj V))) : Prop where
  order : n ≤ n'
  map : Since n n' (some before) (some after)
  entries : ∀ k, Since n n' (before.contents.get? k) (after.contents.get? k)

/-- A map held from before, next to the one now there. -/
structure HeldMap (n : Nat) (held now : Obj (OrdMap K (Obj V))) : Prop where
  map : Held n held (some now)
  entries : ∀ k o, held.contents.get? k = some o → Held n o (now.contents.get? k)

/-- The map and its entries have been made. -/
structure Made (n : Nat) (m : Obj (OrdMap K (Obj V))) : Prop where
  map : m.address < n
  entries : ∀ k o, m.contents.get? k = some o → o.address < n

theorem HeldMap.grown {n n' : Nat} {held before after : Obj (OrdMap K (Obj V))}
    (h : HeldMap n held before) (grown : Grown n n' before after) : HeldMap n' held after :=
  ⟨h.map.since grown.map grown.order,
    fun k o found => (h.entries k o found).since (grown.entries k) grown.order⟩

theorem Made.grown {n n' : Nat} {before after : Obj (OrdMap K (Obj V))} (made : Made n before)
    (grown : Grown n n' before after) : Made n' after := by
  constructor
  · rcases grown.map after rfl with same | new
    · cases same
      exact Nat.lt_of_lt_of_le made.map grown.order
    · exact new.2
  · intro k o found
    rcases grown.entries k o found with same | new
    · exact Nat.lt_of_lt_of_le (made.entries k o same) grown.order
    · exact new.2

theorem Made.held {n : Nat} {m : Obj (OrdMap K (Obj V))} (made : Made n m) : HeldMap n m m := by
  refine ⟨.self made.map, fun k o found => ?_⟩
  rw [found]
  exact .self (made.entries k o found)

theorem Grown.unchanged {n n' : Nat} (order : n ≤ n') (m : Obj (OrdMap K (Obj V))) :
    Grown n n' m m :=
  ⟨order, .unchanged _, fun _ => .unchanged _⟩

theorem copySet_alloc (current : Obj (OrdMap K (Obj V))) (key : K) (v : V) (n : Nat) :
    copySet current key (alloc v) n = (⟨n, current.contents.set key ⟨n + 1, v⟩⟩, n + 2) := rfl

theorem grown_copySet (current : Obj (OrdMap K (Obj V))) (key : K) (v : V) (n : Nat) :
    Grown n (copySet current key (alloc v) n).2 current (copySet current key (alloc v) n).1 := by
  rw [copySet_alloc]
  refine ⟨Nat.le_add_right n 2, .alloc _ _ (by simp), ?_⟩
  · intro k o found
    rw [OrdMap.get?_set] at found
    split at found
    · cases found
      exact Or.inr ⟨Nat.le_succ n, by simp⟩
    · exact Or.inl found

/-- The entries of a fold that makes one for each row are those it begins with and those it
makes. -/
theorem since_foldlM {R : Type} {f : OrdMap K (Obj V) → R → Alloc (OrdMap K (Obj V))}
    {key : R → K} {written : R → V}
    (makes : ∀ m row n, f m row n = (m.set (key row) ⟨n, written row⟩, n + 1)) (rows : List R)
    (m : OrdMap K (Obj V)) (n : Nat) :
    n ≤ (rows.foldlM f m n).2 ∧
      ∀ k, Since n (rows.foldlM f m n).2 (m.get? k) ((rows.foldlM f m n).1.get? k) := by
  induction rows generalizing m n with
  | nil => exact ⟨Nat.le_refl n, fun k => .unchanged _⟩
  | cons row rows ih =>
    obtain ⟨order, entries⟩ := ih (m.set (key row) ⟨n, written row⟩) (n + 1)
    rw [foldlM_cons_run, makes]
    refine ⟨Nat.le_of_succ_le order, fun k o found => ?_⟩
    -- an object found at the end is one of the rest, of this row, or of the start
    rcases entries k o found with here | later
    · rw [OrdMap.get?_set] at here
      split at here
      · cases here
        exact Or.inr ⟨Nat.le_refl n, order⟩
      · exact Or.inl here
    · exact Or.inr ⟨Nat.le_of_succ_le later.1, later.2⟩

theorem grown_mapOf {R : Type} (key : R → K) (written : R → V) (rows : List R) (n : Nat)
    (before : Obj (OrdMap K (Obj V))) :
    Grown n (mapOf key (fun row => alloc (written row)) rows n).2 before
      (mapOf key (fun row => alloc (written row)) rows n).1 := by
  obtain ⟨order, entries⟩ := since_foldlM (f := fun entries row => do
    let value ← alloc (written row)
    pure (OrdMap.set entries (key row) value)) (fun _ _ _ => rfl) rows .empty (n + 1)
  refine ⟨Nat.le_of_succ_le order, .alloc _ _ order, ?_⟩
  · intro k o found
    rcases entries k o found with impossible | made
    · rw [OrdMap.get?_empty] at impossible
      cases impossible
    · exact Or.inr ⟨Nat.le_of_succ_le made.1, made.2⟩

/-- A fold that makes nothing. -/
theorem foldlM_next {M E : Type} {f : M → E → Alloc M} (idle : ∀ m e n, (f m e n).2 = n)
    (es : List E) (m : M) (n : Nat) : (es.foldlM f m n).2 = n := by
  induction es generalizing m with
  | nil => rfl
  | cons e es ih =>
    rw [foldlM_cons_run]
    exact (congrArg (fun n' => (es.foldlM f (f m e n).1 n').2) (idle m e n)).trans (ih _)

end Addresses

/-- A mounted component: the props it last ran with, and its output. -/
structure Mounted (P O : Type) where
  props : P
  output : O

structure Component (P O : Type) where
  /-- Whether the memo takes the props for the same. -/
  same : P → P → Bool
  body : P → O

namespace Component

variable {P O : Type} (c : Component P O)

/-- A run of the body. -/
def mount (props : P) : Mounted P O := ⟨props, c.body props⟩

def runs (last : Option (Mounted P O)) (props : P) : Bool :=
  match last with
  | some mounted => !c.same mounted.props props
  | none => true

def render (last : Option (Mounted P O)) (props : P) : Mounted P O :=
  match last with
  | some mounted => if c.same mounted.props props then mounted else c.mount props
  | none => c.mount props

/-- A memo of props that are the same where they compare so is as good as a run. -/
theorem render_eq (last : Option P) {props : P}
    (alike : ∀ old, last = some old → c.same old props = true → old = props) :
    c.render (last.map c.mount) props = c.mount props := by
  cases last with
  | none => rfl
  | some old =>
    simp only [render, Option.map_some]
    split
    next same => rw [alike old rfl same]
    · rfl

section Keyed

variable {K : Type} [DecidableEq K]

/-- The children of a render, each with the memo of its key. -/
def reconcile (last : List (K × Mounted P O)) (children : List (K × P)) :
    List (K × Mounted P O) :=
  children.map fun child => (child.1, c.render (last.lookup child.1) child.2)

/-- The keys of the children that run. -/
def ran (last : List (K × Mounted P O)) (children : List (K × P)) : List K :=
  (children.filter fun child => c.runs (last.lookup child.1) child.2).map Prod.fst

def mountAll (children : List (K × P)) : List (K × Mounted P O) :=
  children.map fun child => (child.1, c.mount child.2)

theorem lookup_mountAll (children : List (K × P)) (k : K) :
    (c.mountAll children).lookup k = (children.lookup k).map c.mount :=
  OrdMap.lookup_map_value (fun _ => c.mount) children k

/-- Children that were there before with their props are as if they had all run. -/
theorem reconcile_eq (last : List (K × P)) {children : List (K × P)}
    (alike : ∀ child ∈ children, ∀ old,
      last.lookup child.1 = some old → c.same old child.2 = true → old = child.2) :
    c.reconcile (c.mountAll last) children = c.mountAll children := by
  rw [reconcile]
  apply List.map_congr_left
  intro child member
  rw [lookup_mountAll, c.render_eq _ (alike child member)]

theorem ran_mountAll (last children : List (K × P)) :
    c.ran (c.mountAll last) children =
      (children.filter fun child => match last.lookup child.1 with
        | some old => !c.same old child.2
        | none => true).map Prod.fst := by
  rw [ran]
  congr 2
  funext child
  rw [lookup_mountAll]
  cases last.lookup child.1 <;> rfl

end Keyed

end Component

/-- A memoised component that renders a list of memoised children. -/
structure Listing (P K Q O : Type) where
  same : P → P → Bool
  children : P → List (K × Q)
  child : Component Q O

/-- A mounted list: the props it last ran with, and its children. -/
structure MountedList (P K Q O : Type) where
  props : P
  children : List (K × Mounted Q O)

def MountedList.outputs {P K Q O : Type} (mounted : MountedList P K Q O) : List O :=
  mounted.children.map fun child => child.2.output

namespace Listing

variable {P K Q O : Type} [DecidableEq K] (c : Listing P K Q O)

/-- A run of the list and of each of its children. -/
def mount (props : P) : MountedList P K Q O := ⟨props, c.child.mountAll (c.children props)⟩

/-- The children of the list that is mounted. -/
def memos (last : Option (MountedList P K Q O)) : List (K × Mounted Q O) :=
  match last with
  | some mounted => mounted.children
  | none => []

def runs (last : Option (MountedList P K Q O)) (props : P) : Bool :=
  match last with
  | some mounted => !c.same mounted.props props
  | none => true

def render (last : Option (MountedList P K Q O)) (props : P) : MountedList P K Q O :=
  match last with
  | some mounted =>
    if c.same mounted.props props then mounted
    else ⟨props, c.child.reconcile mounted.children (c.children props)⟩
  | none => ⟨props, c.child.reconcile [] (c.children props)⟩

/-- The keys of the children that a render runs. -/
def ran (last : Option (MountedList P K Q O)) (props : P) : List K :=
  if c.runs last props then c.child.ran (memos last) (c.children props) else []

/-- Props that compare the same are the same, those of the children at their keys too. -/
structure Alike (old props : P) : Prop where
  list : c.same old props = true → old = props
  children : ∀ child ∈ c.children props, ∀ q, (c.children old).lookup child.1 = some q →
    c.child.same q child.2 = true → q = child.2

/-- The memoised list is what a run of everything would mount. -/
theorem render_eq (last : Option P) {props : P}
    (alike : ∀ old, last = some old → c.Alike old props) :
    c.render (last.map c.mount) props = c.mount props := by
  cases last with
  | none => exact congrArg (MountedList.mk props) (c.child.reconcile_eq [] nofun)
  | some old =>
    simp only [render, Option.map_some]
    split
    next same => rw [(alike old rfl).list same]
    · exact congrArg (MountedList.mk props) (c.child.reconcile_eq _ (alike old rfl).children)

theorem ran_nil (last : Option (MountedList P K Q O)) {props : P}
    (none_listed : c.children props = []) : c.ran last props = [] := by
  rw [ran, none_listed]
  exact ite_self _

/-- Skipping the list skips no child that would run. -/
theorem ran_eq {old props : P} (reflexive : ∀ q, c.child.same q q = true)
    (unique : (c.children props).map Prod.fst |>.Nodup)
    (alike : c.same old props = true → old = props) :
    c.ran (some (c.mount old)) props =
      ((c.children props).filter fun child => match (c.children old).lookup child.1 with
        | some q => !c.child.same q child.2
        | none => true).map Prod.fst := by
  rw [← Component.ran_mountAll]
  unfold ran
  split
  · rfl
  next idle =>
    have same : c.same old props = true := by simpa [runs, mount] using idle
    obtain rfl := alike same
    -- every child finds its own props
    rw [Component.ran_mountAll, List.filter_eq_nil_iff.mpr, List.map_nil]
    intro child member
    rw [OrdMap.lookup_of_mem unique member]
    simp [reflexive]

end Listing

end Foundations
