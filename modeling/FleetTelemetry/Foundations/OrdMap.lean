import Mathlib.Algebra.Ring.Int.Defs
import Mathlib.Data.List.Nodup
import Mathlib.Data.List.Basic
import Mathlib.Data.List.Induction

/-!
# Insertion-ordered maps

A finite map that remembers the order in which its keys were first set: the common
shape of a table read by primary key, a Python `dict` and a JavaScript `Map`. Setting
a known key replaces its value in place, setting a new key appends it. The entries
carry the proof that no key occurs twice, so no operation has to re-check it.
-/

namespace Foundations

structure OrdMap (K V : Type) where
  entries : List (K × V)
  nodup : (entries.map Prod.fst).Nodup

namespace OrdMap

variable {K V : Type}

def empty : OrdMap K V := ⟨[], List.nodup_nil⟩

def keys (m : OrdMap K V) : List K := m.entries.map Prod.fst

theorem keys_nodup (m : OrdMap K V) : m.keys.Nodup := m.nodup

variable [DecidableEq K]

def get? (m : OrdMap K V) (k : K) : Option V := m.entries.lookup k

def has (m : OrdMap K V) (k : K) : Bool := decide (k ∈ m.keys)

/-- Replace the value of `k`, leaving every other entry and the order alone. -/
def replaceIn (k : K) (v : V) (l : List (K × V)) : List (K × V) :=
  l.map fun e => if e.1 = k then (k, v) else e

theorem fst_replaceIn (k : K) (v : V) (l : List (K × V)) :
    (replaceIn k v l).map Prod.fst = l.map Prod.fst := by
  induction l with
  | nil => rfl
  | cons e rest ih =>
    simp only [replaceIn, List.map_cons, List.map_map] at ih ⊢
    rw [ih]
    by_cases same : e.1 = k <;> simp [same]

theorem lookup_replaceIn (k : K) (v : V) (l : List (K × V)) (k' : K) :
    (replaceIn k v l).lookup k' =
      if k' = k ∧ k ∈ l.map Prod.fst then some v else l.lookup k' := by
  induction l with
  | nil => simp [replaceIn]
  | cons e rest ih =>
    obtain ⟨a, b⟩ := e
    simp only [replaceIn, List.map_cons] at ih ⊢
    by_cases here : a = k
    · subst a
      -- the entry that is replaced: asked for it, or for one behind it
      by_cases asked : k' = k
      · subst k'
        simp
      · have apart : (k' == k) = false := by simpa using asked
        simp [List.lookup_cons, apart, ih, asked]
    · by_cases asked : k' = a
      · subst k'
        simp [here]
      · have apart : (k' == a) = false := by simpa using asked
        have other : k ≠ a := fun equal => here equal.symm
        simp only [here, if_false, List.lookup_cons, apart, ih, List.mem_cons, other, false_or]

def set (m : OrdMap K V) (k : K) (v : V) : OrdMap K V :=
  if known : k ∈ m.keys then
    ⟨replaceIn k v m.entries, by rw [fst_replaceIn]; exact m.nodup⟩
  else
    ⟨m.entries ++ [(k, v)], by
      rw [List.map_append]
      exact List.nodup_append.mpr ⟨m.nodup, by simp, by
        intro a left b right equal
        simp only [List.map_cons, List.map_nil, List.mem_singleton] at right
        exact known (right ▸ equal ▸ left)⟩⟩

theorem entries_set (m : OrdMap K V) (k : K) (v : V) :
    (m.set k v).entries =
      if k ∈ m.keys then replaceIn k v m.entries else m.entries ++ [(k, v)] := by
  unfold set
  split <;> rfl

omit [DecidableEq K] in
@[simp] theorem keys_empty : (empty : OrdMap K V).keys = [] := rfl

@[simp] theorem get?_empty (k : K) : (empty : OrdMap K V).get? k = none := rfl

theorem mem_keys_iff (m : OrdMap K V) (k : K) : k ∈ m.keys ↔ (m.get? k).isSome := by
  unfold keys get?
  induction m.entries with
  | nil => simp
  | cons e rest ih =>
    obtain ⟨a, b⟩ := e
    by_cases asked : k = a
    · subst k
      simp
    · have apart : (k == a) = false := by simpa using asked
      simp only [List.map_cons, List.mem_cons, asked, false_or, List.lookup_cons, apart, ih]

theorem get?_eq_none_iff (m : OrdMap K V) (k : K) : m.get? k = none ↔ k ∉ m.keys := by
  rw [mem_keys_iff]
  cases m.get? k <;> simp

/-- Maps with the same keys agree on a key if they do so when it is present. -/
theorem get?_eq_of_keys (m m' : OrdMap K V) (k : K) (rows : k ∈ m.keys ↔ k ∈ m'.keys)
    (value : k ∈ m.keys → m.get? k = m'.get? k) : m.get? k = m'.get? k := by
  by_cases present : k ∈ m.keys
  · exact value present
  · rw [(get?_eq_none_iff m k).mpr present, (get?_eq_none_iff m' k).mpr (mt rows.mpr present)]

@[simp] theorem has_iff (m : OrdMap K V) (k : K) : m.has k = true ↔ k ∈ m.keys := by
  simp [has]

theorem keys_set_of_mem (m : OrdMap K V) (k : K) (v : V) (known : k ∈ m.keys) :
    (m.set k v).keys = m.keys := by
  rw [keys, entries_set, if_pos known, fst_replaceIn, keys]

theorem keys_set_of_not_mem (m : OrdMap K V) (k : K) (v : V) (fresh : k ∉ m.keys) :
    (m.set k v).keys = m.keys ++ [k] := by
  rw [keys, entries_set, if_neg fresh, List.map_append, keys, List.map_cons, List.map_nil]

@[simp] theorem mem_keys_set (m : OrdMap K V) (k k' : K) (v : V) :
    k' ∈ (m.set k v).keys ↔ k' = k ∨ k' ∈ m.keys := by
  by_cases known : k ∈ m.keys
  · rw [keys_set_of_mem m k v known]
    constructor
    · exact Or.inr
    · rintro (rfl | old)
      · exact known
      · exact old
  · rw [keys_set_of_not_mem m k v known]
    simp [or_comm]

theorem get?_set (m : OrdMap K V) (k k' : K) (v : V) :
    (m.set k v).get? k' = if k' = k then some v else m.get? k' := by
  by_cases known : k ∈ m.keys
  · rw [get?, entries_set, if_pos known, lookup_replaceIn, get?]
    have listed : k ∈ m.entries.map Prod.fst := known
    simp [listed]
  · rw [get?, entries_set, if_neg known, List.lookup_append, get?]
    by_cases asked : k' = k
    · subst k'
      have absent : m.entries.lookup k = none := (get?_eq_none_iff m k).mpr known
      simp [absent]
    · have apart : (k' == k) = false := by simpa using asked
      simp [List.lookup_cons, apart, asked]

@[simp] theorem get?_set_self (m : OrdMap K V) (k : K) (v : V) :
    (m.set k v).get? k = some v := by
  simp [get?_set]

theorem get?_set_of_ne (m : OrdMap K V) (k k' : K) (v : V) (apart : k' ≠ k) :
    (m.set k v).get? k' = m.get? k' := by
  simp [get?_set, apart]

theorem lookup_of_mem {l : List (K × V)} (unique : (l.map Prod.fst).Nodup) {k : K} {v : V}
    (member : (k, v) ∈ l) : l.lookup k = some v := by
  induction l with
  | nil => simp at member
  | cons e rest ih =>
    obtain ⟨a, b⟩ := e
    simp only [List.map_cons, List.nodup_cons] at unique
    rcases List.mem_cons.mp member with head | tail
    · cases head
      simp
    · have apart : k ≠ a := by
        rintro rfl
        exact unique.1 (List.mem_map.mpr ⟨(k, v), tail, rfl⟩)
      have differs : (k == a) = false := by simpa using apart
      simpa [List.lookup_cons, differs] using ih unique.2 tail

theorem mem_of_lookup {l : List (K × V)} {k : K} {v : V} (found : l.lookup k = some v) :
    (k, v) ∈ l := by
  induction l with
  | nil => simp at found
  | cons e rest ih =>
    obtain ⟨a, b⟩ := e
    by_cases same : k = a
    · subst same
      simp only [List.lookup_cons_self, Option.some.injEq] at found
      subst found
      exact List.mem_cons_self
    · have differs : (k == a) = false := by simpa using same
      rw [List.lookup_cons, differs] at found
      exact List.mem_cons_of_mem _ (ih found)

theorem mem_of_get? (m : OrdMap K V) (k : K) (v : V) (found : m.get? k = some v) :
    (k, v) ∈ m.entries :=
  mem_of_lookup found

/-- With distinct keys the order of the entries does not matter. -/
theorem lookup_perm {l l' : List (K × V)} (unique : (l'.map Prod.fst).Nodup) (perm : l.Perm l')
    (k : K) : l.lookup k = l'.lookup k := by
  cases found : l.lookup k with
  | some v => exact (lookup_of_mem unique (perm.subset (mem_of_lookup found))).symm
  | none =>
    rw [List.lookup_eq_none_iff] at found
    symm
    rw [List.lookup_eq_none_iff]
    exact fun e member => found e (perm.symm.subset member)

theorem lookup_map_value {W : Type} (f : K → V → W) (l : List (K × V)) (k : K) :
    (l.map fun e => (e.1, f e.1 e.2)).lookup k = (l.lookup k).map (f k) := by
  induction l with
  | nil => rfl
  | cons e l ih =>
    obtain ⟨a, b⟩ := e
    rw [List.map_cons, List.lookup_cons, List.lookup_cons]
    by_cases same : k = a
    · subst same
      simp
    · have differs : (k == a) = false := by simpa using same
      simp [differs, ih]

/-- A map is its keys in order, each with its value. -/
theorem entries_eq (m : OrdMap K V) :
    m.entries = m.keys.filterMap fun k => (m.get? k).map (Prod.mk k) := by
  have each : ∀ e ∈ m.entries, (m.get? e.1).map (Prod.mk e.1) = some e := by
    intro e member
    have found : m.get? e.1 = some e.2 := lookup_of_mem m.nodup member
    simp [found]
  -- induction over the entries, looking each key up in the whole map
  have general : ∀ l : List (K × V), (∀ e ∈ l, (m.get? e.1).map (Prod.mk e.1) = some e) →
      l = (l.map Prod.fst).filterMap fun k => (m.get? k).map (Prod.mk k) := by
    intro l all
    induction l with
    | nil => rfl
    | cons e rest ih =>
      simp only [List.map_cons, List.filterMap_cons, all e (by simp)]
      rw [← ih fun e member => all e (by simp [member])]
  exact general m.entries each

/-- Maps with the same keys in the same order and the same values are equal. -/
theorem ext {m m' : OrdMap K V} (keys : m.keys = m'.keys) (values : ∀ k, m.get? k = m'.get? k) :
    m = m' := by
  have same : m.entries = m'.entries := by
    rw [entries_eq m, entries_eq m', keys]
    simp only [values]
  cases m
  cases m'
  simpa using same

theorem set_same {m : OrdMap K V} {k : K} {v : V} (found : m.get? k = some v) : m.set k v = m := by
  have known : k ∈ m.keys := by
    rw [mem_keys_iff, found]
    rfl
  refine ext (keys_set_of_mem m k v known) fun k' => ?_
  rw [get?_set]
  split
  next equal => rw [equal, found]
  · rfl

section Map

variable {W : Type} (f : V → W)

omit [DecidableEq K] in
/-- The values under a function. -/
def map (m : OrdMap K V) : OrdMap K W :=
  ⟨m.entries.map fun e => (e.1, f e.2), by rw [List.map_map]; exact m.nodup⟩

omit [DecidableEq K] in
@[simp] theorem keys_map (m : OrdMap K V) : (m.map f).keys = m.keys :=
  List.map_map

@[simp] theorem get?_map (m : OrdMap K V) (k : K) : (m.map f).get? k = (m.get? k).map f :=
  lookup_map_value (fun _ => f) m.entries k

theorem map_set (m : OrdMap K V) (k : K) (v : V) :
    (m.set k v).map f = (m.map f).set k (f v) := by
  apply ext
  · by_cases known : k ∈ m.keys
    · rw [keys_map, keys_set_of_mem _ _ _ known, keys_set_of_mem _ _ _ (by simpa), keys_map]
    · rw [keys_map, keys_set_of_not_mem _ _ _ known, keys_set_of_not_mem _ _ _ (by simpa),
        keys_map]
  · intro k'
    rw [get?_map, get?_set, get?_set, get?_map]
    split <;> rfl

@[simp] theorem map_id (m : OrdMap K V) : m.map id = m := by
  apply ext
  · exact keys_map id m
  · intro k
    rw [get?_map, Option.map_id, id]

end Map

/-- Setting each listed key to its value. -/
theorem get?_foldl_set (ks : List K) (f : K → V) (m : OrdMap K V) (k : K) :
    (ks.foldl (fun m k => m.set k (f k)) m).get? k = if k ∈ ks then some (f k) else m.get? k := by
  induction ks generalizing m with
  | nil => simp
  | cons a ks ih =>
    rw [List.foldl_cons, ih, get?_set]
    by_cases later : k ∈ ks
    · simp [later]
    · by_cases same : k = a
      · subst same
        simp
      · simp [later, same]

/-- Setting a list of entries with distinct keys, over what was there before. -/
theorem get?_foldl_entries (l : List (K × V)) (unique : (l.map Prod.fst).Nodup) (m : OrdMap K V)
    (k : K) : (l.foldl (fun m e => m.set e.1 e.2) m).get? k = (l.lookup k).or (m.get? k) := by
  induction l generalizing m with
  | nil => rfl
  | cons e l ih =>
    obtain ⟨a, b⟩ := e
    simp only [List.map_cons, List.nodup_cons] at unique
    rw [List.foldl_cons, ih unique.2, get?_set]
    by_cases same : k = a
    · subst same
      -- the first entry decides its key only because no later one has it
      have absent : l.lookup k = none := by
        rw [List.lookup_eq_none_iff]
        intro e member
        have apart : k ≠ e.1 := by
          rintro rfl
          exact unique.1 (List.mem_map.mpr ⟨e, member, rfl⟩)
        simpa using apart
      simp [absent]
    · have differs : (k == a) = false := by simpa using same
      simp [List.lookup_cons, differs, same]

/-- A map made of rows has their keys, each where it first occurs. -/
theorem keys_foldl_rows {R : Type} (key : R → K) (value : R → V) (rows : List R) :
    (rows.foldl (fun m row => m.set (key row) (value row)) empty).keys =
      (rows.map key).eraseDups := by
  -- a key stays where it first stood, so the last row is split off
  induction rows using List.reverseRecOn with
  | nil => rfl
  | append_singleton rows row ih =>
    rw [List.foldl_concat, List.map_append, List.eraseDups_append, ← ih]
    by_cases known : key row ∈ (rows.map key).eraseDups
    · rw [keys_set_of_mem _ _ _ (ih ▸ known)]
      have old : [key row].removeAll (rows.map key) = [] := by
        simpa [List.removeAll] using known
      rw [List.map_singleton, old, List.eraseDups_nil, List.append_nil]
    · rw [keys_set_of_not_mem _ _ _ (ih ▸ known)]
      have new : [key row].removeAll (rows.map key) = [key row] := by
        simpa [List.removeAll] using known
      rw [List.map_singleton, new, List.eraseDups_cons, List.filter_nil, List.eraseDups_nil]

omit [DecidableEq K] in
theorem eraseDups_of_nodup [BEq K] [LawfulBEq K] {ks : List K} (distinct : ks.Nodup) :
    ks.eraseDups = ks := by
  induction ks with
  | nil => rfl
  | cons k ks ih =>
    rw [List.nodup_cons] at distinct
    have others : (ks.filter fun k' => !k' == k) = ks := by
      rw [List.filter_eq_self]
      intro k' member
      have apart : k' ≠ k := fun same => distinct.1 (same ▸ member)
      simpa using apart
    rw [List.eraseDups_cons, others, ih distinct.2]

/-- Setting new keys appends their entries. -/
theorem entries_foldl_entries (l : List (K × V)) (m : OrdMap K V)
    (unique : (m.keys ++ l.map Prod.fst).Nodup) :
    (l.foldl (fun m e => m.set e.1 e.2) m).entries = m.entries ++ l := by
  induction l generalizing m with
  | nil => simp
  | cons e l ih =>
    obtain ⟨a, b⟩ := e
    have fresh : a ∉ m.keys := by
      intro known
      exact (List.nodup_append.mp unique).2.2 a known a (by simp) rfl
    have unique' : ((m.set a b).keys ++ l.map Prod.fst).Nodup := by
      rw [keys_set_of_not_mem m a b fresh]
      simpa using unique
    rw [List.foldl_cons, ih (m.set a b) unique', entries_set, if_neg fresh]
    simp

theorem keys_foldl_set (ks : List K) (f : K → V) (m : OrdMap K V) (known : ∀ k ∈ ks, k ∈ m.keys) :
    (ks.foldl (fun m k => m.set k (f k)) m).keys = m.keys := by
  induction ks generalizing m with
  | nil => rfl
  | cons a ks ih =>
    have same := keys_set_of_mem m a (f a) (known a List.mem_cons_self)
    rw [List.foldl_cons, ih]
    · exact same
    · intro k member
      rw [same]
      exact known k (List.mem_cons_of_mem _ member)

section Total

/-- The sum of all values. -/
def total (m : OrdMap K Int) : Int := (m.entries.map Prod.snd).sum

theorem sum_replaceIn {l : List (K × Int)} (unique : (l.map Prod.fst).Nodup) {k : K} {v : Int}
    (found : l.lookup k = some v) (v' : Int) :
    ((replaceIn k v' l).map Prod.snd).sum = (l.map Prod.snd).sum + (v' - v) := by
  induction l with
  | nil => simp at found
  | cons e rest ih =>
    obtain ⟨a, b⟩ := e
    simp only [List.map_cons, List.nodup_cons] at unique
    by_cases same : a = k
    · subst a
      simp only [List.lookup_cons_self, Option.some.injEq] at found
      subst b
      -- no later entry has the key, so the rest is left as it was
      have kept : replaceIn k v' rest = rest := by
        refine (List.map_congr_left ?_).trans (List.map_id rest)
        intro e member
        have apart : e.1 ≠ k := by
          rintro rfl
          exact unique.1 (List.mem_map.mpr ⟨e, member, rfl⟩)
        simp [apart]
      have cons : replaceIn k v' ((k, v) :: rest) = (k, v') :: rest := by
        rw [replaceIn, List.map_cons, if_pos rfl]
        exact congrArg _ kept
      rw [cons, List.map_cons, List.map_cons, List.sum_cons, List.sum_cons]
      omega
    · have differs : (k == a) = false := by simpa using Ne.symm same
      rw [List.lookup_cons, differs] at found
      have tail := ih unique.2 found
      simp only [replaceIn, List.map_cons, List.sum_cons, if_neg same] at tail ⊢
      omega

theorem total_set {m : OrdMap K Int} {k : K} {v : Int} (found : m.get? k = some v) (v' : Int) :
    (m.set k v').total = m.total + (v' - v) := by
  have known : k ∈ m.keys := by rw [mem_keys_iff, found]; rfl
  rw [total, entries_set, if_pos known]
  exact sum_replaceIn m.nodup found v'

end Total

end OrdMap

end Foundations
