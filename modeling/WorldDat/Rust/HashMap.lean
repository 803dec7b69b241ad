import Mathlib.Data.List.Nodup
import Mathlib.Data.List.Perm.Basic

/-
  Hash maps whose iteration order is fixed by their hasher
  and otherwise arbitrary.

  A map keeps one entry for each key.  Iterating over it
  lists the entries in an order of which nothing is known
  but that it is a permutation.

  Main declarations:
    * `Rust.RandomState`
    * `Rust.HashMap`
    * `Rust.HashMap.get_insert`
    * `Rust.HashMap.mem_iter_iff`
    * `Rust.HashMap.exists_split_of_get`
-/

------------------------------------------------------------
-- Association Lists
------------------------------------------------------------

namespace Rust

namespace Entries

variable {K V : Type} [DecidableEq K]

/- Overwrite the value at a key, or add the key at the end. -/
def put
    (key : K)
    (value : V) :
    List (K × V) → List (K × V)
| [] => [(key, value)]
| (other, old) :: rest =>
    if other = key then
      (key, value) :: rest
    else
      (other, old) :: put key value rest

/- A new key goes behind the old entries. -/
theorem put_of_notMem
    {key : K}
    (value : V)
    {entries : List (K × V)}
    (hNew : key ∉ entries.map Prod.fst) :
    put key value entries = entries ++ [(key, value)] := by
  induction entries with
  | nil => rfl
  | cons entry rest ih =>
      rcases entry with ⟨other, old⟩
      simp only [List.map_cons, List.mem_cons,
        not_or] at hNew
      have hOther : other ≠ key := fun h => hNew.1 h.symm
      simp [put, hOther, ih hNew.2]

/- A known key keeps its place. -/
theorem put_of_split
    {key : K}
    {old value : V}
    {front back : List (K × V)}
    (hFront : key ∉ front.map Prod.fst) :
    put key value (front ++ (key, old) :: back) =
      front ++ (key, value) :: back := by
  induction front with
  | nil => simp [put]
  | cons entry rest ih =>
      rcases entry with ⟨other, current⟩
      simp only [List.map_cons, List.mem_cons,
        not_or] at hFront
      have hOther : other ≠ key := fun h =>
        hFront.1 h.symm
      simp [put, hOther, ih hFront.2]

/- The keys after `put` are the old ones and the new one. -/
theorem map_fst_put
    (key : K)
    (value : V)
    (entries : List (K × V)) :
    (put key value entries).map Prod.fst =
      if key ∈ entries.map Prod.fst then
        entries.map Prod.fst
      else
        entries.map Prod.fst ++ [key] := by
  induction entries with
  | nil => simp [put]
  | cons entry rest ih =>
      rcases entry with ⟨other, old⟩
      by_cases hOther : other = key
      · subst hOther
        simp [put]
      · have hKey : key ≠ other := fun h => hOther h.symm
        by_cases hRest : key ∈ rest.map Prod.fst
        · simp only [put, if_neg hOther, List.map_cons, ih,
            List.mem_cons, hRest, or_true, if_true]
        · simp only [put, if_neg hOther, List.map_cons, ih,
            List.mem_cons, hKey, hRest, or_self, if_false,
            List.cons_append]

/- Keys stay distinct. -/
theorem nodup_put
    (key : K)
    (value : V)
    {entries : List (K × V)}
    (hNodup : (entries.map Prod.fst).Nodup) :
    ((put key value entries).map Prod.fst).Nodup := by
  rw [map_fst_put]
  by_cases hMem : key ∈ entries.map Prod.fst
  · simpa [hMem] using hNodup
  · rw [if_neg hMem]
    simpa using hNodup.concat hMem

/- Looking up after `put` sees the new value at its key only. -/
theorem lookup_put
    (key other : K)
    (value : V)
    (entries : List (K × V)) :
    (put key value entries).lookup other =
      if other = key then
        some value
      else
        entries.lookup other := by
  induction entries with
  | nil =>
      by_cases hOther : other = key
      · simp [put, hOther]
      · have hBeq : (other == key) = false := by
          simpa using hOther
        simp [put, hOther, List.lookup_cons, hBeq]
  | cons entry rest ih =>
      rcases entry with ⟨current, old⟩
      by_cases hCurrent : current = key
      · subst hCurrent
        by_cases hOther : other = current
        · simp [put, hOther]
        · have hBeq : (other == current) = false := by
            simpa using hOther
          simp [put, hOther, List.lookup_cons, hBeq]
      · by_cases hOther : other = current
        · subst hOther
          simp [put, hCurrent]
        · have hBeq : (other == current) = false := by
            simpa using hOther
          simp [put, hCurrent, List.lookup_cons, hBeq, ih]

/- With distinct keys, looking up finds exactly the entries. -/
theorem lookup_eq_some_iff_mem
    {entries : List (K × V)}
    (hNodup : (entries.map Prod.fst).Nodup)
    (key : K)
    (value : V) :
    entries.lookup key = some value ↔
      (key, value) ∈ entries := by
  induction entries with
  | nil => simp
  | cons entry rest ih =>
      rcases entry with ⟨other, current⟩
      simp only [List.map_cons, List.nodup_cons] at hNodup
      by_cases hKey : key = other
      · subst hKey
        have hAbsent : (key, value) ∉ rest := fun hMem =>
          hNodup.1 (List.mem_map_of_mem (f := Prod.fst) hMem)
        simp [hAbsent, eq_comm]
      · have hBeq : (key == other) = false := by
          simpa using hKey
        simp [List.lookup_cons, hBeq, hKey, ih hNodup.2]

end Entries

end Rust

------------------------------------------------------------
-- Hash Maps
------------------------------------------------------------

namespace Rust

/-
  The keys of a hasher.  They decide in which order a map
  with given entries is iterated.
-/
structure RandomState (K V : Type) where
  order : List (K × V) → List (K × V)
  order_perm : ∀ entries, (order entries).Perm entries

/- A hasher that iterates in the order of insertion. -/
def RandomState.insertionOrder
    (K V : Type) : RandomState K V where
  order := id
  order_perm := fun _ => List.Perm.refl _

structure HashMap (K V : Type) where
  hasher : RandomState K V
  entries : List (K × V)
  keys_nodup : (entries.map Prod.fst).Nodup

namespace HashMap

variable {K V : Type}

/- The empty map. -/
def new (hasher : RandomState K V) : HashMap K V where
  hasher := hasher
  entries := []
  keys_nodup := List.nodup_nil

/- The entries in iteration order. -/
def iter (self : HashMap K V) : List (K × V) :=
  self.hasher.order self.entries

/- The number of entries. -/
def len (self : HashMap K V) : Nat :=
  self.entries.length

variable [DecidableEq K]

/- The value at a key. -/
def get
    (self : HashMap K V)
    (key : K) : Option V :=
  self.entries.lookup key

/- Set the value at a key. -/
def insert
    (self : HashMap K V)
    (key : K)
    (value : V) : HashMap K V where
  hasher := self.hasher
  entries := Entries.put key value self.entries
  keys_nodup := Entries.nodup_put key value self.keys_nodup

@[simp] theorem get_new
    (hasher : RandomState K V)
    (key : K) :
    (new hasher).get key = none := rfl

/- An insertion is seen at its key and nowhere else. -/
theorem get_insert
    (self : HashMap K V)
    (key other : K)
    (value : V) :
    (self.insert key value).get other =
      if other = key then some value else self.get other :=
  Entries.lookup_put key other value self.entries

/- The value last inserted at a key is found there. -/
@[simp] theorem get_insert_self
    (self : HashMap K V)
    (key : K)
    (value : V) :
    (self.insert key value).get key = some value := by
  simp [get_insert]

/- Other keys are not touched by an insertion. -/
theorem get_insert_ne
    (self : HashMap K V)
    {key other : K}
    (value : V)
    (hOther : other ≠ key) :
    (self.insert key value).get other = self.get other := by
  simp [get_insert, hOther]

/- What is found after an insertion is new or old. -/
theorem get_insert_cases
    {self : HashMap K V}
    {key other : K}
    {new value : V}
    (hGet : (self.insert key new).get other = some value) :
    other = key ∧ value = new ∨
      other ≠ key ∧ self.get other = some value := by
  rw [get_insert] at hGet
  by_cases hKey : other = key
  · rw [if_pos hKey] at hGet
    exact Or.inl ⟨hKey, (Option.some.inj hGet).symm⟩
  · rw [if_neg hKey] at hGet
    exact Or.inr ⟨hKey, hGet⟩

/- The entries are the pairs that `get` finds. -/
theorem mem_entries_iff
    (self : HashMap K V)
    (key : K)
    (value : V) :
    (key, value) ∈ self.entries ↔
      self.get key = some value :=
  (Entries.lookup_eq_some_iff_mem self.keys_nodup
    key value).symm

/- Iterating lists exactly the pairs that `get` finds. -/
theorem mem_iter_iff
    (self : HashMap K V)
    (key : K)
    (value : V) :
    (key, value) ∈ self.iter ↔
      self.get key = some value := by
  rw [← mem_entries_iff]
  exact (self.hasher.order_perm self.entries).mem_iff

omit [DecidableEq K] in
/- Iterating meets each entry once. -/
theorem length_iter
    (self : HashMap K V) :
    self.iter.length = self.len :=
  (self.hasher.order_perm self.entries).length_eq

omit [DecidableEq K] in
/- Iterating meets each key once. -/
theorem nodup_keys_iter
    (self : HashMap K V) :
    (self.iter.map Prod.fst).Nodup := by
  have hPerm :=
    (self.hasher.order_perm self.entries).map Prod.fst
  exact hPerm.nodup_iff.mpr self.keys_nodup

/- A known key sits at one place, where it is overwritten. -/
theorem exists_split_of_get
    {self : HashMap K V}
    {key : K}
    {old : V}
    (hGet : self.get key = some old) :
    ∃ front back,
      self.entries = front ++ (key, old) :: back ∧
        ∀ value, (self.insert key value).entries =
          front ++ (key, value) :: back := by
  have hMem := (self.mem_entries_iff key old).mpr hGet
  rcases List.append_of_mem hMem with
    ⟨front, back, hEntries⟩
  have hFront : key ∉ front.map Prod.fst := by
    have hNodup := self.keys_nodup
    rw [hEntries, List.map_append, List.map_cons,
      List.nodup_middle, List.nodup_cons] at hNodup
    exact fun h =>
      hNodup.1 (List.mem_append.mpr (Or.inl h))
  refine ⟨front, back, hEntries, ?_⟩
  intro value
  change Entries.put key value self.entries = _
  rw [hEntries]
  exact Entries.put_of_split hFront

/- Overwriting a known key keeps the number of entries. -/
theorem len_insert_of_get
    {self : HashMap K V}
    {key : K}
    {old : V}
    (value : V)
    (hGet : self.get key = some old) :
    (self.insert key value).len = self.len := by
  rcases exists_split_of_get hGet with
    ⟨front, back, hEntries, hInsert⟩
  simp [len, hEntries, hInsert]

/- A key that `get` does not find goes behind the others. -/
theorem entries_insert_of_get_none
    {self : HashMap K V}
    {key : K}
    (value : V)
    (hGet : self.get key = none) :
    (self.insert key value).entries =
      self.entries ++ [(key, value)] := by
  apply Entries.put_of_notMem
  intro hMem
  rcases List.mem_map.mp hMem with ⟨⟨_, old⟩, hEntry, rfl⟩
  rw [(self.mem_entries_iff _ old).mp hEntry] at hGet
  cases hGet

/- Adding a key makes the map larger by one. -/
theorem len_insert_of_get_none
    {self : HashMap K V}
    {key : K}
    (value : V)
    (hGet : self.get key = none) :
    (self.insert key value).len = self.len + 1 := by
  simp [len, entries_insert_of_get_none value hGet]

end HashMap

end Rust
