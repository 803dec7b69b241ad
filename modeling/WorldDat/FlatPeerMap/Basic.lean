import WorldDat.Listing.Blocks
import WorldDat.Rust.Panic
import WorldDat.Types

/-
  The flat routing table (`types.rs`, `FlatPeerMap`).

  The slots of all buckets lie in one vector.  The operations
  slice and index it the way the source does, so each of them
  may panic.  What `insert` does to a bucket whose contacts
  come first is `FlatPeerMap.enlist`.

  Main declarations:
    * `FlatPeerMap`
    * `FlatPeerMap.insert` and `FlatPeerMap.contains`
    * `FlatPeerMap.pack` and `FlatPeerMap.enlist`
    * `FlatPeerMap.mem_of_mem_enlist`
    * `FlatPeerMap.nodup_enlist`
    * `FlatPeerMap.bucketSize_insertAll`
-/

------------------------------------------------------------
-- Flat Peer Maps
------------------------------------------------------------

namespace WorldDat

open Rust

/- One vector of slots for all buckets. -/
structure FlatPeerMap where
  contacts : List (Option Contact)
  count : Nat
  bucketSize : Nat
  peerId : PeerId
  nextEviction : Nat

namespace FlatPeerMap

def new
    (peerId : PeerId)
    (bucketSize : Nat) : FlatPeerMap where
  contacts :=
    List.replicate (Blake2Hash.maxPower * bucketSize) none
  count := 0
  bucketSize := bucketSize
  peerId := peerId
  nextEviction := 0

def default (peerId : PeerId) : FlatPeerMap :=
  new peerId 16

/- The bucket that a contact should be in. -/
def bucketFor
    (self : FlatPeerMap)
    (peerId : PeerId) :
    Except Panic (List (Option Contact)) :=
  let distanceRank := self.peerId.distanceRank peerId
  let bucketStart := distanceRank * self.bucketSize
  let bucketEnd := bucketStart + self.bucketSize
  slice self.contacts bucketStart bucketEnd

/- What is written to the slice of `bucket_for_mut`. -/
def setBucketFor
    (self : FlatPeerMap)
    (peerId : PeerId)
    (bucket : List (Option Contact)) : FlatPeerMap :=
  { self with
    contacts :=
      Listing.setBlock self.bucketSize
        (self.peerId.distanceRank peerId) bucket
        self.contacts }

@[simp] theorem count_setBucketFor
    (self : FlatPeerMap)
    (peerId : PeerId)
    (bucket : List (Option Contact)) :
    (self.setBucketFor peerId bucket).count =
      self.count := rfl

/-
  The loop of `insert` over the entries of a bucket.  If it
  returns from `insert`, the result is the new bucket and
  what is added to `count`.
-/
def insertLoop
    (newPeer : Contact) :
    List (Option Contact) →
      Option (List (Option Contact) × Nat)
| [] => none
| some contact :: rest =>
    if contact.peerId = newPeer.peerId then
      -- We know this peer, update it
      some (some newPeer :: rest, 0)
    else
      -- Wrong peer, carry on
      (insertLoop newPeer rest).map
        fun (bucket, added) =>
          (some contact :: bucket, added)
| none :: rest =>
    -- Empty slot, snag it.
    some (some newPeer :: rest, 1)

/- The index in a full bucket of the item to evict. -/
def itemToEvict
    (self : FlatPeerMap)
    (bucket : List (Option Contact)) : Except Panic Nat :=
  if bucket.length = self.bucketSize ∧
      ∀ item ∈ bucket, item.isSome then
    .ok self.nextEviction
  else
    .error .assertionFailed

/- Insert a new peer into the map. -/
def insert
    (self : FlatPeerMap)
    (newPeer : Contact) : Except Panic FlatPeerMap := do
  let bucket ← self.bucketFor newPeer.peerId
  match insertLoop newPeer bucket with
  | some (bucket, added) =>
      let self := self.setBucketFor newPeer.peerId bucket
      return { self with count := self.count + added }
  | none =>
      let oldItem ← self.itemToEvict bucket
      let bucket ← setIndex bucket oldItem (some newPeer)
      return self.setBucketFor newPeer.peerId bucket

/- Check whether we know about the given peer. -/
def contains
    (self : FlatPeerMap)
    (peerId : PeerId) : Except Panic (Option Contact) := do
  let bucket ← self.bucketFor peerId
  return (bucket.filterMap id).find?
    fun contact => contact.peerId = peerId

/- Insert a sequence of peers. -/
def insertAll
    (self : FlatPeerMap) :
    List Contact → Except Panic FlatPeerMap
| [] => return self
| newPeer :: rest => do
    let self ← self.insert newPeer
    self.insertAll rest

end FlatPeerMap

end WorldDat

------------------------------------------------------------
-- Packed Buckets
------------------------------------------------------------

namespace WorldDat

open Rust

namespace FlatPeerMap

/- A bucket in which the contacts come first. -/
def pack
    (size : Nat)
    (contacts : List Contact) : List (Option Contact) :=
  contacts.map some ++
    List.replicate (size - contacts.length) none

/- Replace the first contact with the id of a new one. -/
def replace
    (newPeer : Contact) :
    List Contact → List Contact
| [] => []
| contact :: rest =>
    if contact.peerId = newPeer.peerId then
      newPeer :: rest
    else
      contact :: replace newPeer rest

/-
  What inserting does to the contacts of a bucket: a known
  peer is updated in place, a new one is added at the end,
  or takes the first place if the bucket is full.
-/
def enlist
    (size : Nat)
    (newPeer : Contact)
    (contacts : List Contact) : List Contact :=
  if newPeer.peerId ∈ contacts.map Contact.peerId then
    replace newPeer contacts
  else if contacts.length < size then
    contacts ++ [newPeer]
  else
    contacts.set 0 newPeer

theorem length_pack
    {size : Nat}
    {contacts : List Contact}
    (hSize : contacts.length ≤ size) :
    (pack size contacts).length = size := by
  unfold pack
  rw [List.length_append, List.length_map,
    List.length_replicate]
  omega

@[simp] theorem filterMap_pack
    (size : Nat)
    (contacts : List Contact) :
    (pack size contacts).filterMap id = contacts := by
  unfold pack
  simp [List.filterMap_append]

@[simp] theorem countP_pack
    (size : Nat)
    (contacts : List Contact) :
    (pack size contacts).countP Option.isSome =
      contacts.length := by
  unfold pack
  simp [List.countP_append, List.countP_replicate,
    List.countP_eq_length]

/- The occupied slots of a packed bucket. -/
theorem getElem?_pack_iff
    (size : Nat)
    (contacts : List Contact)
    (i : Nat)
    (contact : Contact) :
    (pack size contacts)[i]? = some (some contact) ↔
      contacts[i]? = some contact := by
  unfold pack
  rw [List.getElem?_append, List.length_map]
  by_cases hInside : i < contacts.length
  · rw [if_pos hInside, List.getElem?_map]
    simp
  · rw [if_neg hInside,
      List.getElem?_eq_none (Nat.le_of_not_lt hInside)]
    simp [List.getElem?_replicate]

theorem pack_cons
    (size : Nat)
    (contact : Contact)
    (contacts : List Contact) :
    pack (size + 1) (contact :: contacts) =
      some contact :: pack size contacts := by
  simp [pack]

/- A known peer is found before any empty slot. -/
theorem insertLoop_pack_of_mem
    {newPeer : Contact}
    {contacts : List Contact}
    (hKnown :
      newPeer.peerId ∈ contacts.map Contact.peerId)
    {size : Nat}
    (hSize : contacts.length ≤ size) :
    insertLoop newPeer (pack size contacts) =
      some (pack size (replace newPeer contacts), 0) := by
  induction contacts generalizing size with
  | nil => cases hKnown
  | cons contact rest ih =>
      cases size with
      | zero => simp at hSize
      | succ size =>
          rw [pack_cons, insertLoop, replace]
          by_cases hSame : contact.peerId = newPeer.peerId
          · rw [if_pos hSame, if_pos hSame, pack_cons]
          · have hRest :
                newPeer.peerId ∈
                  rest.map Contact.peerId := by
              rw [List.map_cons, List.mem_cons] at hKnown
              rcases hKnown with hHead | hTail
              · exact absurd hHead.symm hSame
              · exact hTail
            have hLength : rest.length ≤ size := by
              rw [List.length_cons] at hSize
              omega
            rw [if_neg hSame, if_neg hSame,
              ih hRest hLength, pack_cons]
            rfl

/- An unknown peer takes the first empty slot. -/
theorem insertLoop_pack_of_lt
    {newPeer : Contact}
    {contacts : List Contact}
    (hUnknown :
      newPeer.peerId ∉ contacts.map Contact.peerId)
    {size : Nat}
    (hSize : contacts.length < size) :
    insertLoop newPeer (pack size contacts) =
      some (pack size (contacts ++ [newPeer]), 1) := by
  induction contacts generalizing size with
  | nil =>
      cases size with
      | zero => simp at hSize
      | succ size =>
          simp [pack, insertLoop, List.replicate_succ]
  | cons contact rest ih =>
      cases size with
      | zero => simp at hSize
      | succ size =>
          rw [List.map_cons, List.mem_cons,
            not_or] at hUnknown
          have hOther :
              ¬ contact.peerId = newPeer.peerId :=
            fun hSame => hUnknown.1 hSame.symm
          have hLength : rest.length < size := by
            rw [List.length_cons] at hSize
            omega
          rw [pack_cons, insertLoop, if_neg hOther,
            ih hUnknown.2 hLength, List.cons_append,
            pack_cons]
          rfl

/- The loop runs through a full bucket. -/
theorem insertLoop_pack_of_full
    {newPeer : Contact}
    {contacts : List Contact}
    (hUnknown :
      newPeer.peerId ∉ contacts.map Contact.peerId) :
    insertLoop newPeer (pack contacts.length contacts) =
      none := by
  induction contacts with
  | nil => simp [pack, insertLoop]
  | cons contact rest ih =>
      rw [List.map_cons, List.mem_cons, not_or] at hUnknown
      have hOther : ¬ contact.peerId = newPeer.peerId :=
        fun hSame => hUnknown.1 hSame.symm
      rw [List.length_cons, pack_cons, insertLoop,
        if_neg hOther, ih hUnknown.2]
      rfl

end FlatPeerMap

end WorldDat

------------------------------------------------------------
-- Enlisting A Peer In A Bucket
------------------------------------------------------------

namespace WorldDat

namespace FlatPeerMap

@[simp] theorem length_replace
    (newPeer : Contact)
    (contacts : List Contact) :
    (replace newPeer contacts).length =
      contacts.length := by
  induction contacts with
  | nil => rfl
  | cons contact rest ih =>
      rw [replace]
      by_cases hSame : contact.peerId = newPeer.peerId
      · rw [if_pos hSame]
        rfl
      · rw [if_neg hSame, List.length_cons, ih,
          List.length_cons]

/- Replacing a contact keeps the ids in their places. -/
theorem map_peerId_replace
    (newPeer : Contact)
    (contacts : List Contact) :
    (replace newPeer contacts).map Contact.peerId =
      contacts.map Contact.peerId := by
  induction contacts with
  | nil => rfl
  | cons contact rest ih =>
      rw [replace]
      by_cases hSame : contact.peerId = newPeer.peerId
      · rw [if_pos hSame, List.map_cons, List.map_cons,
          hSame]
      · rw [if_neg hSame, List.map_cons, List.map_cons, ih]

/- Which contacts a bucket holds after a replacement. -/
theorem mem_replace_iff
    {newPeer : Contact}
    {contacts : List Contact}
    (hNodup : (contacts.map Contact.peerId).Nodup)
    (hKnown :
      newPeer.peerId ∈ contacts.map Contact.peerId)
    (contact : Contact) :
    contact ∈ replace newPeer contacts ↔
      contact = newPeer ∨
        contact ∈ contacts ∧
          contact.peerId ≠ newPeer.peerId := by
  induction contacts with
  | nil => cases hKnown
  | cons first rest ih =>
      rw [List.map_cons, List.nodup_cons] at hNodup
      rw [replace]
      by_cases hSame : first.peerId = newPeer.peerId
      · have hRest : ∀ other ∈ rest,
            other.peerId ≠ newPeer.peerId := by
          intro other hOther hId
          apply hNodup.1
          rw [hSame, ← hId]
          exact List.mem_map_of_mem hOther
        rw [if_pos hSame, List.mem_cons, List.mem_cons]
        constructor
        · intro hContact
          rcases hContact with hNew | hOld
          · exact Or.inl hNew
          · apply Or.inr
            exact ⟨Or.inr hOld, hRest contact hOld⟩
        · intro hContact
          rcases hContact with hNew | ⟨hFirst | hOld, hId⟩
          · exact Or.inl hNew
          · rw [hFirst] at hId
            exact absurd hSame hId
          · exact Or.inr hOld
      · have hTail :
            newPeer.peerId ∈ rest.map Contact.peerId := by
          rw [List.map_cons, List.mem_cons] at hKnown
          rcases hKnown with hHead | hTail
          · exact absurd hHead.symm hSame
          · exact hTail
        rw [if_neg hSame, List.mem_cons,
          ih hNodup.2 hTail, List.mem_cons]
        constructor
        · intro hContact
          rcases hContact with hFirst | hNew | hOld
          · rw [hFirst]
            exact Or.inr ⟨Or.inl rfl, hSame⟩
          · exact Or.inl hNew
          · exact Or.inr ⟨Or.inr hOld.1, hOld.2⟩
        · intro hContact
          rcases hContact with hNew | ⟨hFirst | hOld, hId⟩
          · apply Or.inr
            apply Or.inl
            exact hNew
          · exact Or.inl hFirst
          · apply Or.inr
            apply Or.inr
            exact ⟨hOld, hId⟩

/- A peer that is new to a full bucket takes the first slot. -/
theorem enlist_of_full
    {size : Nat}
    {newPeer first : Contact}
    {rest : List Contact}
    (hFull : (first :: rest).length = size)
    (hUnknown :
      newPeer.peerId ∉
        (first :: rest).map Contact.peerId) :
    enlist size newPeer (first :: rest) =
      newPeer :: rest := by
  unfold enlist
  rw [if_neg hUnknown, if_neg (by omega),
    List.set_cons_zero]

/- The length of a bucket grows when an unknown peer fits. -/
theorem length_enlist
    (size : Nat)
    (newPeer : Contact)
    (contacts : List Contact) :
    (enlist size newPeer contacts).length =
      if newPeer.peerId ∉ contacts.map Contact.peerId ∧
          contacts.length < size then
        contacts.length + 1
      else
        contacts.length := by
  unfold enlist
  by_cases hKnown :
      newPeer.peerId ∈ contacts.map Contact.peerId
  · rw [if_pos hKnown, length_replace,
      if_neg (fun hNew => hNew.1 hKnown)]
  · rw [if_neg hKnown]
    by_cases hRoom : contacts.length < size
    · rw [if_pos hRoom, if_pos ⟨hKnown, hRoom⟩,
        List.length_append]
      rfl
    · rw [if_neg hRoom, List.length_set,
        if_neg (fun hNew => hRoom hNew.2)]

/- Enlisting a peer does not overfill a bucket. -/
theorem length_enlist_le
    {size : Nat}
    (newPeer : Contact)
    {contacts : List Contact}
    (hSize : contacts.length ≤ size) :
    (enlist size newPeer contacts).length ≤ size := by
  rw [length_enlist]
  split
  · rename_i hNew
    exact hNew.2
  · exact hSize

/- Nobody but the new peer joins a bucket. -/
theorem mem_of_mem_enlist
    {size : Nat}
    {newPeer : Contact}
    {contacts : List Contact}
    (hNodup : (contacts.map Contact.peerId).Nodup)
    {contact : Contact}
    (hContact : contact ∈ enlist size newPeer contacts) :
    contact = newPeer ∨
      contact ∈ contacts ∧
        contact.peerId ≠ newPeer.peerId := by
  unfold enlist at hContact
  by_cases hKnown :
      newPeer.peerId ∈ contacts.map Contact.peerId
  · rw [if_pos hKnown] at hContact
    exact (mem_replace_iff hNodup hKnown contact).mp hContact
  · have hOther : ∀ old ∈ contacts,
        old.peerId ≠ newPeer.peerId := by
      intro old hOld hId
      apply hKnown
      rw [← hId]
      exact List.mem_map_of_mem hOld
    rw [if_neg hKnown] at hContact
    by_cases hRoom : contacts.length < size
    · rw [if_pos hRoom, List.mem_append,
        List.mem_singleton] at hContact
      rcases hContact with hOld | hNew
      · exact Or.inr ⟨hOld, hOther contact hOld⟩
      · exact Or.inl hNew
    · rw [if_neg hRoom] at hContact
      rcases List.mem_or_eq_of_mem_set hContact with
        hOld | hNew
      · exact Or.inr ⟨hOld, hOther contact hOld⟩
      · exact Or.inl hNew

/- A bucket never holds an id twice. -/
theorem nodup_enlist
    {size : Nat}
    {newPeer : Contact}
    {contacts : List Contact}
    (hNodup : (contacts.map Contact.peerId).Nodup) :
    ((enlist size newPeer contacts).map
      Contact.peerId).Nodup := by
  unfold enlist
  by_cases hKnown :
      newPeer.peerId ∈ contacts.map Contact.peerId
  · rw [if_pos hKnown, map_peerId_replace]
    exact hNodup
  · rw [if_neg hKnown]
    by_cases hRoom : contacts.length < size
    · rw [if_pos hRoom, List.map_append, List.map_singleton]
      apply List.Nodup.append hNodup
        (List.nodup_singleton _)
      intro id hOld hNew
      rw [List.mem_singleton.mp hNew] at hOld
      exact hKnown hOld
    · rw [if_neg hRoom]
      cases contacts with
      | nil => exact List.nodup_nil
      | cons first rest =>
          rw [List.map_cons, List.nodup_cons] at hNodup
          rw [List.map_cons, List.mem_cons,
            not_or] at hKnown
          rw [List.set_cons_zero, List.map_cons,
            List.nodup_cons]
          exact ⟨hKnown.2, hNodup.2⟩

end FlatPeerMap

end WorldDat

------------------------------------------------------------
-- The Size Of The Buckets
------------------------------------------------------------

namespace WorldDat

open Rust

namespace FlatPeerMap

variable {self next : FlatPeerMap}

/- Inserting a peer does not change the size of a bucket. -/
theorem bucketSize_insert
    {newPeer : Contact}
    (hInsert : self.insert newPeer = .ok next) :
    next.bucketSize = self.bucketSize := by
  unfold insert at hInsert
  cases hBucket : self.bucketFor newPeer.peerId with
  | error panic =>
      rw [hBucket] at hInsert
      cases hInsert
  | ok bucket =>
      rw [hBucket] at hInsert
      simp only [bind, Except.bind] at hInsert
      cases hLoop : insertLoop newPeer bucket with
      | some result =>
          rw [hLoop] at hInsert
          cases hInsert
          rfl
      | none =>
          rw [hLoop] at hInsert
          cases hItem : self.itemToEvict bucket with
          | error panic =>
              rw [hItem] at hInsert
              cases hInsert
          | ok oldItem =>
              rw [hItem] at hInsert
              dsimp only at hInsert
              cases hSet :
                  setIndex bucket oldItem (some newPeer) with
              | error panic =>
                  rw [hSet] at hInsert
                  cases hInsert
              | ok bucket =>
                  rw [hSet] at hInsert
                  cases hInsert
                  rfl

theorem bucketSize_insertAll
    {inserts : List Contact}
    (hInserts : self.insertAll inserts = .ok next) :
    next.bucketSize = self.bucketSize := by
  induction inserts generalizing self with
  | nil =>
      cases hInserts
      rfl
  | cons newPeer rest ih =>
      rw [insertAll] at hInserts
      cases hInsert : self.insert newPeer with
      | error panic =>
          rw [hInsert] at hInserts
          cases hInserts
      | ok after =>
          rw [hInsert] at hInserts
          rw [ih hInserts, bucketSize_insert hInsert]

end FlatPeerMap

end WorldDat
