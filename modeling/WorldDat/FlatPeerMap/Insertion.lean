import WorldDat.FlatPeerMap.Packed

/-
  The effect of an insertion into the flat routing table.

  Main declarations:
    * `FlatPeerMap.find` and `FlatPeerMap.find_put`
    * `FlatPeerMap.Full`
    * `FlatPeerMap.InsertsExactly`
    * `FlatPeerMap.insert_insertsExactly`
-/

------------------------------------------------------------
-- Finding Contacts In A Bucket
------------------------------------------------------------

namespace WorldDat

namespace FlatPeerMap

/- The contact with an id, of some contacts. -/
def findIn
    (contacts : List Contact)
    (peerId : PeerId) : Option Contact :=
  contacts.find? fun contact => contact.peerId = peerId

variable {contacts : List Contact}

/- With no id twice, a contact is found by its id. -/
theorem findIn_eq_some_iff
    (hNodup : (contacts.map Contact.peerId).Nodup)
    (peerId : PeerId)
    (contact : Contact) :
    findIn contacts peerId = some contact ↔
      contact ∈ contacts ∧ contact.peerId = peerId := by
  constructor
  · intro hFind
    have hId := List.find?_some hFind
    exact ⟨List.mem_of_find?_eq_some hFind, by simpa using hId⟩
  · intro hContact
    rcases hContact with ⟨hMem, hId⟩
    have hFound : (findIn contacts peerId).isSome := by
      unfold findIn
      rw [List.find?_isSome]
      exact ⟨contact, hMem, by simpa using hId⟩
    rcases Option.isSome_iff_exists.mp hFound with
      ⟨other, hOther⟩
    have hOtherId := List.find?_some hOther
    have hSame : other = contact := by
      apply List.inj_on_of_nodup_map hNodup
        (List.mem_of_find?_eq_some hOther) hMem
      rw [hId]
      simpa using hOtherId
    rw [hOther, hSame]

/- An id is found unless nobody has it. -/
theorem findIn_eq_none_iff
    (contacts : List Contact)
    (peerId : PeerId) :
    findIn contacts peerId = none ↔
      peerId ∉ contacts.map Contact.peerId := by
  unfold findIn
  simp

/- A bucket that does not evict gains the new peer only. -/
theorem mem_enlist_iff
    {size : Nat}
    {newPeer : Contact}
    (hNodup : (contacts.map Contact.peerId).Nodup)
    (hKeeps :
      newPeer.peerId ∈ contacts.map Contact.peerId ∨
        contacts.length < size)
    (contact : Contact) :
    contact ∈ enlist size newPeer contacts ↔
      contact = newPeer ∨
        contact ∈ contacts ∧
          contact.peerId ≠ newPeer.peerId := by
  constructor
  · intro hContact
    exact mem_of_mem_enlist hNodup hContact
  · intro hContact
    unfold enlist
    by_cases hKnown :
        newPeer.peerId ∈ contacts.map Contact.peerId
    · rw [if_pos hKnown]
      exact
        (mem_replace_iff hNodup hKnown contact).mpr hContact
    · rw [if_neg hKnown,
        if_pos (hKeeps.resolve_left hKnown)]
      rcases hContact with hNew | hOld
      · rw [hNew]
        exact List.mem_append_right _ List.mem_cons_self
      · exact List.mem_append_left _ hOld.1

/- The new peer is found after it was enlisted. -/
theorem findIn_enlist_self
    {size : Nat}
    (hSize : 0 < size)
    (newPeer : Contact)
    (hNodup : (contacts.map Contact.peerId).Nodup) :
    findIn (enlist size newPeer contacts) newPeer.peerId =
      some newPeer := by
  rw [findIn_eq_some_iff (nodup_enlist hNodup)]
  refine ⟨?_, rfl⟩
  by_cases hKeeps :
      newPeer.peerId ∈ contacts.map Contact.peerId ∨
        contacts.length < size
  · rw [mem_enlist_iff hNodup hKeeps]
    exact Or.inl rfl
  · rw [not_or] at hKeeps
    unfold enlist
    rw [if_neg hKeeps.1, if_neg hKeeps.2]
    apply List.mem_set
    omega

/- Others are found as before if nobody is evicted ... -/
theorem findIn_enlist_of_keeps
    {size : Nat}
    {newPeer : Contact}
    (hNodup : (contacts.map Contact.peerId).Nodup)
    (hKeeps :
      newPeer.peerId ∈ contacts.map Contact.peerId ∨
        contacts.length < size)
    {peerId : PeerId}
    (hOther : peerId ≠ newPeer.peerId) :
    findIn (enlist size newPeer contacts) peerId =
      findIn contacts peerId := by
  apply Option.ext
  intro contact
  rw [findIn_eq_some_iff (nodup_enlist hNodup),
    findIn_eq_some_iff hNodup,
    mem_enlist_iff hNodup hKeeps]
  constructor
  · intro hContact
    rcases hContact with ⟨hNew | hOld, hId⟩
    · rw [hNew] at hId
      exact absurd hId.symm hOther
    · exact ⟨hOld.1, hId⟩
  · intro hContact
    rcases hContact with ⟨hMem, hId⟩
    refine ⟨Or.inr ⟨hMem, ?_⟩, hId⟩
    rw [hId]
    exact hOther

/- ... and else the first contact is not found any more. -/
theorem findIn_enlist_of_full
    {size : Nat}
    {newPeer first : Contact}
    {rest : List Contact}
    (hNodup :
      ((first :: rest).map Contact.peerId).Nodup)
    (hFull : (first :: rest).length = size)
    (hUnknown :
      newPeer.peerId ∉ (first :: rest).map Contact.peerId)
    {peerId : PeerId}
    (hOther : peerId ≠ newPeer.peerId) :
    findIn (enlist size newPeer (first :: rest)) peerId =
      if peerId = first.peerId then
        none
      else
        findIn (first :: rest) peerId := by
  rw [enlist_of_full hFull hUnknown]
  have hNew : ¬ newPeer.peerId = peerId :=
    fun hSame => hOther hSame.symm
  by_cases hFirst : peerId = first.peerId
  · rw [if_pos hFirst, findIn_eq_none_iff, List.map_cons,
      List.mem_cons, not_or, hFirst]
    rw [List.map_cons, List.nodup_cons] at hNodup
    rw [hFirst] at hOther
    exact ⟨hOther, hNodup.1⟩
  · have hOld : ¬ first.peerId = peerId :=
      fun hSame => hFirst hSame.symm
    rw [if_neg hFirst]
    unfold findIn
    rw [List.find?_cons_of_neg (by simpa using hNew),
      List.find?_cons_of_neg (by simpa using hOld)]

end FlatPeerMap

end WorldDat

------------------------------------------------------------
-- Finding Contacts In A Map
------------------------------------------------------------

namespace WorldDat

namespace FlatPeerMap

variable {self : FlatPeerMap}

/- The contact with an id, in the bucket of its rank. -/
def find
    (self : FlatPeerMap)
    (peerId : PeerId) : Option Contact :=
  findIn
    (self.contactsAt (self.peerId.distanceRank peerId)) peerId

/- Looking a peer up finds it. -/
theorem contains_eq_find
    (hPacked : self.Packed)
    (peerId : PeerId) :
    self.contains peerId = .ok (self.find peerId) :=
  contains_eq_ok hPacked peerId

/- A peer is unknown if its bucket does not have its id. -/
theorem contains_eq_none_iff
    (hPacked : self.Packed)
    (peerId : PeerId) :
    self.contains peerId = .ok none ↔
      peerId ∉
        (self.contactsAt
          (self.peerId.distanceRank peerId)).map
          Contact.peerId := by
  rw [contains_eq_find hPacked, Except.ok.injEq]
  unfold find
  exact findIn_eq_none_iff _ _

/- Whom a map finds after inserting a peer. -/
theorem find_put
    (hPacked : self.Packed)
    (newPeer : Contact)
    (peerId : PeerId) :
    (self.put newPeer).find peerId =
      if self.peerId.distanceRank peerId =
          self.peerId.distanceRank newPeer.peerId then
        findIn
          (enlist self.bucketSize newPeer
            (self.contactsAt
              (self.peerId.distanceRank newPeer.peerId)))
          peerId
      else
        self.find peerId := by
  have hOwner : (self.put newPeer).peerId = self.peerId :=
    rfl
  unfold find
  rw [contactsAt_put hPacked, hOwner]
  by_cases hRank :
      self.peerId.distanceRank peerId =
        self.peerId.distanceRank newPeer.peerId
  · rw [if_pos hRank, if_pos hRank, hRank]
  · rw [if_neg hRank, if_neg hRank]

end FlatPeerMap

end WorldDat

------------------------------------------------------------
-- The Effect Of An Insertion
------------------------------------------------------------

namespace WorldDat

open Rust

namespace FlatPeerMap

variable {self : FlatPeerMap}

/- The bucket that a peer belongs in has no empty slot. -/
def Full
    (self : FlatPeerMap)
    (peerId : PeerId) : Prop :=
  (self.contactsAt
    (self.peerId.distanceRank peerId)).length =
      self.bucketSize

/-
  What inserting a peer does: the new peer is known, whoever
  else is known does not change unless the new peer did not
  fit, and then one peer of the same rank is forgotten.
-/
structure InsertsExactly
    (map : FlatPeerMap)
    (newPeer : Contact)
    (next : FlatPeerMap) : Prop where
  contains_new :
    next.contains newPeer.peerId = .ok (some newPeer)
  contains_other :
    ¬ (map.contains newPeer.peerId = .ok none ∧
        map.Full newPeer.peerId) →
      ∀ peerId, peerId ≠ newPeer.peerId →
        next.contains peerId = map.contains peerId
  contains_evicted :
    map.contains newPeer.peerId = .ok none →
      map.Full newPeer.peerId →
        ∃ oldPeer,
          map.contains oldPeer.peerId = .ok (some oldPeer) ∧
            map.peerId.distanceRank oldPeer.peerId =
              map.peerId.distanceRank newPeer.peerId ∧
            next.contains oldPeer.peerId = .ok none ∧
            ∀ peerId, peerId ≠ newPeer.peerId →
              peerId ≠ oldPeer.peerId →
                next.contains peerId = map.contains peerId
  count_added :
    map.contains newPeer.peerId = .ok none →
      ¬ map.Full newPeer.peerId →
        next.count = map.count + 1
  count_kept :
    ¬ (map.contains newPeer.peerId = .ok none ∧
        ¬ map.Full newPeer.peerId) →
      next.count = map.count

/- The new peer is known afterwards. -/
theorem contains_put_self
    (hPacked : self.Packed)
    (newPeer : Contact) :
    (self.put newPeer).contains newPeer.peerId =
      .ok (some newPeer) := by
  have hRank := self.peerId.distanceRank_lt newPeer.peerId
  rw [contains_eq_find (hPacked.put newPeer),
    find_put hPacked, if_pos rfl]
  rw [findIn_enlist_self hPacked.bucketSize_pos newPeer
    (hPacked.nodup _ hRank)]

/- Nobody else is affected unless somebody is evicted. -/
theorem contains_put_of_keeps
    (hPacked : self.Packed)
    {newPeer : Contact}
    (hKeeps :
      ¬ (self.contains newPeer.peerId = .ok none ∧
          self.Full newPeer.peerId))
    {peerId : PeerId}
    (hOther : peerId ≠ newPeer.peerId) :
    (self.put newPeer).contains peerId =
      self.contains peerId := by
  have hRank := self.peerId.distanceRank_lt newPeer.peerId
  have hLength :=
    self.length_contactsAt_le
      (self.peerId.distanceRank newPeer.peerId)
  rw [contains_eq_none_iff hPacked] at hKeeps
  have hRoom :
      newPeer.peerId ∈
          (self.contactsAt
            (self.peerId.distanceRank
              newPeer.peerId)).map Contact.peerId ∨
        (self.contactsAt
          (self.peerId.distanceRank
            newPeer.peerId)).length <
          self.bucketSize := by
    rcases not_and_or.mp hKeeps with hKnown | hNotFull
    · exact Or.inl (not_not.mp hKnown)
    · exact Or.inr (Nat.lt_of_le_of_ne hLength hNotFull)
  rw [contains_eq_find (hPacked.put newPeer),
    contains_eq_find hPacked, find_put hPacked]
  by_cases hSame :
      self.peerId.distanceRank peerId =
        self.peerId.distanceRank newPeer.peerId
  · rw [if_pos hSame,
      findIn_enlist_of_keeps (hPacked.nodup _ hRank) hRoom
        hOther]
    unfold find
    rw [hSame]
  · rw [if_neg hSame]

/- A full bucket forgets its first contact and no other. -/
theorem contains_put_of_full
    (hPacked : self.Packed)
    {newPeer : Contact}
    (hUnknown : self.contains newPeer.peerId = .ok none)
    (hFull : self.Full newPeer.peerId) :
    ∃ oldPeer,
      self.contains oldPeer.peerId = .ok (some oldPeer) ∧
        self.peerId.distanceRank oldPeer.peerId =
          self.peerId.distanceRank newPeer.peerId ∧
        (self.put newPeer).contains oldPeer.peerId =
          .ok none ∧
        ∀ peerId, peerId ≠ newPeer.peerId →
          peerId ≠ oldPeer.peerId →
            (self.put newPeer).contains peerId =
              self.contains peerId := by
  have hRank := self.peerId.distanceRank_lt newPeer.peerId
  have hNodup := hPacked.nodup _ hRank
  have hRanked := hPacked.ranked _ hRank
  have hPositive := hPacked.bucketSize_pos
  have hPut := find_put hPacked newPeer
  rw [contains_eq_none_iff hPacked] at hUnknown
  unfold Full at hFull
  cases hBucket :
      self.contactsAt
        (self.peerId.distanceRank newPeer.peerId) with
  | nil =>
      rw [hBucket, List.length_nil] at hFull
      omega
  | cons oldPeer rest =>
      rw [hBucket] at hUnknown hFull hNodup hRanked hPut
      have hOldRank :=
        hRanked oldPeer List.mem_cons_self
      have hOther : oldPeer.peerId ≠ newPeer.peerId := by
        intro hSame
        apply hUnknown
        rw [← hSame]
        exact List.mem_map_of_mem List.mem_cons_self
      refine ⟨oldPeer, ?_, hOldRank, ?_, ?_⟩
      · rw [contains_eq_find hPacked]
        unfold find
        rw [hOldRank, hBucket,
          (findIn_eq_some_iff hNodup _ oldPeer).mpr
            ⟨List.mem_cons_self, rfl⟩]
      · rw [contains_eq_find (hPacked.put newPeer), hPut,
          if_pos hOldRank,
          findIn_enlist_of_full hNodup hFull hUnknown
            hOther,
          if_pos rfl]
      · intro peerId hNew hOld
        rw [contains_eq_find (hPacked.put newPeer),
          contains_eq_find hPacked, hPut]
        by_cases hSame :
            self.peerId.distanceRank peerId =
              self.peerId.distanceRank newPeer.peerId
        · rw [if_pos hSame,
            findIn_enlist_of_full hNodup hFull hUnknown
              hNew,
            if_neg hOld]
          unfold find
          rw [hSame, hBucket]
        · rw [if_neg hSame]

/- The counter grows when an unknown peer finds a slot. -/
theorem count_put_eq
    (self : FlatPeerMap)
    (newPeer : Contact) :
    (self.put newPeer).count =
      if newPeer.peerId ∉
            (self.contactsAt
              (self.peerId.distanceRank
                newPeer.peerId)).map Contact.peerId ∧
          (self.contactsAt
            (self.peerId.distanceRank
              newPeer.peerId)).length <
            self.bucketSize then
        self.count + 1
      else
        self.count := by
  unfold put
  dsimp only
  rw [length_enlist]
  split
  · omega
  · omega

/- Inserting a peer has its intended effect. -/
theorem insertsExactly_put
    (hPacked : self.Packed)
    (newPeer : Contact) :
    self.InsertsExactly newPeer (self.put newPeer) := by
  have hCount := self.count_put_eq newPeer
  have hLength :=
    self.length_contactsAt_le
      (self.peerId.distanceRank newPeer.peerId)
  constructor
  case contains_new =>
    exact contains_put_self hPacked newPeer
  case contains_other =>
    intro hKeeps peerId hOther
    exact contains_put_of_keeps hPacked hKeeps hOther
  case contains_evicted =>
    intro hUnknown hFull
    exact contains_put_of_full hPacked hUnknown hFull
  case count_added =>
    intro hUnknown hRoom
    rw [contains_eq_none_iff hPacked] at hUnknown
    have hLess := Nat.lt_of_le_of_ne hLength hRoom
    rw [hCount, if_pos ⟨hUnknown, hLess⟩]
  case count_kept =>
    intro hKept
    rw [contains_eq_none_iff hPacked] at hKept
    rw [hCount, if_neg]
    intro hAdded
    apply hKept
    exact ⟨hAdded.1, Nat.ne_of_lt hAdded.2⟩

end FlatPeerMap

end WorldDat
