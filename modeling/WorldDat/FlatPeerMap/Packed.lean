import WorldDat.FlatPeerMap.Basic

/-
  The representation invariant of the flat routing table.

  Under `FlatPeerMap.Packed` no operation panics: inserting
  is `FlatPeerMap.put`, which keeps the invariant, and what
  it says about buckets is also said about single slots.

  Main declarations:
    * `FlatPeerMap.Packed` and `FlatPeerMap.Packed.put`
    * `FlatPeerMap.insert_eq_ok`
    * `FlatPeerMap.contains_eq_ok`
    * `FlatPeerMap.WellFormed`
    * `FlatPeerMap.wellFormed_insertAll`
-/

------------------------------------------------------------
-- Packed Maps
------------------------------------------------------------

namespace WorldDat

open Rust

namespace FlatPeerMap

/- The slots of the bucket at a rank. -/
def bucketAt
    (self : FlatPeerMap)
    (rank : Nat) : List (Option Contact) :=
  Listing.block self.bucketSize rank self.contacts

/- The contacts in the bucket at a rank. -/
def contactsAt
    (self : FlatPeerMap)
    (rank : Nat) : List Contact :=
  (self.bucketAt rank).filterMap id

/- The map after inserting a peer. -/
def put
    (self : FlatPeerMap)
    (newPeer : Contact) : FlatPeerMap :=
  let rank := self.peerId.distanceRank newPeer.peerId
  let contacts :=
    enlist self.bucketSize newPeer (self.contactsAt rank)
  { self.setBucketFor newPeer.peerId
      (pack self.bucketSize contacts) with
    count :=
      self.count + contacts.length -
        (self.contactsAt rank).length }

/-
  The invariant of the flat map: every bucket is packed,
  holds only ids of its rank and no id twice, and the
  contacts are counted.
-/
structure Packed (map : FlatPeerMap) : Prop where
  bucketSize_pos : 0 < map.bucketSize
  length_contacts :
    map.contacts.length =
      Blake2Hash.maxPower * map.bucketSize
  packed : ∀ rank, rank < Blake2Hash.maxPower →
    map.bucketAt rank =
      pack map.bucketSize (map.contactsAt rank)
  ranked : ∀ rank, rank < Blake2Hash.maxPower →
    ∀ contact ∈ map.contactsAt rank,
      map.peerId.distanceRank contact.peerId = rank
  nodup : ∀ rank, rank < Blake2Hash.maxPower →
    ((map.contactsAt rank).map Contact.peerId).Nodup
  count_eq :
    map.count = map.contacts.countP Option.isSome
  nextEviction_eq : map.nextEviction = 0

variable {self : FlatPeerMap}

/- Every bucket lies inside the vector. -/
theorem Packed.fits
    (hPacked : self.Packed)
    {rank : Nat}
    (hRank : rank < Blake2Hash.maxPower) :
    rank * self.bucketSize + self.bucketSize ≤
      self.contacts.length :=
  Listing.block_fits hPacked.length_contacts hRank

/- A bucket holds at most `bucketSize` contacts. -/
theorem length_contactsAt_le
    (self : FlatPeerMap)
    (rank : Nat) :
    (self.contactsAt rank).length ≤ self.bucketSize := by
  have hFilter :
      (self.contactsAt rank).length ≤
        (self.bucketAt rank).length :=
    List.length_filterMap_le _ _
  have hBlock :
      (self.bucketAt rank).length ≤ self.bucketSize := by
    unfold bucketAt Listing.block
    exact List.length_take_le _ _
  exact Nat.le_trans hFilter hBlock

/- A new map holds nobody. -/
theorem contactsAt_new
    (peerId : PeerId)
    (bucketSize rank : Nat) :
    (new peerId bucketSize).contactsAt rank = [] := by
  unfold contactsAt bucketAt Listing.block new
  rw [List.drop_replicate, List.take_replicate]
  simp

/- A new map is packed. -/
theorem packed_new
    (peerId : PeerId)
    {bucketSize : Nat}
    (hSize : 0 < bucketSize) :
    (new peerId bucketSize).Packed := by
  have hEmpty := contactsAt_new peerId bucketSize
  have hLength :
      (new peerId bucketSize).contacts.length =
        Blake2Hash.maxPower * bucketSize :=
    List.length_replicate
  refine ⟨hSize, hLength, ?_, ?_, ?_, ?_, rfl⟩
  · intro rank hRank
    have hFits : rank * bucketSize + bucketSize ≤
        Blake2Hash.maxPower * bucketSize := by
      rw [← Nat.succ_mul]
      exact Nat.mul_le_mul_right bucketSize hRank
    rw [hEmpty]
    unfold bucketAt Listing.block new pack
    rw [List.drop_replicate, List.take_replicate]
    have hTake :
        min bucketSize
            (Blake2Hash.maxPower * bucketSize -
              rank * bucketSize) =
          bucketSize := by
      omega
    rw [hTake]
    rfl
  · intro rank hRank contact hContact
    rw [hEmpty] at hContact
    cases hContact
  · intro rank hRank
    rw [hEmpty]
    exact List.nodup_nil
  · simp [new, List.countP_replicate]

/- A bucket with a new peer is as long as it was. -/
theorem length_pack_enlist
    (self : FlatPeerMap)
    (newPeer : Contact)
    (rank : Nat) :
    (pack self.bucketSize
      (enlist self.bucketSize newPeer
        (self.contactsAt rank))).length =
      self.bucketSize := by
  apply length_pack
  exact
    length_enlist_le newPeer (self.length_contactsAt_le rank)

/- The contacts of every bucket after inserting a peer. -/
theorem contactsAt_put
    (hPacked : self.Packed)
    (newPeer : Contact)
    (rank : Nat) :
    (self.put newPeer).contactsAt rank =
      if rank = self.peerId.distanceRank newPeer.peerId then
        enlist self.bucketSize newPeer (self.contactsAt rank)
      else
        self.contactsAt rank := by
  have hFits :=
    hPacked.fits
      (self.peerId.distanceRank_lt newPeer.peerId)
  have hNew :=
    self.length_pack_enlist newPeer
      (self.peerId.distanceRank newPeer.peerId)
  by_cases hRank :
      rank = self.peerId.distanceRank newPeer.peerId
  · rw [if_pos hRank, hRank]
    unfold contactsAt bucketAt
    rw [show (self.put newPeer).bucketSize =
      self.bucketSize from rfl]
    unfold put setBucketFor
    rw [Listing.block_setBlock_self hFits hNew,
      filterMap_pack]
    rfl
  · rw [if_neg hRank]
    unfold contactsAt bucketAt
    rw [show (self.put newPeer).bucketSize =
      self.bucketSize from rfl]
    unfold put setBucketFor
    rw [Listing.block_setBlock_ne hFits hNew hRank]

/- Every bucket stays packed. -/
theorem bucketAt_put
    (hPacked : self.Packed)
    (newPeer : Contact)
    {rank : Nat}
    (hRank : rank < Blake2Hash.maxPower) :
    (self.put newPeer).bucketAt rank =
      pack self.bucketSize
        ((self.put newPeer).contactsAt rank) := by
  have hFits :=
    hPacked.fits
      (self.peerId.distanceRank_lt newPeer.peerId)
  have hNew :=
    self.length_pack_enlist newPeer
      (self.peerId.distanceRank newPeer.peerId)
  rw [contactsAt_put hPacked]
  by_cases hSame :
      rank = self.peerId.distanceRank newPeer.peerId
  · rw [if_pos hSame, hSame]
    exact Listing.block_setBlock_self hFits hNew
  · rw [if_neg hSame, ← hPacked.packed rank hRank]
    exact Listing.block_setBlock_ne hFits hNew hSame

/- The counter keeps up with the occupied slots. -/
theorem count_put
    (hPacked : self.Packed)
    (newPeer : Contact) :
    (self.put newPeer).count =
      (self.put newPeer).contacts.countP Option.isSome := by
  have hRank :=
    self.peerId.distanceRank_lt newPeer.peerId
  have hOld := hPacked.packed _ hRank
  have hCount :=
    Listing.countP_setBlock Option.isSome self.bucketSize
      (self.peerId.distanceRank newPeer.peerId)
      (pack self.bucketSize
        (enlist self.bucketSize newPeer
          (self.contactsAt
            (self.peerId.distanceRank newPeer.peerId))))
      self.contacts
  unfold bucketAt at hOld
  rw [hOld, countP_pack, countP_pack,
    ← hPacked.count_eq] at hCount
  change self.count + _ - _ = _
  unfold put setBucketFor
  dsimp only
  omega

/- Inserting keeps the invariant. -/
theorem Packed.put
    (hPacked : self.Packed)
    (newPeer : Contact) :
    (self.put newPeer).Packed where
  bucketSize_pos := hPacked.bucketSize_pos
  length_contacts := by
    have hFits :=
      hPacked.fits
        (self.peerId.distanceRank_lt newPeer.peerId)
    have hNew :=
      self.length_pack_enlist newPeer
        (self.peerId.distanceRank newPeer.peerId)
    exact
      (Listing.length_setBlock hFits hNew).trans
        hPacked.length_contacts
  packed := fun _ hRank => bucketAt_put hPacked newPeer hRank
  ranked := by
    intro rank hRank contact hContact
    rw [contactsAt_put hPacked] at hContact
    by_cases hSame :
        rank = self.peerId.distanceRank newPeer.peerId
    · rw [if_pos hSame] at hContact
      rcases mem_of_mem_enlist (hPacked.nodup rank hRank)
          hContact with hNew | hOld
      · rw [hNew, hSame]
        rfl
      · exact hPacked.ranked rank hRank contact hOld.1
    · rw [if_neg hSame] at hContact
      exact hPacked.ranked rank hRank contact hContact
  nodup := by
    intro rank hRank
    rw [contactsAt_put hPacked]
    by_cases hSame :
        rank = self.peerId.distanceRank newPeer.peerId
    · rw [if_pos hSame]
      exact nodup_enlist (hPacked.nodup rank hRank)
    · rw [if_neg hSame]
      exact hPacked.nodup rank hRank
  count_eq := count_put hPacked newPeer
  nextEviction_eq := hPacked.nextEviction_eq

end FlatPeerMap

end WorldDat

------------------------------------------------------------
-- Operations Without Panics
------------------------------------------------------------

namespace WorldDat

open Rust

namespace FlatPeerMap

variable {self : FlatPeerMap}

/- The slice of a bucket is in range. -/
theorem bucketFor_eq_ok
    (hPacked : self.Packed)
    (peerId : PeerId) :
    self.bucketFor peerId =
      .ok
        (pack self.bucketSize
          (self.contactsAt
            (self.peerId.distanceRank peerId))) := by
  have hRank := self.peerId.distanceRank_lt peerId
  rw [← hPacked.packed _ hRank]
  unfold bucketFor
  rw [slice_of_le (Nat.le_add_right _ _)
    (hPacked.fits hRank), Nat.add_sub_cancel_left]
  rfl

/- The first place of a full bucket is overwritten. -/
theorem setIndex_pack
    {contacts : List Contact}
    (hSize : 0 < contacts.length)
    (newPeer : Contact) :
    setIndex (pack contacts.length contacts) 0
        (some newPeer) =
      .ok
        (pack contacts.length (contacts.set 0 newPeer)) := by
  have hLength :
      0 < (pack contacts.length contacts).length := by
    rw [length_pack (Nat.le_refl _)]
    exact hSize
  rw [setIndex_of_lt hLength]
  cases contacts with
  | nil => cases hSize
  | cons contact rest =>
      rw [List.length_cons, pack_cons, List.set_cons_zero,
        List.set_cons_zero, pack_cons]

/- A full bucket passes the assertions. -/
theorem itemToEvict_eq_ok
    (hPacked : self.Packed)
    {contacts : List Contact}
    (hFull : self.bucketSize = contacts.length) :
    self.itemToEvict (pack self.bucketSize contacts) =
      .ok 0 := by
  have hAll : ∀ item ∈ pack self.bucketSize contacts,
      item.isSome := by
    intro item hItem
    unfold pack at hItem
    rw [hFull, Nat.sub_self, List.replicate_zero,
      List.append_nil] at hItem
    rcases List.mem_map.mp hItem with ⟨contact, _, hSome⟩
    rw [← hSome]
    rfl
  unfold itemToEvict
  rw [if_pos ⟨length_pack (Nat.le_of_eq hFull.symm), hAll⟩,
    hPacked.nextEviction_eq]

/- Inserting never panics. -/
theorem insert_eq_ok
    (hPacked : self.Packed)
    (newPeer : Contact) :
    self.insert newPeer = .ok (self.put newPeer) := by
  have hBucket := bucketFor_eq_ok hPacked newPeer.peerId
  have hLength :=
    self.length_contactsAt_le
      (self.peerId.distanceRank newPeer.peerId)
  unfold insert put enlist
  rw [hBucket]
  by_cases hKnown :
      newPeer.peerId ∈
        (self.contactsAt
          (self.peerId.distanceRank newPeer.peerId)).map
          Contact.peerId
  · have hLoop := insertLoop_pack_of_mem hKnown hLength
    simp [hLoop, hKnown, bind, Except.bind, pure,
      Except.pure]
  · by_cases hRoom :
        (self.contactsAt
          (self.peerId.distanceRank
            newPeer.peerId)).length <
          self.bucketSize
    · have hLoop := insertLoop_pack_of_lt hKnown hRoom
      simp [hLoop, hKnown, hRoom, bind, Except.bind, pure,
        Except.pure]
      omega
    · have hFull :
          self.bucketSize =
            (self.contactsAt
              (self.peerId.distanceRank
                newPeer.peerId)).length := by
        omega
      have hLoop :
          insertLoop newPeer
              (pack self.bucketSize
                (self.contactsAt
                  (self.peerId.distanceRank
                    newPeer.peerId))) =
            none := by
        rw [hFull]
        exact insertLoop_pack_of_full hKnown
      have hSet :
          setIndex
              (pack self.bucketSize
                (self.contactsAt
                  (self.peerId.distanceRank
                    newPeer.peerId)))
              0 (some newPeer) =
            .ok
              (pack self.bucketSize
                ((self.contactsAt
                  (self.peerId.distanceRank
                    newPeer.peerId)).set 0 newPeer)) := by
        have hSize := hPacked.bucketSize_pos
        rw [hFull] at hSize ⊢
        exact setIndex_pack hSize newPeer
      simp [hLoop, hKnown, hRoom, hSet,
        itemToEvict_eq_ok hPacked hFull, bind, Except.bind,
        pure, Except.pure]
      rfl

/- A peer is looked up in the bucket of its rank. -/
theorem contains_eq_ok
    (hPacked : self.Packed)
    (peerId : PeerId) :
    self.contains peerId =
      .ok
        ((self.contactsAt
          (self.peerId.distanceRank peerId)).find?
          fun contact => contact.peerId = peerId) := by
  unfold contains
  rw [bucketFor_eq_ok hPacked]
  change
    Except.ok (((pack _ _).filterMap id).find? _) = _
  rw [filterMap_pack]

/- The map after inserting a sequence of peers. -/
def putAll
    (self : FlatPeerMap)
    (inserts : List Contact) : FlatPeerMap :=
  inserts.foldl put self

/- Inserting a sequence keeps the invariant. -/
theorem Packed.putAll
    (hPacked : self.Packed)
    (inserts : List Contact) :
    (self.putAll inserts).Packed := by
  induction inserts generalizing self with
  | nil => exact hPacked
  | cons newPeer rest ih => exact ih (hPacked.put newPeer)

/- Inserting a sequence never panics. -/
theorem insertAll_eq_ok
    (hPacked : self.Packed)
    (inserts : List Contact) :
    self.insertAll inserts = .ok (self.putAll inserts) := by
  induction inserts generalizing self with
  | nil => rfl
  | cons newPeer rest ih =>
      rw [insertAll, insert_eq_ok hPacked]
      exact ih (hPacked.put newPeer)

/- Maps built by inserts are packed. -/
theorem packed_of_insertAll
    {owner : PeerId}
    {size : Nat}
    (hSize : 1 ≤ size)
    {inserts : List Contact}
    {map : FlatPeerMap}
    (hMap : (new owner size).insertAll inserts = .ok map) :
    map.Packed := by
  have hNew := packed_new owner hSize
  rw [insertAll_eq_ok hNew] at hMap
  cases hMap
  exact hNew.putAll inserts

@[simp] theorem peerId_putAll
    (self : FlatPeerMap)
    (inserts : List Contact) :
    (self.putAll inserts).peerId = self.peerId := by
  induction inserts generalizing self with
  | nil => rfl
  | cons newPeer rest ih => exact ih (self.put newPeer)

@[simp] theorem bucketSize_putAll
    (self : FlatPeerMap)
    (inserts : List Contact) :
    (self.putAll inserts).bucketSize = self.bucketSize := by
  induction inserts generalizing self with
  | nil => rfl
  | cons newPeer rest ih => exact ih (self.put newPeer)

end FlatPeerMap

end WorldDat

------------------------------------------------------------
-- Slots
------------------------------------------------------------

namespace WorldDat

open Rust

namespace FlatPeerMap

/- A slot that holds a contact. -/
def Holds
    (self : FlatPeerMap)
    (slot : Nat)
    (contact : Contact) : Prop :=
  self.contacts[slot]? = some (some contact)

/-
  The representation invariant, slot by slot, of a map for
  an owner with buckets of a size.
-/
structure WellFormed
    (owner : PeerId)
    (size : Nat)
    (map : FlatPeerMap) : Prop where
  length_contacts : map.contacts.length = 256 * size
  ranked : ∀ rank slot contact,
    rank * size ≤ slot → slot < (rank + 1) * size →
      map.Holds slot contact →
        owner.distanceRank contact.peerId = rank
  unique : ∀ slot slot' contact contact',
    map.Holds slot contact → map.Holds slot' contact' →
      contact.peerId = contact'.peerId → slot = slot'
  leading : ∀ rank slot slot' contact',
    rank * size ≤ slot → slot ≤ slot' →
      slot' < (rank + 1) * size →
        map.Holds slot' contact' →
          ∃ contact, map.Holds slot contact
  counted :
    map.count = map.contacts.countP Option.isSome

/- What a slot holds, in terms of its bucket. -/
theorem Packed.holds_iff
    {self : FlatPeerMap}
    (hPacked : self.Packed)
    {rank offset : Nat}
    (hRank : rank < Blake2Hash.maxPower)
    (hOffset : offset < self.bucketSize)
    (contact : Contact) :
    self.Holds (rank * self.bucketSize + offset) contact ↔
      (self.contactsAt rank)[offset]? = some contact := by
  have hBlock :=
    Listing.getElem?_block self.bucketSize rank offset
      self.contacts
  rw [if_pos hOffset] at hBlock
  unfold Holds
  rw [← hBlock, ← getElem?_pack_iff self.bucketSize,
    ← hPacked.packed rank hRank]
  rfl

/- Every occupied slot is a place in some bucket. -/
theorem Packed.exists_place
    {self : FlatPeerMap}
    (hPacked : self.Packed)
    {slot : Nat}
    {contact : Contact}
    (hHolds : self.Holds slot contact) :
    ∃ rank offset,
      rank < Blake2Hash.maxPower ∧
        offset < self.bucketSize ∧
          slot = rank * self.bucketSize + offset ∧
            (self.contactsAt rank)[offset]? =
              some contact := by
  have hSlot : slot < self.contacts.length := by
    rcases List.getElem?_eq_some_iff.mp hHolds with
      ⟨hSlot, _⟩
    exact hSlot
  rcases Listing.exists_block_position
      hPacked.length_contacts hSlot with
    ⟨rank, offset, hRank, hOffset, hPlace⟩
  rw [hPlace, hPacked.holds_iff hRank hOffset] at hHolds
  exact ⟨rank, offset, hRank, hOffset, hPlace, hHolds⟩

/- A slot belongs to the bucket in whose range it is. -/
theorem rank_eq_of_place
    {size rank rank' offset : Nat}
    (hOffset : offset < size)
    (hStart : rank * size ≤ rank' * size + offset)
    (hStop : rank' * size + offset < (rank + 1) * size) :
    rank' = rank := by
  have hUpper : rank' * size < (rank + 1) * size := by
    omega
  have hLower : rank * size < (rank' + 1) * size := by
    rw [Nat.succ_mul]
    omega
  have hLt := Nat.lt_of_mul_lt_mul_right hUpper
  have hGt := Nat.lt_of_mul_lt_mul_right hLower
  omega

/- Packed buckets make a well-formed map. -/
theorem Packed.wellFormed
    {self : FlatPeerMap}
    (hPacked : self.Packed) :
    WellFormed self.peerId self.bucketSize self where
  length_contacts := hPacked.length_contacts
  ranked := by
    intro rank slot contact hStart hStop hHolds
    rcases hPacked.exists_place hHolds with
      ⟨rank', offset, hRank', hOffset, hPlace, hGet⟩
    rw [hPlace] at hStart hStop
    rw [← rank_eq_of_place hOffset hStart hStop]
    exact
      hPacked.ranked rank' hRank' contact
        (List.mem_of_getElem? hGet)
  unique := by
    intro slot slot' contact contact' hHolds hHolds' hId
    rcases hPacked.exists_place hHolds with
      ⟨rank, offset, hRank, hOffset, hPlace, hGet⟩
    rcases hPacked.exists_place hHolds' with
      ⟨rank', offset', hRank', hOffset', hPlace', hGet'⟩
    have hSame : rank = rank' := by
      rw [← hPacked.ranked rank hRank contact
        (List.mem_of_getElem? hGet), hId]
      exact
        hPacked.ranked rank' hRank' contact'
          (List.mem_of_getElem? hGet')
    rw [← hSame] at hGet' hPlace'
    have hIds :
        ((self.contactsAt rank).map
            Contact.peerId)[offset]? =
          ((self.contactsAt rank).map
            Contact.peerId)[offset']? := by
      rw [List.getElem?_map, List.getElem?_map, hGet, hGet']
      exact congrArg some hId
    have hLength :
        offset <
          ((self.contactsAt rank).map
            Contact.peerId).length := by
      rcases List.getElem?_eq_some_iff.mp hGet with
        ⟨hInside, _⟩
      rw [List.length_map]
      exact hInside
    have hOffsets : offset = offset' :=
      (List.getElem?_inj hLength
        (hPacked.nodup rank hRank)).mp hIds
    rw [hPlace, hPlace', hOffsets]
  leading := by
    intro rank slot slot' contact' hStart hLe hStop hHolds
    rcases hPacked.exists_place hHolds with
      ⟨rank', offset', hRank', hOffset', hPlace, hGet⟩
    rw [hPlace] at hStop hLe
    have hSame :=
      rank_eq_of_place hOffset' (Nat.le_trans hStart hLe)
        hStop
    rw [hSame] at hRank' hGet hLe
    rcases List.getElem?_eq_some_iff.mp hGet with
      ⟨hInside, _⟩
    have hBefore :
        slot - rank * self.bucketSize ≤ offset' := by
      omega
    have hSlot :
        slot =
          rank * self.bucketSize +
            (slot - rank * self.bucketSize) := by
      omega
    have hFirst :=
      List.getElem?_eq_getElem
        (Nat.lt_of_le_of_lt hBefore hInside)
    have hOffset :
        slot - rank * self.bucketSize < self.bucketSize := by
      omega
    have hHeld :=
      (hPacked.holds_iff hRank' hOffset _).mpr hFirst
    rw [← hSlot] at hHeld
    exact ⟨_, hHeld⟩
  counted := hPacked.count_eq

/- The owner of a map for two rivals. -/
def zeroOwner : PeerId :=
  PeerId.repeating 0

/- Two peers that have rank 247 for the owner. -/
def rivals : List Contact :=
  [ { peerId := PeerId.repeating 254
      address := .v4 0x0A000002 4433 }
  , { peerId := PeerId.repeating 255
      address := .v4 0x0A000003 4433 } ]

end FlatPeerMap

end WorldDat
