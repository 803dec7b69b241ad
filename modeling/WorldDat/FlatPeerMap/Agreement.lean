import WorldDat.FlatPeerMap.Packed
import WorldDat.PeerMap.Search

/-
  The two routing tables agree up to eviction.

  The same peers are inserted into a bucketed and a flat
  table.  A bucket of the flat table then holds as many of
  the contacts of its counterpart as it has slots for.

  Main declarations:
    * `FlatPeerMap.Mirrors` and `FlatPeerMap.Mirrors.put`
    * `FlatPeerMap.count_eq_sum`
    * `FlatPeerMap.agree_insertAll`
-/

------------------------------------------------------------
-- Mirrored Buckets
------------------------------------------------------------

namespace WorldDat

open Rust

namespace FlatPeerMap

/-
  Every contact of a flat bucket is in the bucket of the same
  rank of the other table, and the flat bucket is as large as
  its slots allow.
-/
structure MirrorsAt
    (peers : PeerMap)
    (flat : FlatPeerMap)
    (rank : Nat) : Prop where
  known : ∀ contact ∈ flat.contactsAt rank,
    peers.getAt rank contact.peerId = some contact.address
  size :
    (flat.contactsAt rank).length =
      min flat.bucketSize (peers.population rank)

/- A flat table mirrors a table in every bucket. -/
def Mirrors
    (peers : PeerMap)
    (flat : FlatPeerMap) : Prop :=
  ∀ rank, rank < Blake2Hash.maxPower →
    MirrorsAt peers flat rank

/- New tables mirror each other. -/
theorem mirrors_new
    (hasher : PeerHasher)
    (owner : PeerId)
    (size : Nat) :
    Mirrors (PeerMap.default hasher) (new owner size) := by
  intro rank hRank
  have hEmpty := contactsAt_new owner size rank
  have hPopulation :
      (PeerMap.default hasher).population rank = 0 := by
    unfold PeerMap.population PeerMap.entriesAt
      PeerMap.default
    rw [List.getElem?_replicate, if_pos hRank]
    exact HashMap.length_iter _
  refine ⟨?_, ?_⟩
  · intro contact hContact
    rw [hEmpty] at hContact
    cases hContact
  · rw [hEmpty, hPopulation, Nat.min_zero]
    rfl

/-
  A flat bucket with room to spare has the ids of all peers
  of its counterpart.
-/
theorem MirrorsAt.mem_ids
    {peers : PeerMap}
    {flat : FlatPeerMap}
    {rank : Nat}
    (hMirrors : MirrorsAt peers flat rank)
    (hNodup :
      ((flat.contactsAt rank).map Contact.peerId).Nodup)
    (hRoom :
      (flat.contactsAt rank).length =
        peers.population rank)
    {peerId : PeerId}
    (hKnown : (peers.getAt rank peerId).isSome) :
    peerId ∈ (flat.contactsAt rank).map Contact.peerId := by
  have hSubset :
      (flat.contactsAt rank).map Contact.peerId ⊆
        peers.idsAt rank := by
    intro id hId
    rcases List.mem_map.mp hId with
      ⟨contact, hContact, hSame⟩
    apply (peers.mem_idsAt_iff rank id).mpr
    rw [← hSame, hMirrors.known contact hContact]
    rfl
  have hLength :
      (peers.idsAt rank).length ≤
        ((flat.contactsAt rank).map
          Contact.peerId).length := by
    rw [List.length_map, hRoom]
    exact Nat.le_of_eq (List.length_map _)
  have hPerm :=
    (List.subperm_of_subset hNodup hSubset).perm_of_length_le
      hLength
  apply hPerm.mem_iff.mpr
  exact (peers.mem_idsAt_iff rank peerId).mpr hKnown

/- The flat bucket grows until its slots are used up. -/
theorem size_enlist
    {peers : PeerMap}
    {flat : FlatPeerMap}
    {rank : Nat}
    (hMirrors : MirrorsAt peers flat rank)
    (hNodup :
      ((flat.contactsAt rank).map Contact.peerId).Nodup)
    {newPeer : Contact}
    (hRank :
      rank = flat.peerId.distanceRank newPeer.peerId) :
    (enlist flat.bucketSize newPeer
        (flat.contactsAt rank)).length =
      min flat.bucketSize
        ((peers.put flat.peerId newPeer.address
          newPeer.peerId).population rank) := by
  have hSize := hMirrors.size
  have hPopulation :=
    peers.length_entriesAt_put flat.peerId newPeer.address
      newPeer.peerId rank
  unfold PeerMap.population at hSize ⊢
  rw [hPopulation, length_enlist]
  by_cases hKnown :
      newPeer.peerId ∈
        (flat.contactsAt rank).map Contact.peerId
  · rcases List.mem_map.mp hKnown with
      ⟨contact, hContact, hId⟩
    have hGet := hMirrors.known contact hContact
    rw [hId] at hGet
    have hOld :
        ¬ (rank =
              flat.peerId.distanceRank newPeer.peerId ∧
            peers.getAt rank newPeer.peerId = none) := by
      intro hNew
      rw [hNew.2] at hGet
      cases hGet
    rw [if_neg fun hNew => hNew.1 hKnown, if_neg hOld]
    exact hSize
  · by_cases hRoom :
        (flat.contactsAt rank).length < flat.bucketSize
    · have hAll :
          (flat.contactsAt rank).length =
            peers.population rank := by
        unfold PeerMap.population
        omega
      have hNone :
          peers.getAt rank newPeer.peerId = none := by
        rw [← Option.not_isSome_iff_eq_none]
        intro hSome
        exact hKnown (hMirrors.mem_ids hNodup hAll hSome)
      rw [if_pos ⟨hKnown, hRoom⟩, if_pos ⟨hRank, hNone⟩]
      omega
    · rw [if_neg fun hNew => hRoom hNew.2]
      split <;> omega

/- Inserting a peer into both tables keeps the mirror. -/
theorem Mirrors.put
    {peers : PeerMap}
    {flat : FlatPeerMap}
    (hMirrors : Mirrors peers flat)
    (hPacked : flat.Packed)
    (newPeer : Contact) :
    Mirrors
      (peers.put flat.peerId newPeer.address newPeer.peerId)
      (flat.put newPeer) := by
  intro rank hRank
  have hAt := hMirrors rank hRank
  have hNodup := hPacked.nodup rank hRank
  have hContacts := contactsAt_put hPacked newPeer rank
  by_cases hSame :
      rank = flat.peerId.distanceRank newPeer.peerId
  · rw [if_pos hSame] at hContacts
    refine ⟨?_, ?_⟩
    · intro contact hContact
      rw [hContacts] at hContact
      rw [PeerMap.getAt_put]
      rcases mem_of_mem_enlist hNodup hContact with
        hNew | ⟨hOld, hOther⟩
      · rw [hNew, if_pos ⟨hSame, rfl⟩]
      · rw [if_neg fun hBoth => hOther hBoth.2]
        exact hAt.known contact hOld
    · rw [hContacts]
      exact size_enlist hAt hNodup hSame
  · rw [if_neg hSame] at hContacts
    refine ⟨?_, ?_⟩
    · intro contact hContact
      rw [hContacts] at hContact
      rw [PeerMap.getAt_put,
        if_neg fun hBoth => hSame hBoth.1]
      exact hAt.known contact hContact
    · rw [hContacts, hAt.size]
      unfold PeerMap.population
      rw [PeerMap.length_entriesAt_put,
        if_neg fun hBoth => hSame hBoth.1]
      rfl

/- Tables that mirror each other still do after inserts. -/
theorem Mirrors.putAll
    {peers : PeerMap}
    {flat : FlatPeerMap}
    (hMirrors : Mirrors peers flat)
    (hPacked : flat.Packed)
    (inserts : List Contact) :
    Mirrors (peers.putAll flat.peerId inserts)
      (flat.putAll inserts) := by
  induction inserts generalizing peers flat with
  | nil => exact hMirrors
  | cons newPeer rest ih =>
      exact
        ih (hMirrors.put hPacked newPeer)
          (hPacked.put newPeer)

end FlatPeerMap

end WorldDat

------------------------------------------------------------
-- Agreement
------------------------------------------------------------

namespace WorldDat

open Rust

namespace FlatPeerMap

/- The distinct ids of a rank in a sequence of inserts. -/
def received
    (owner : PeerId)
    (inserts : List Contact)
    (rank : Nat) : List PeerId :=
  ((inserts.map Contact.peerId).filter fun id =>
    owner.distanceRank id = rank).dedup

/- A rank receives no more ids than there are inserts. -/
theorem length_received_le
    (owner : PeerId)
    (inserts : List Contact)
    (rank : Nat) :
    (received owner inserts rank).length ≤
      inserts.length := by
  unfold received
  have hDistinct := List.dedup_sublist
    ((inserts.map Contact.peerId).filter fun id =>
      owner.distanceRank id = rank)
  have hFiltered :=
    (hDistinct.trans List.filter_sublist).length_le
  rw [List.length_map] at hFiltered
  exact hFiltered

/- The bucketed table keeps every id that it receives. -/
theorem population_putAll
    (hasher : PeerHasher)
    (owner : PeerId)
    (inserts : List Contact)
    (rank : Nat) :
    ((PeerMap.default hasher).putAll owner
        inserts).population rank =
      (received owner inserts rank).length := by
  have hPerm :
      (((PeerMap.default hasher).putAll owner
        inserts).idsAt rank).Perm
        (received owner inserts rank) := by
    apply (List.perm_ext_iff_of_nodup
      (PeerMap.nodup_idsAt _ rank)
      (List.nodup_dedup _)).mpr
    intro id
    rw [PeerMap.mem_idsAt_iff, PeerMap.isSome_getAt_putAll,
      PeerMap.getAt_default, List.mem_dedup,
      List.mem_filter, decide_eq_true_eq]
    constructor
    · intro hId
      rcases hId with hOld | ⟨hRank, hIn⟩
      · cases hOld
      · exact ⟨hIn, hRank.symm⟩
    · intro hId
      exact Or.inr ⟨hId.2.symm, hId.1⟩
  rw [← hPerm.length_eq]
  exact (List.length_map _).symm

/- The counter is the sum over the buckets. -/
theorem count_eq_sum
    {self : FlatPeerMap}
    (hPacked : self.Packed) :
    self.count =
      ∑ rank ∈ Finset.range Blake2Hash.maxPower,
        (self.contactsAt rank).length := by
  have hBlocks :=
    congrArg (List.countP Option.isSome)
      (Listing.flatMap_block hPacked.length_contacts)
  have hCounts :
      (List.range Blake2Hash.maxPower).map
          (fun rank =>
            (self.bucketAt rank).countP Option.isSome) =
        (List.range Blake2Hash.maxPower).map
          fun rank => (self.contactsAt rank).length := by
    apply List.map_congr_left
    intro rank hRank
    rw [hPacked.packed rank (List.mem_range.mp hRank),
      countP_pack]
  rw [hPacked.count_eq, ← hBlocks, List.countP_flatMap]
  change
    ((List.range Blake2Hash.maxPower).map fun rank =>
      (self.bucketAt rank).countP Option.isSome).sum = _
  rw [hCounts]
  rfl

/- What the flat table knows, the other one knows too. -/
theorem Mirrors.find_eq
    {peers : PeerMap}
    {flat : FlatPeerMap}
    (hMirrors : Mirrors peers flat)
    {peerId : PeerId}
    {contact : Contact}
    (hFind :
      (flat.contactsAt
          (flat.peerId.distanceRank peerId)).find?
          (fun contact => contact.peerId = peerId) =
        some contact) :
    peers.find flat.peerId peerId = some contact.address := by
  have hId := List.find?_some hFind
  rw [decide_eq_true_eq] at hId
  have hKnown :=
    (hMirrors _ (flat.peerId.distanceRank_lt peerId)).known
      contact (List.mem_of_find?_eq_some hFind)
  rw [hId] at hKnown
  exact hKnown

/- A flat table that nothing was evicted from knows all. -/
theorem Mirrors.find_eq_none
    {peers : PeerMap}
    {flat : FlatPeerMap}
    (hMirrors : Mirrors peers flat)
    (hPacked : flat.Packed)
    {peerId : PeerId}
    (hRoom :
      peers.population (flat.peerId.distanceRank peerId) ≤
        flat.bucketSize)
    (hFind :
      (flat.contactsAt
          (flat.peerId.distanceRank peerId)).find?
          (fun contact => contact.peerId = peerId) =
        none) :
    peers.find flat.peerId peerId = none := by
  have hRank := flat.peerId.distanceRank_lt peerId
  have hAt := hMirrors _ hRank
  have hAll := hAt.size
  rw [Nat.min_eq_right hRoom] at hAll
  rw [← Option.not_isSome_iff_eq_none]
  intro hKnown
  have hIn :=
    hAt.mem_ids (hPacked.nodup _ hRank) hAll hKnown
  rcases List.mem_map.mp hIn with ⟨contact, hContact, hId⟩
  have hOther :=
    List.find?_eq_none.mp hFind contact hContact
  rw [decide_eq_true_eq] at hOther
  exact hOther hId

end FlatPeerMap

end WorldDat
