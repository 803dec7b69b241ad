import WorldDat.FlatPeerMap.Packed
import WorldDat.PeerMap.Basic
import WorldDat.Rank

/-
  Ranks as indices into the two routing tables.

  Both tables have a bucket for every rank.  The last one is
  the bucket of the owner, and nobody else gets into it.

  Main declarations:
    * `IndexesBuckets`
    * `indexesBuckets`
-/

------------------------------------------------------------
-- The Last Bucket
------------------------------------------------------------

namespace WorldDat

open Rust

/- An entry in the last bucket is the owner's. -/
theorem PeerMap.FiledBy.eq_of_mem_last
    {self : PeerMap}
    {selfId : PeerId}
    (hFiled : self.FiledBy selfId)
    {peerId : PeerId}
    {addr : SocketAddr}
    (hEntry :
      (peerId, addr) ∈
        self.entriesAt (Blake2Hash.maxPower - 1)) :
    peerId = selfId := by
  rw [mem_entriesAt_iff] at hEntry
  have hRank := hFiled _ peerId addr hEntry
  exact
    ((selfId.distanceRank_eq_top_iff peerId).mp
      hRank.symm).symm

namespace FlatPeerMap

variable {self : FlatPeerMap}

/- A contact in the last bucket is the owner's. -/
theorem Packed.eq_of_mem_last
    (hPacked : self.Packed)
    {contact : Contact}
    (hContact :
      contact ∈
        self.contactsAt (Blake2Hash.maxPower - 1)) :
    contact.peerId = self.peerId := by
  have hRank :=
    hPacked.ranked _ (by decide) contact hContact
  exact
    ((self.peerId.distanceRank_eq_top_iff _).mp hRank).symm

end FlatPeerMap

end WorldDat

------------------------------------------------------------
-- Ranks Index Buckets
------------------------------------------------------------

namespace WorldDat

open Rust

/-
  A rank is below the number of buckets, and the same from
  both sides.  It is the highest one for the owner only, so
  nobody else is in the last bucket of either table.
-/
structure IndexesBuckets
    (owner peer : PeerId) : Prop where
  below : owner.distanceRank peer < Blake2Hash.maxPower
  comm : owner.distanceRank peer = peer.distanceRank owner
  last_iff : owner.distanceRank peer = 255 ↔ owner = peer
  peerMap : ∀ (hasher : PeerHasher) inserts map,
    (PeerMap.default hasher).insertAll owner inserts =
        .ok map →
      owner.distanceRank peer < map.buckets.length ∧
        ∀ addr, (peer, addr) ∈ map.entriesAt 255 →
          peer = owner
  flatPeerMap : ∀ size inserts map,
    (FlatPeerMap.new owner size).insertAll inserts =
        .ok map →
      (owner.distanceRank peer + 1) * size ≤
          map.contacts.length ∧
        ∀ contact ∈ map.contactsAt 255,
          contact.peerId = owner

/- All ranks do. -/
theorem indexesBuckets (owner peer : PeerId) :
    IndexesBuckets owner peer where
  below := PeerId.distanceRank_lt owner peer
  comm := PeerId.distanceRank_comm owner peer
  last_iff := owner.distanceRank_eq_top_iff peer
  peerMap := by
    intro hasher inserts map hInserts
    rw [PeerMap.insertAll_eq_ok] at hInserts
    cases hInserts
    refine ⟨PeerMap.distanceRank_lt_length _ _ _, ?_⟩
    intro addr hEntry
    have hFiled := PeerMap.filedBy_default hasher owner
    exact (hFiled.putAll inserts).eq_of_mem_last hEntry
  flatPeerMap := by
    intro size inserts map hInserts
    have hSize := FlatPeerMap.bucketSize_insertAll hInserts
    change map.bucketSize = size at hSize
    rcases Nat.eq_zero_or_pos size with hZero | hPositive
    · refine ⟨?_, ?_⟩
      · rw [hZero]
        exact Nat.zero_le _
      · intro contact hContact
        have hLength := map.length_contactsAt_le 255
        rw [hSize, hZero, Nat.le_zero,
          List.length_eq_zero_iff] at hLength
        rw [hLength] at hContact
        cases hContact
    · have hNew := FlatPeerMap.packed_new owner hPositive
      rw [FlatPeerMap.insertAll_eq_ok hNew] at hInserts
      cases hInserts
      have hPacked := hNew.putAll inserts
      refine ⟨?_, ?_⟩
      · rw [hPacked.length_contacts, hSize]
        apply Nat.mul_le_mul_right
        exact PeerId.distanceRank_lt owner peer
      · intro contact hContact
        have hOwner := hPacked.eq_of_mem_last hContact
        rw [FlatPeerMap.peerId_putAll] at hOwner
        exact hOwner

end WorldDat
