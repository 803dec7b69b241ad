import WorldDat.FlatPeerMap.Coverage
import WorldDat.FlatPeerMap.Insertion

/-
  What looking up a peer in the flat routing table answers
  (`types.rs`, `FlatPeerMap::lookup`).

  Main declarations:
    * `FlatPeerMap.Trims` and `FlatPeerMap.trims_of_packed`
    * `FlatPeerMap.Answers`
    * `FlatPeerMap.answers_of_inserts`
-/

------------------------------------------------------------
-- Trimmed Results
------------------------------------------------------------

namespace WorldDat

open Rust

namespace FlatPeerMap

variable {self : FlatPeerMap}

/-
  A search that asks for fewer contacts, and so ends sooner,
  returns the first of those that a longer one returns.
-/
def Trims
    (map : FlatPeerMap)
    (needle : PeerId) : Prop :=
  ∀ count more, count ≤ more →
    more ≤ map.contacts.length →
      ∃ results,
        map.findClosestPeers needle more = .ok results ∧
          map.findClosestPeers needle count =
            .ok (results.take count)

theorem trims_of_packed
    (hPacked : self.Packed)
    (needle : PeerId) :
    self.Trims needle := by
  intro count more hLess hMore
  have hTarget := self.peerId.distanceRank_lt needle
  refine
    ⟨_, findClosestPeers_eq_ok hPacked needle hMore, ?_⟩
  rw [findClosestPeers_eq_ok hPacked needle
    (Nat.le_trans hLess hMore),
    self.found_eq_take count hTarget,
    self.found_eq_take more hTarget, List.take_take,
    Nat.min_eq_left hLess]

end FlatPeerMap

end WorldDat

------------------------------------------------------------
-- Answers
------------------------------------------------------------

namespace WorldDat

open Rust

namespace FlatPeerMap

variable {self : FlatPeerMap}

/-
  Looking up a peer gives its contact if there is one.  If
  there is none, it gives contacts of other peers, as many as
  a bucket has slots unless there are fewer, and from the
  nearest buckets around the ring.
-/
structure Answers
    (map : FlatPeerMap)
    (peerId : PeerId) : Prop where
  known : ∀ contact,
    map.lookup peerId = .ok (.ok contact) ↔
      some contact ∈ map.contacts ∧ contact.peerId = peerId
  unknown :
    (∀ contact, some contact ∈ map.contacts →
        contact.peerId ≠ peerId) →
      ∃ results,
        map.lookup peerId = .ok (.error results) ∧
          map.CoversRing peerId map.bucketSize results ∧
          results.length ≤ map.bucketSize ∧
          (∀ contact ∈ results, contact.peerId ≠ peerId) ∧
          (results = [] ↔ map.count = 0)
  trimmed : map.Trims peerId

/- What is looked up is what is found in its bucket. -/
theorem lookup_eq_find
    (hPacked : self.Packed)
    (peerId : PeerId) :
    self.lookup peerId =
      .ok
        (match findIn
            (self.contactsAt
              (self.peerId.distanceRank peerId))
            peerId with
        | some contact => .ok contact
        | none =>
            .error
              (self.found self.bucketSize
                (self.peerId.distanceRank peerId))) :=
  lookup_eq_ok hPacked peerId

/- A contact is in its bucket if it is anywhere. -/
theorem findIn_bucket_iff
    (hPacked : self.Packed)
    (peerId : PeerId)
    (contact : Contact) :
    findIn
          (self.contactsAt (self.peerId.distanceRank peerId))
          peerId = some contact ↔
      some contact ∈ self.contacts ∧
        contact.peerId = peerId := by
  rw [findIn_eq_some_iff
    (hPacked.nodup _ (self.peerId.distanceRank_lt peerId)),
    mem_contacts_iff hPacked]
  constructor
  · intro hBucket
    exact ⟨⟨_, hBucket.1⟩, hBucket.2⟩
  · intro hStored
    rcases hStored with ⟨⟨rank, hContact⟩, hId⟩
    have hRank := hPacked.rank_eq rank contact hContact
    rw [hId] at hRank
    rw [hRank]
    exact ⟨hContact, hId⟩

/- Nothing is found only where nothing is stored. -/
theorem found_eq_nil_iff
    (hPacked : self.Packed)
    (needle : PeerId) :
    self.found self.bucketSize
          (self.peerId.distanceRank needle) = [] ↔
      self.count = 0 := by
  have hCovers :=
    coversRing_found hPacked needle self.bucketSize
  have hLength :=
    length_collected_firstReadings hPacked
      (self.peerId.distanceRank_lt needle)
  have hFound :=
    mem_found_iff hPacked self.bucketSize
      (self.peerId.distanceRank_lt needle)
  constructor
  · intro hNil
    by_contra hSome
    rcases Nat.lt_or_ge self.count self.bucketSize with
      hFew | hMany
    · -- one of the few that are stored would be found
      rcases List.exists_mem_of_length_pos
          (hLength ▸ Nat.pos_of_ne_zero hSome) with
        ⟨contact, hContact⟩
      have hIn := hFound contact
      rw [hNil, List.take_of_length_le (by omega)] at hIn
      cases hIn.mpr hContact
    · have hAll := hCovers.length_eq hMany
      have hPositive := hPacked.bucketSize_pos
      rw [hNil, List.length_nil] at hAll
      omega
  · intro hNone
    rw [List.eq_nil_iff_forall_not_mem]
    intro contact hContact
    rw [hFound, List.eq_nil_of_length_eq_zero
      (hLength.trans hNone), List.take_nil] at hContact
    cases hContact

theorem answers_of_packed
    (hPacked : self.Packed)
    (peerId : PeerId) :
    self.Answers peerId where
  known := by
    intro contact
    rw [← findIn_bucket_iff hPacked,
      lookup_eq_find hPacked]
    split
    · rename_i other hOther
      rw [hOther, Except.ok.injEq, Except.ok.injEq,
        Option.some.injEq]
    · rename_i hNone
      rw [hNone]
      apply iff_of_false
      · intro hSame
        cases hSame
      · intro hSame
        cases hSame
  unknown := by
    intro hUnknown
    have hNone :
        findIn
            (self.contactsAt
              (self.peerId.distanceRank peerId))
            peerId = none := by
      rw [Option.eq_none_iff_forall_ne_some]
      intro contact hFound
      rw [findIn_bucket_iff hPacked] at hFound
      exact hUnknown contact hFound.1 hFound.2
    have hCovers :=
      coversRing_found hPacked peerId self.bucketSize
    refine
      ⟨self.found self.bucketSize
          (self.peerId.distanceRank peerId),
        ?_, hCovers, ?_, ?_, found_eq_nil_iff hPacked peerId⟩
    · rw [lookup_eq_find hPacked, hNone]
    · exact List.length_take_le _ _
    · intro contact hContact
      exact hUnknown contact (hCovers.stored contact hContact)
  trimmed := trims_of_packed hPacked peerId

end FlatPeerMap

end WorldDat
