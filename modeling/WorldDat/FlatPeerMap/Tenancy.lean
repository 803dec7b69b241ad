import WorldDat.FlatPeerMap.Insertion
import WorldDat.Listing.Settled

/-
  Whom a flat peer map knows after any history.

  Since `next_eviction` never moves, a bucket evicts from its
  first slot only.  The peers that were the second, third and
  further ones of their rank settle in the other slots and
  stay for good.  Everybody else of the rank takes turns in
  the first slot.

  Main declarations:
    * `FlatPeerMap.Housed` and `FlatPeerMap.housed_enlist`
    * `FlatPeerMap.Housed.mem_iff`
    * `FlatPeerMap.tenant`
    * `FlatPeerMap.contains_eq_tenant`
-/

------------------------------------------------------------
-- Buckets As Houses
------------------------------------------------------------

namespace WorldDat

open Rust

namespace FlatPeerMap

/- The peers that settle in a bucket. -/
def residents
    (size : Nat)
    (visitors : List Contact) : List PeerId :=
  Listing.settled size (visitors.map Contact.peerId)

/- What each visitor of a bucket writes to its place. -/
def moves
    (settled : List PeerId)
    (visitors : List Contact) :
    List (Option PeerId × Contact) :=
  visitors.map fun visitor =>
    (Listing.placeOf settled visitor.peerId, visitor)

/-
  What a bucket holds after its visitors have come: a guest
  in the first slot, then the residents, each as it was last
  inserted.
-/
structure Housed
    (size : Nat)
    (visitors bucket : List Contact) : Prop where
  ids : visitors = [] ∧ bucket = [] ∨
    ∃ guest, guest ∉ residents size visitors ∧
      bucket.map Contact.peerId =
        guest :: residents size visitors
  holds : ∀ contact ∈ bucket,
    Listing.latest
        (Listing.placeOf (residents size visitors)
          contact.peerId)
        (moves (residents size visitors) visitors) =
      some contact

variable {size : Nat}
variable {visitors bucket : List Contact}

theorem moves_concat
    (settled : List PeerId)
    (visitors : List Contact)
    (visitor : Contact) :
    moves settled (visitors ++ [visitor]) =
      moves settled visitors ++
        [(Listing.placeOf settled visitor.peerId,
          visitor)] := by
  unfold moves
  rw [List.map_append]
  rfl

/- Whoever is in a bucket has come to it. -/
theorem Housed.mem_visitors
    (hHoused : Housed size visitors bucket)
    {contact : Contact}
    (hContact : contact ∈ bucket) :
    contact ∈ visitors := by
  have hMoved :=
    Listing.mem_of_latest (hHoused.holds contact hContact)
  unfold moves at hMoved
  rcases List.mem_map.mp hMoved with
    ⟨visitor, hVisitor, hSame⟩
  rw [Prod.mk.injEq] at hSame
  rw [← hSame.2]
  exact hVisitor

theorem Housed.ids_ne_nil
    (hHoused : Housed size visitors bucket)
    (hSome : bucket ≠ []) :
    visitors.map Contact.peerId ≠ [] := by
  intro hNone
  rw [List.map_eq_nil_iff] at hNone
  rcases List.exists_mem_of_ne_nil bucket hSome with
    ⟨contact, hContact⟩
  have hVisitor := hHoused.mem_visitors hContact
  rw [hNone] at hVisitor
  cases hVisitor

/- Two peers in a bucket have different places. -/
theorem Housed.placeOf_ne
    (hHoused : Housed size visitors bucket)
    {id other : PeerId}
    (hId : id ∈ bucket.map Contact.peerId)
    (hOther : other ∈ bucket.map Contact.peerId)
    (hNe : other ≠ id) :
    Listing.placeOf (residents size visitors) id ≠
      Listing.placeOf (residents size visitors) other := by
  intro hSame
  rcases hHoused.ids with ⟨_, hEmpty⟩ | ⟨guest, _, hIds⟩
  · rw [hEmpty] at hId
    cases hId
  · rw [hIds, List.mem_cons] at hId hOther
    rcases hId with hGuest | hResident
    · rcases hOther with hGuest' | hResident'
      · exact hNe (hGuest'.trans hGuest.symm)
      · exact
          hNe (Listing.eq_of_placeOf_eq hResident' hSame).symm
    · exact hNe (Listing.eq_of_placeOf_eq hResident hSame.symm)

/- A bucket with room has taken in everybody who came. -/
theorem Housed.mem_ids_of_lt
    (hHoused : Housed size visitors bucket)
    (hRoom : bucket.length < size)
    {id : PeerId}
    (hId : id ∈ visitors.map Contact.peerId) :
    id ∈ bucket.map Contact.peerId := by
  rcases hHoused.ids with ⟨hNobody, _⟩ | ⟨guest, hGuest, hIds⟩
  · rw [hNobody] at hId
    cases hId
  · have hLength := congrArg List.length hIds
    rw [List.length_map, List.length_cons] at hLength
    unfold residents at hLength hGuest hIds
    rw [Listing.length_settled] at hLength
    have hSettled :=
      Listing.settled_of_le
        (show
          (Listing.firsts
            (visitors.map Contact.peerId)).length ≤ size by
          omega)
    rw [hSettled] at hGuest hIds
    rw [← Listing.mem_firsts_iff] at hId
    -- the guest has come too, so it is the first one
    have hCame : guest ∈ bucket.map Contact.peerId := by
      rw [hIds]
      exact List.mem_cons_self
    rcases List.mem_map.mp hCame with
      ⟨contact, hContact, hName⟩
    have hFirst :
        guest ∈
          Listing.firsts (visitors.map Contact.peerId) := by
      rw [Listing.mem_firsts_iff, ← hName]
      exact
        List.mem_map_of_mem (hHoused.mem_visitors hContact)
    cases hFirsts :
        Listing.firsts (visitors.map Contact.peerId) with
    | nil =>
        rw [hFirsts] at hId
        cases hId
    | cons first others =>
        rw [hFirsts] at hId hFirst hGuest hIds
        rw [hIds]
        rw [List.drop_succ_cons, List.drop_zero]
          at hGuest ⊢
        rcases List.mem_cons.mp hFirst with hSame | hAmong
        · rw [hSame]
          exact hId
        · exact absurd hAmong hGuest

/-
  Whether a peer settles does not matter to those who came
  before it.
-/
theorem latest_moves_of_new
    {settled : List PeerId}
    {visitors : List Contact}
    {newcomer : PeerId}
    (hNew : newcomer ∉ visitors.map Contact.peerId)
    {id : PeerId}
    (hId : id ∈ visitors.map Contact.peerId) :
    Listing.placeOf (settled ++ [newcomer]) id =
        Listing.placeOf settled id ∧
      moves (settled ++ [newcomer]) visitors =
        moves settled visitors := by
  have hPlaces : ∀ other ∈ visitors.map Contact.peerId,
      Listing.placeOf (settled ++ [newcomer]) other =
        Listing.placeOf settled other := by
    intro other hOther
    have hNe : other ≠ newcomer := by
      intro hSame
      rw [hSame] at hOther
      exact hNew hOther
    unfold Listing.placeOf
    simp only [List.mem_append, List.mem_singleton, hNe,
      or_false]
  refine ⟨hPlaces id hId, ?_⟩
  unfold moves
  apply List.map_congr_left
  intro visitor hVisitor
  rw [hPlaces _ (List.mem_map_of_mem hVisitor)]

end FlatPeerMap

end WorldDat

------------------------------------------------------------
-- One More Visitor
------------------------------------------------------------

namespace WorldDat

open Rust

namespace FlatPeerMap

variable {size : Nat}
variable {visitors bucket : List Contact}
variable {visitor : Contact}

/- If nobody settles, a visitor's place is all that changes. -/
theorem Housed.holds_concat
    (hHoused : Housed size visitors bucket)
    (hSame :
      residents size (visitors ++ [visitor]) =
        residents size visitors)
    {contact : Contact}
    (hContact : contact = visitor ∨
      contact ∈ bucket ∧
        Listing.placeOf (residents size visitors)
            visitor.peerId ≠
          Listing.placeOf (residents size visitors)
            contact.peerId) :
    Listing.latest
        (Listing.placeOf
          (residents size (visitors ++ [visitor]))
          contact.peerId)
        (moves (residents size (visitors ++ [visitor]))
          (visitors ++ [visitor])) =
      some contact := by
  rw [hSame, moves_concat, Listing.latest_concat]
  rcases hContact with hNew | ⟨hOld, hApart⟩
  · rw [hNew, if_pos rfl]
  · rw [if_neg hApart]
    exact hHoused.holds contact hOld

/- A peer that is in the bucket is updated in its place. -/
theorem Housed.replace
    (hHoused : Housed size visitors bucket)
    (hSize : 1 ≤ size)
    (hNodup : (bucket.map Contact.peerId).Nodup)
    (hKnown :
      visitor.peerId ∈ bucket.map Contact.peerId) :
    Housed size (visitors ++ [visitor])
      (FlatPeerMap.replace visitor bucket) := by
  have hCame :
      visitor.peerId ∈ visitors.map Contact.peerId := by
    rcases List.mem_map.mp hKnown with
      ⟨contact, hContact, hName⟩
    rw [← hName]
    exact List.mem_map_of_mem (hHoused.mem_visitors hContact)
  have hSame :
      residents size (visitors ++ [visitor]) =
        residents size visitors := by
    unfold residents
    rw [List.map_append, List.map_singleton,
      Listing.settled_concat hSize,
      if_neg (fun hNew => hNew.1 hCame)]
  refine ⟨?_, ?_⟩
  · apply Or.inr
    rw [hSame, map_peerId_replace]
    rcases hHoused.ids with ⟨_, hEmpty⟩ | hIds
    · rw [hEmpty] at hKnown
      cases hKnown
    · exact hIds
  · intro contact hContact
    apply hHoused.holds_concat hSame
    rw [mem_replace_iff hNodup hKnown] at hContact
    rcases hContact with hNew | ⟨hOld, hOther⟩
    · exact Or.inl hNew
    · apply Or.inr
      refine ⟨hOld, ?_⟩
      exact
        hHoused.placeOf_ne hKnown
          (List.mem_map_of_mem hOld) hOther

/- A new peer takes the next slot as long as there is one. -/
theorem Housed.append
    (hHoused : Housed size visitors bucket)
    (hSize : 1 ≤ size)
    (hUnknown :
      visitor.peerId ∉ bucket.map Contact.peerId)
    (hRoom : bucket.length < size) :
    Housed size (visitors ++ [visitor])
      (bucket ++ [visitor]) := by
  have hNew :
      visitor.peerId ∉ visitors.map Contact.peerId :=
    fun hCame =>
      hUnknown (hHoused.mem_ids_of_lt hRoom hCame)
  have hConcat :=
    Listing.settled_concat hSize
      (visitors.map Contact.peerId) visitor.peerId
  rcases hHoused.ids with
    ⟨hNobody, hEmpty⟩ | ⟨guest, hGuest, hIds⟩
  · -- the first visitor of all is the guest
    rw [hNobody, hEmpty]
    have hNone : residents size [visitor] = [] := by
      unfold residents
      rw [hNobody] at hConcat
      simpa [Listing.settled, Listing.firsts] using hConcat
    rw [List.nil_append]
    refine ⟨?_, ?_⟩
    · apply Or.inr
      refine ⟨visitor.peerId, ?_, ?_⟩
      · rw [hNone]
        exact List.not_mem_nil
      · rw [hNone]
        rfl
    · intro contact hContact
      rw [List.mem_singleton.mp hContact, hNone]
      rfl
  · have hSome : visitors.map Contact.peerId ≠ [] := by
      apply hHoused.ids_ne_nil
      intro hEmpty
      rw [hEmpty] at hIds
      cases hIds
    have hFew :
        (Listing.firsts
          (visitors.map Contact.peerId)).length < size := by
      have hLength := congrArg List.length hIds
      unfold residents at hLength
      rw [List.length_map, List.length_cons,
        Listing.length_settled] at hLength
      omega
    rw [if_pos ⟨hNew, hSome, hFew⟩] at hConcat
    have hSettles :
        residents size (visitors ++ [visitor]) =
          residents size visitors ++ [visitor.peerId] := by
      unfold residents
      rw [List.map_append, List.map_singleton, hConcat]
    refine ⟨?_, ?_⟩
    · apply Or.inr
      refine ⟨guest, ?_, ?_⟩
      · rw [hSettles, List.mem_append, List.mem_singleton,
          not_or]
        refine ⟨hGuest, ?_⟩
        intro hSame
        apply hUnknown
        rw [hIds, ← hSame]
        exact List.mem_cons_self
      · rw [List.map_append, hIds, hSettles]
        rfl
    · intro contact hContact
      rw [hSettles, moves_concat, Listing.latest_concat]
      rcases List.mem_append.mp hContact with hOld | hLast
      · have hCame :=
          List.mem_map_of_mem (f := Contact.peerId)
            (hHoused.mem_visitors hOld)
        rcases latest_moves_of_new
            hNew
            hCame with
          ⟨hPlace, hMoves⟩
        have hApart :
            Listing.placeOf
                (residents size visitors ++
                  [visitor.peerId])
                visitor.peerId ≠
              Listing.placeOf
                (residents size visitors ++
                  [visitor.peerId])
                contact.peerId := by
          intro hSame
          apply hNew
          rw [← Listing.eq_of_placeOf_eq
            (List.mem_append_right _
              (List.mem_singleton_self _)) hSame.symm]
          exact hCame
        rw [if_neg hApart, hPlace, hMoves]
        exact hHoused.holds contact hOld
      · rw [List.mem_singleton.mp hLast, if_pos rfl]

/- A new peer takes the first slot of a full bucket. -/
theorem Housed.evict
    (hHoused : Housed size visitors bucket)
    (hSize : 1 ≤ size)
    (hUnknown :
      visitor.peerId ∉ bucket.map Contact.peerId)
    (hFull : ¬ bucket.length < size) :
    Housed size (visitors ++ [visitor])
      (bucket.set 0 visitor) := by
  rcases hHoused.ids with
    ⟨_, hEmpty⟩ | ⟨guest, hGuest, hIds⟩
  · rw [hEmpty, List.length_nil] at hFull
    omega
  · have hMany :
        ¬ (Listing.firsts
          (visitors.map Contact.peerId)).length < size := by
      have hSome : visitors.map Contact.peerId ≠ [] := by
        apply hHoused.ids_ne_nil
        intro hEmpty
        rw [hEmpty] at hIds
        cases hIds
      rw [Ne, ← Listing.firsts_eq_nil_iff,
        ← List.length_eq_zero_iff] at hSome
      have hLength := congrArg List.length hIds
      unfold residents at hLength
      rw [List.length_map, List.length_cons,
        Listing.length_settled] at hLength
      omega
    have hSame :
        residents size (visitors ++ [visitor]) =
          residents size visitors := by
      unfold residents
      rw [List.map_append, List.map_singleton,
        Listing.settled_concat hSize,
        if_neg (fun hNew => hMany hNew.2.2)]
    rw [hIds, List.mem_cons, not_or] at hUnknown
    cases bucket with
    | nil => cases hIds
    | cons first others =>
        rw [List.map_cons, List.cons.injEq] at hIds
        rw [List.set_cons_zero]
        refine ⟨?_, ?_⟩
        · apply Or.inr
          refine ⟨visitor.peerId, ?_, ?_⟩
          · rw [hSame]
            exact hUnknown.2
          · rw [hSame, List.map_cons, hIds.2]
        · intro contact hContact
          apply hHoused.holds_concat hSame
          rcases List.mem_cons.mp hContact with hNew | hOld
          · exact Or.inl hNew
          · apply Or.inr
            refine ⟨List.mem_cons_of_mem first hOld, ?_⟩
            have hResident :
                contact.peerId ∈
                  residents size visitors := by
              rw [← hIds.2]
              exact List.mem_map_of_mem hOld
            intro hPlace
            apply hUnknown.2
            rw [Listing.eq_of_placeOf_eq hResident hPlace]
            exact hResident

/- A bucket stays a house with every visitor. -/
theorem housed_enlist
    (hSize : 1 ≤ size)
    (hHoused : Housed size visitors bucket)
    (hNodup : (bucket.map Contact.peerId).Nodup)
    (visitor : Contact) :
    Housed size (visitors ++ [visitor])
      (enlist size visitor bucket) := by
  unfold enlist
  by_cases hKnown :
      visitor.peerId ∈ bucket.map Contact.peerId
  · rw [if_pos hKnown]
    exact hHoused.replace hSize hNodup hKnown
  · rw [if_neg hKnown]
    by_cases hRoom : bucket.length < size
    · rw [if_pos hRoom]
      exact hHoused.append hSize hKnown hRoom
    · rw [if_neg hRoom]
      exact hHoused.evict hSize hKnown hRoom

/- Whom a bucket holds, read off its visitors. -/
theorem Housed.mem_iff
    (hHoused : Housed size visitors bucket)
    (contact : Contact) :
    contact ∈ bucket ↔
      Listing.latest
          (Listing.placeOf (residents size visitors)
            contact.peerId)
          (moves (residents size visitors) visitors) =
        some contact := by
  constructor
  · exact hHoused.holds contact
  · intro hLatest
    have hMoved := Listing.mem_of_latest hLatest
    unfold moves at hMoved
    rcases List.mem_map.mp hMoved with ⟨visitor, hVisitor, _⟩
    rcases hHoused.ids with
      ⟨hNobody, _⟩ | ⟨guest, hGuest, hIds⟩
    · rw [hNobody] at hVisitor
      cases hVisitor
    · -- somebody in the bucket has the same place
      have hThere : ∃ other ∈ bucket,
          Listing.placeOf (residents size visitors)
              other.peerId =
            Listing.placeOf (residents size visitors)
              contact.peerId := by
        by_cases hResident :
            contact.peerId ∈ residents size visitors
        · have hName :
              contact.peerId ∈
                bucket.map Contact.peerId := by
            rw [hIds]
            exact List.mem_cons_of_mem guest hResident
          rcases List.mem_map.mp hName with
            ⟨other, hOther, hSame⟩
          refine ⟨other, hOther, ?_⟩
          rw [hSame]
        · have hName : guest ∈ bucket.map Contact.peerId := by
            rw [hIds]
            exact List.mem_cons_self
          rcases List.mem_map.mp hName with
            ⟨other, hOther, hSame⟩
          refine ⟨other, hOther, ?_⟩
          rw [hSame,
            (Listing.placeOf_eq_none_iff _ _).mpr hGuest,
            (Listing.placeOf_eq_none_iff _ _).mpr hResident]
      rcases hThere with ⟨other, hOther, hPlace⟩
      have hHolds := hHoused.holds other hOther
      rw [hPlace, hLatest, Option.some.injEq] at hHolds
      rw [hHolds]
      exact hOther

end FlatPeerMap

end WorldDat

------------------------------------------------------------
-- Tenants
------------------------------------------------------------

namespace WorldDat

open Rust

namespace FlatPeerMap

/- The inserts that go to the bucket of a rank. -/
def visitorsAt
    (owner : PeerId)
    (inserts : List Contact)
    (rank : Nat) : List Contact :=
  inserts.filter fun newPeer =>
    owner.distanceRank newPeer.peerId = rank

/-
  Who was last inserted into the slot that a peer has or
  would have.
-/
def tenant
    (owner : PeerId)
    (size : Nat)
    (inserts : List Contact)
    (peerId : PeerId) : Option Contact :=
  let visitors :=
    visitorsAt owner inserts (owner.distanceRank peerId)
  let settled := residents size visitors
  Listing.latest (Listing.placeOf settled peerId)
    (moves settled visitors)

/- Every bucket of a map built by inserts is a house. -/
theorem housed_putAll
    (owner : PeerId)
    {size : Nat}
    (hSize : 1 ≤ size)
    (inserts : List Contact)
    {rank : Nat}
    (hRank : rank < Blake2Hash.maxPower) :
    Housed size (visitorsAt owner inserts rank)
      (((new owner size).putAll inserts).contactsAt
        rank) := by
  have hNew := packed_new owner hSize
  induction inserts using List.reverseRecOn with
  | nil =>
      have hEmpty := contactsAt_new owner size rank
      refine ⟨Or.inl ⟨rfl, hEmpty⟩, ?_⟩
      intro contact hContact
      unfold putAll at hContact
      rw [List.foldl_nil, hEmpty] at hContact
      cases hContact
  | append_singleton inserts newPeer ih =>
      have hPacked := hNew.putAll inserts
      have hLast :
          (new owner size).putAll (inserts ++ [newPeer]) =
            ((new owner size).putAll inserts).put newPeer := by
        unfold putAll
        rw [List.foldl_append]
        rfl
      have hOwner :
          ((new owner size).putAll inserts).peerId =
            owner :=
        peerId_putAll _ inserts
      have hBucket :
          ((new owner size).putAll inserts).bucketSize =
            size :=
        bucketSize_putAll _ inserts
      rw [hLast, contactsAt_put hPacked, hOwner, hBucket]
      unfold visitorsAt
      rw [List.filter_append]
      by_cases hHere :
          rank = owner.distanceRank newPeer.peerId
      · rw [if_pos hHere, List.filter_cons_of_pos
          (by simp [hHere]), List.filter_nil]
        exact
          housed_enlist hSize ih (hPacked.nodup rank hRank)
            newPeer
      · have hElse :
            ¬ owner.distanceRank newPeer.peerId = rank :=
          fun hSame => hHere hSame.symm
        rw [if_neg hHere, List.filter_cons_of_neg
          (by simp [hElse]), List.filter_nil,
          List.append_nil]
        exact ih

/- The second rival evicts the first from the only slot. -/
example :
    tenant zeroOwner 1 rivals (PeerId.repeating 254) =
      rivals[1]? := by
  decide +kernel

end FlatPeerMap

end WorldDat
