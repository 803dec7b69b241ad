import Mathlib.Data.List.Dedup
import WorldDat.Listing.LatestWrite

/-
  Keys that settle.

  Of a list of keys, the first one to come takes a guest's
  place, and the next ones take a place of their own, as long
  as there are places.  All further keys share the guest's
  place.

  Main declarations:
    * `Listing.firsts` and `Listing.firsts_concat`
    * `Listing.settled` and `Listing.settled_concat`
    * `Listing.placeOf`
-/

------------------------------------------------------------
-- First Occurrences
------------------------------------------------------------

namespace Listing

variable {K : Type} [DecidableEq K]

/- Every key once, in the order in which keys first occur. -/
def firsts (keys : List K) : List K :=
  keys.reverse.dedup.reverse

theorem mem_firsts_iff
    (keys : List K)
    (key : K) :
    key ∈ firsts keys ↔ key ∈ keys := by
  unfold firsts
  rw [List.mem_reverse, List.mem_dedup, List.mem_reverse]

/- A key counts when it occurs for the first time. -/
theorem firsts_concat
    (keys : List K)
    (key : K) :
    firsts (keys ++ [key]) =
      if key ∈ keys then
        firsts keys
      else
        firsts keys ++ [key] := by
  unfold firsts
  rw [List.reverse_append, List.reverse_singleton,
    List.singleton_append]
  by_cases hKey : key ∈ keys
  · rw [if_pos hKey,
      List.dedup_cons_of_mem (List.mem_reverse.mpr hKey)]
  · have hNew : key ∉ keys.reverse := by
      rw [List.mem_reverse]
      exact hKey
    rw [if_neg hKey, List.dedup_cons_of_notMem hNew,
      List.reverse_cons]

theorem firsts_eq_nil_iff (keys : List K) :
    firsts keys = [] ↔ keys = [] := by
  rw [List.eq_nil_iff_forall_not_mem,
    List.eq_nil_iff_forall_not_mem]
  simp only [mem_firsts_iff]

end Listing

------------------------------------------------------------
-- Settled Keys
------------------------------------------------------------

namespace Listing

variable {K : Type} [DecidableEq K]

/- The second key to come and those after it that fit. -/
def settled
    (size : Nat)
    (keys : List K) : List K :=
  ((firsts keys).take size).drop 1

/- Where there is room for everybody, all but one settle. -/
theorem settled_of_le
    {size : Nat}
    {keys : List K}
    (hRoom : (firsts keys).length ≤ size) :
    settled size keys = (firsts keys).drop 1 := by
  unfold settled
  rw [List.take_of_length_le hRoom]

theorem length_settled
    (size : Nat)
    (keys : List K) :
    (settled size keys).length =
      min size (firsts keys).length - 1 := by
  unfold settled
  rw [List.length_drop, List.length_take]

/- Only a new key settles, and only while there is room. -/
theorem settled_concat
    {size : Nat}
    (hSize : 1 ≤ size)
    (keys : List K)
    (key : K) :
    settled size (keys ++ [key]) =
      if key ∉ keys ∧ keys ≠ [] ∧
          (firsts keys).length < size then
        settled size keys ++ [key]
      else
        settled size keys := by
  unfold settled
  rw [firsts_concat]
  by_cases hKnown : key ∈ keys
  · rw [if_pos hKnown, if_neg (fun hNew => hNew.1 hKnown)]
  · rw [if_neg hKnown]
    by_cases hEmpty : keys = []
    · rw [if_neg (fun hNew => hNew.2.1 hEmpty),
        (firsts_eq_nil_iff keys).mpr hEmpty]
      rcases Nat.exists_eq_add_of_le hSize with ⟨more, rfl⟩
      rw [Nat.add_comm]
      simp
    · have hSome : 1 ≤ (firsts keys).length := by
        rw [Nat.one_le_iff_ne_zero, Ne,
          List.length_eq_zero_iff, firsts_eq_nil_iff]
        exact hEmpty
      by_cases hRoom : (firsts keys).length < size
      · rw [if_pos ⟨hKnown, hEmpty, hRoom⟩,
          List.take_of_length_le (Nat.le_of_lt hRoom),
          List.take_of_length_le, List.drop_append_of_le_length
            hSome]
        rw [List.length_append]
        exact hRoom
      · rw [if_neg (fun hNew => hRoom hNew.2.2),
          List.take_append_of_le_length
            (Nat.le_of_not_lt hRoom)]

end Listing

------------------------------------------------------------
-- Places
------------------------------------------------------------

namespace Listing

variable {K V : Type} [DecidableEq K]

/- The own place of a key, or that of the guests. -/
def placeOf
    (residents : List K)
    (key : K) : Option K :=
  if key ∈ residents then some key else none

theorem placeOf_eq_none_iff
    (residents : List K)
    (key : K) :
    placeOf residents key = none ↔ key ∉ residents := by
  simp [placeOf]

/- Only guests share a place. -/
theorem eq_of_placeOf_eq
    {residents : List K}
    {key other : K}
    (hResident : key ∈ residents)
    (hSame :
      placeOf residents other = placeOf residents key) :
    other = key := by
  unfold placeOf at hSame
  rw [if_pos hResident] at hSame
  split at hSame
  · exact Option.some.inj hSame
  · cases hSame

/- The value that a key holds has been written to it. -/
theorem mem_of_latest
    {key : K}
    {value : V}
    {writes : List (K × V)}
    (hLatest : latest key writes = some value) :
    (key, value) ∈ writes := by
  induction writes with
  | nil => cases hLatest
  | cons write rest ih =>
      rcases write with ⟨other, first⟩
      rw [latest, Option.or_eq_some_iff] at hLatest
      rcases hLatest with hLater | ⟨_, hFirst⟩
      · exact List.mem_cons_of_mem _ (ih hLater)
      · split at hFirst
        · rename_i hKey
          cases hFirst
          rw [hKey]
          exact List.mem_cons_self
        · cases hFirst

end Listing
